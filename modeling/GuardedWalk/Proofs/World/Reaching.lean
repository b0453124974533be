import GuardedWalk.Proofs.World.Frame
import Mathlib.Logic.Relation

/-!
# What an object leads to

An object leads to the values of its attributes, to its elements if it is a container, and to
whatever else it is made of: a method leads to its object, and a wrapper to the node that it was
made for and to what it hides. What belongs to a module, such as an event, can be found from
everywhere and is taken for plain data here.

The graph of a document is all that its root leads to. It consists of nodes of the document classes,
of the lists that they keep their parts in, and of plain data. Parts may be shared, but nothing lies
inside itself.

## Main definitions

* `GuardedWalk.Value.isPlain` — whether a value is plain data.
* `GuardedWalk.World.Leads`, `Reaches` — what a value leads to, straight away and at all.
* `GuardedWalk.World.Graph` — a node is the root of a document that has never been guarded.
* `GuardedWalk.World.Stores` — an object is there.

## Main results

* `GuardedWalk.World.Graph.field`, `Graph.item` — what the objects of a graph hold is part of it.
* `GuardedWalk.World.Graph.not_root` — the root is no part of any of its parts.
-/

set_option autoImplicit false

namespace GuardedWalk

/-- Whether a value is plain data: it is made of nothing else, and all copies of it are the same. -/
def Value.isPlain : Value → Bool
  | .none | .bool _ | .int _ | .float _ | .text _ | .mode _ | .event _ => true
  | _ => false

namespace World

variable {ε : Type} {w : World ε} {root : Ref .node}

/-! ## What values lead to -/

/-- A value leads to another one straight away. -/
inductive Leads (w : World ε) : Value → Value → Prop where
  | field {v x : Value} {name : String} (object : v.isPlain = false)
    (carries : (name, x) ∈ w.carried v) : Leads w v x
  | item {l : Ref .list} {x : Value} (among : x ∈ w.items l) : Leads w (.list l) x
  | element {r : Ref .tuple} {x : Value} (among : x ∈ w.row r) : Leads w (.tuple r) x
  | key {d : Ref .dictionary} {p : Value × Value} (among : p ∈ (w.dictionaries.get d).pairs) :
    Leads w (.dictionary d) p.1
  | value {d : Ref .dictionary} {p : Value × Value} (among : p ∈ (w.dictionaries.get d).pairs) :
    Leads w (.dictionary d) p.2
  | argument {r : Ref .exception} {x : Value} (among : x ∈ w.argsOf r) : Leads w (.exception r) x
  | slot {r : Ref .exception} {p : String × Value} (among : p ∈ (w.exceptions.get r).slots) :
    Leads w (.exception r) p.2
  | self (m : Ref .method) : Leads w (.method m) (w.methods.get m).self
  | wrapped (x : Ref .wrapper) : Leads w (.wrapper x) (w.wrappers.get x).node
  | hidden (x : Ref .wrapper) : Leads w (.wrapper x) (w.wrappers.get x).inner
  | owner (r : Ref .node) : Leads w (.ownAccept r) (.node r)
  | held (k : Ref .token) : Leads w (.holding k) (.token k)
  | walker (r : Ref .walker) (e : Event) (args : Ref .tuple) :
    Leads w (.block r e args) (.walker r)
  | args (r : Ref .walker) (e : Event) (args : Ref .tuple) : Leads w (.block r e args) (.tuple args)

/-- A value leads to another one, at whatever remove. -/
def Reaches (w : World ε) : Value → Value → Prop := Relation.ReflTransGen w.Leads

/-- Plain data lead to nothing. -/
theorem not_leads_of_plain {v x : Value} (hv : v.isPlain = true) : ¬ w.Leads v x := by
  intro h
  cases h with
  | field object => simp [hv] at object
  | _ => cases hv

/-- A node leads to what its attributes say. -/
theorem leads_node {r : Ref .node} {x : Value} :
    w.Leads (.node r) x ↔ ∃ name, (name, x) ∈ w.carried (.node r) := by
  refine ⟨fun h => ?_, fun ⟨name, h⟩ => .field rfl h⟩
  cases h with
  | field _ carries => exact ⟨_, carries⟩

/-- A list leads to its elements. -/
theorem leads_list {l : Ref .list} {x : Value} : w.Leads (.list l) x ↔ x ∈ w.items l := by
  refine ⟨fun h => ?_, .item⟩
  cases h with
  | field _ carries => simp [carried, own?] at carries
  | item among => exact among

/-! ## The graph of a document -/

/-- What the graph of a document consists of: plain data, lists, and nodes of the document classes
that carry no marks. -/
inductive Constitutes (w : World ε) : Value → Prop where
  | plain {v : Value} (h : v.isPlain = true) : Constitutes w v
  | list (l : Ref .list) : Constitutes w (.list l)
  | node {r : Ref .node} {c : DocumentClass} (cls : (w.nodes.get r).cls = .document c)
    (distinct : ((w.carried (.node r)).map Prod.fst).Nodup)
    (unmarked : ∀ name ∈ Node.marks, (w.carried (.node r)).get? name = none) :
    Constitutes w (.node r)

/-- A node is the root of a document that has never been guarded. -/
structure Graph (w : World ε) (root : Ref .node) : Prop where
  constitutes : ∀ v, w.Reaches (.node root) v → w.Constitutes v
  acyclic : ∀ v, w.Reaches (.node root) v → ¬ Relation.TransGen w.Leads v v

/-- A node is the root of a document if there is a rank for all that is inside, and everything leads
to what is of a lower rank. -/
theorem Graph.of_rank {inside : Value → Prop} (rank : Value → Nat) (hroot : inside (.node root))
    (hconstitutes : ∀ v, inside v → w.Constitutes v)
    (hleads : ∀ v x, inside v → w.Leads v x → inside x ∧ rank x < rank v) : w.Graph root := by
  have hinside {v : Value} (hv : w.Reaches (.node root) v) : inside v := by
    induction hv with
    | refl => exact hroot
    | tail _ hx ih => exact (hleads _ _ ih hx).1
  have hlower {v x : Value} (hv : inside v) (hx : Relation.TransGen w.Leads v x) :
      inside x ∧ rank x < rank v := by
    induction hx with
    | single hx => exact hleads _ _ hv hx
    | tail _ hx ih =>
      obtain ⟨hin, hlt⟩ := hleads _ _ ih.1 hx
      exact ⟨hin, Nat.lt_trans hlt ih.2⟩
  exact ⟨fun v hv => hconstitutes v (hinside hv), fun v hv hloop =>
    Nat.lt_irrefl _ (hlower (hinside hv) hloop).2⟩

/-- An object of a graph is there. -/
def Stores (w : World ε) : Value → Prop
  | .node r => r.index < w.nodes.cells.size
  | .list l => l.index < w.lists.cells.size
  | _ => True

theorem Reaches.step {u v x : Value} (h : w.Reaches u v) (hx : w.Leads v x) : w.Reaches u x :=
  Relation.ReflTransGen.tail h hx

/-- The attributes of a node of the document classes. -/
theorem carried_eq {r : Ref .node} {c : DocumentClass} (hc : (w.nodes.get r).cls = .document c) :
    w.carried (.node r) = (w.nodes.get r).attributes := by
  simp [carried, own?, hc, NodeClass.hasAttributes]

/-- What a copy leaves behind of a node of the document classes that carries no guard: nothing. -/
theorem unguarded_of_untagged {r : Ref .node} {c : DocumentClass}
    (hc : (w.nodes.get r).cls = .document c)
    (ht : (w.carried (.node r)).get? Node.guardField = none) :
    (w.nodes.get r).unguarded = w.carried (.node r) := by
  rw [carried_eq hc] at ht ⊢
  simp [Node.unguarded, hc, NodeClass.isDocumentNode, ht]

namespace Graph

variable (h : w.Graph root)

include h

theorem cls {r : Ref .node} (hr : w.Reaches (.node root) (.node r)) :
    ∃ c, (w.nodes.get r).cls = .document c := by
  cases h.constitutes _ hr with
  | plain h => cases h
  | node cls => exact ⟨_, cls⟩

theorem distinct {r : Ref .node} (hr : w.Reaches (.node root) (.node r)) :
    ((w.carried (.node r)).map Prod.fst).Nodup := by
  cases h.constitutes _ hr with
  | plain h => cases h
  | node _ distinct => exact distinct

theorem unmarked {r : Ref .node} (hr : w.Reaches (.node root) (.node r)) {name : String}
    (hn : name ∈ Node.marks) : (w.carried (.node r)).get? name = none := by
  cases h.constitutes _ hr with
  | plain h => cases h
  | node _ _ unmarked => exact unmarked name hn

omit h in
/-- What a node of a graph carries is part of the graph. -/
theorem field {r : Ref .node} (hr : w.Reaches (.node root) (.node r)) {p : String × Value}
    (hp : p ∈ w.carried (.node r)) : w.Reaches (.node root) p.2 :=
  hr.step (leads_node.2 ⟨p.1, hp⟩)

omit h in
/-- What lies in a list of a graph is part of the graph. -/
theorem item {l : Ref .list} (hl : w.Reaches (.node root) (.list l)) {x : Value}
    (hx : x ∈ w.items l) : w.Reaches (.node root) x :=
  hl.step (leads_list.2 hx)

/-- The root is no part of any of its parts. -/
theorem not_root {v : Value} (hv : Relation.TransGen w.Leads (.node root) v) : v ≠ .node root := by
  rintro rfl
  exact h.acyclic _ .refl hv

end Graph

end World

end GuardedWalk
