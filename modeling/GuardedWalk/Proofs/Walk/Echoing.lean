import GuardedWalk.Proofs.Copying.Mirroring

/-!
# Walks over copies

What stands for the objects of a document can be put in their place in all that a walk comes across.
If the copy mirrors the document, a walker that walks over the copy comes across just that. So its
observers are told what they would be told of the document, with copies in the place of nodes, and
guards come to the nodes of the copy and to no others.

## Main definitions

* `GuardedWalk.Agenda.map`, `GuardedWalk.Occasion.map` — what stands for objects in their place.
* `GuardedWalk.Agenda.Concerns` — nothing is announced but values of a kind.
* `GuardedWalk.World.Resembles` — a graph shows what a document did before it was guarded.
* `GuardedWalk.World.WalkedAlike` — walks over a copy tell what walks over the document tell.

## Main results

* `GuardedWalk.Cast.course_map` — what others hear of with copies in the place of objects.
* `GuardedWalk.World.Graph.concerns` — a walk over a document comes across nothing but its parts.
* `GuardedWalk.World.Resembles.fits` — what stands for objects stands for the agenda of a copy.
* `GuardedWalk.Cast.SetsOut.walk_spares` — a walk puts guards on nothing but what is announced.
* `GuardedWalk.World.Mirrors.walkedAlike` — walks over what mirrors a document.
-/

set_option autoImplicit false

namespace GuardedWalk

variable {ε κ : Type} {D D' : Ref .list → Prop} {w₀ w w' w'' : World ε} {root : Ref .node}
  {φ : Value → Value}

/-! ## Copies in the place of objects -/

/-- What stands for a node, as a node. -/
def Ref.mapNode (φ : Value → Value) (r : Ref .node) : Ref .node :=
  match φ (.node r) with
  | .node r' => r'
  | _ => r

/-- A content of a field with copies in the place of objects. -/
def Document.Content.map (φ : Value → Value) : Document.Content → Document.Content
  | value v => value (φ v)
  | list l vs =>
    match φ (.list l) with
    | .list l' => list l' (vs.map φ)
    | _ => list l (vs.map φ)

/-- The source of an announcement with copies in the place of objects. -/
def Source.map (φ : Value → Value) : Source → Source
  | written r c content => written (r.mapNode φ) c fun field => (content field).map φ
  | coded r own => coded r own
  | result => result

namespace Agenda

/-- An agenda with copies in the place of objects. -/
def map (φ : Value → Value) : Agenda κ → Agenda κ
  | done => done
  | ask c rest => ask c (rest.map φ)
  | entry e args source inner rest =>
    entry e (args.map φ) (source.map (Source.map φ)) (inner.map φ) (rest.map φ)

theorem calls_map (φ : Value → Value) (A : Agenda κ) :
    (A.map φ).calls = A.calls.map fun c => (c.1, c.2.map φ) := by
  induction A with
  | done => rfl
  | ask c rest ih => exact ih
  | entry e args source inner rest _ ih => simp [map, calls, ih]

theorem asksNothing_map {A : Agenda κ} (h : A.AsksNothing) : (A.map φ).AsksNothing := by
  induction A with
  | done => trivial
  | ask c rest ih => exact h.elim
  | entry e args source inner rest _ ih => exact ih h

end Agenda

/-- What an observer is told, with copies in the place of objects. -/
def Told.map (φ : Value → Value) : Told → Told
  | before e args => before e (args.map φ)
  | after => after

/-- What others hear of, with copies in the place of objects. -/
def Occasion.map (φ : Value → Value) : Occasion κ → Occasion κ
  | told o n => told o (n.map φ)
  | asked c => asked c
  | guarded v => guarded (φ v)

theorem Cast.round_map (X : Cast) (n : Told) :
    (X.round n : List (Occasion κ)).map (Occasion.map φ) = X.round (n.map φ) := by
  simp [round, Occasion.map, Function.comp_def]

theorem Agenda.occasions_map (X : Cast) (φ : Value → Value) (A : Agenda κ) :
    (A.map φ).occasions X = (A.occasions X).map (Occasion.map φ) := by
  induction A with
  | done => rfl
  | ask c rest ih => simp [map, occasions, ih, Occasion.map]
  | entry e args source inner rest ihInner ih =>
    have hfirst : ((args.map φ).head?.toList.map Occasion.guarded : List (Occasion κ)) =
        (args.head?.toList.map Occasion.guarded).map (Occasion.map φ) := by
      cases args <;> rfl
    simp only [map, occasions, Cast.around, List.map_append, Cast.round_map, ihInner, ih, hfirst,
      Told.map]

theorem Occasion.isCall_map (x : Occasion κ) : (x.map φ).isCall = x.isCall := by
  cases x <;> rfl

theorem Occasion.filter_isCall_map (L : List (Occasion κ)) :
    (L.map (Occasion.map φ)).filter Occasion.isCall =
      (L.filter Occasion.isCall).map (Occasion.map φ) := by
  rw [List.filter_map]
  exact congrArg (List.map (Occasion.map φ)) (List.filter_congr fun x _ => isCall_map x)

/-- Others hear of values of a kind. -/
def Occasion.Concerns (V : Value → Prop) : Occasion κ → Prop
  | told _ (.before _ args) => ∀ v ∈ args, V v
  | told _ .after | asked _ => True
  | guarded v => V v

namespace Agenda

/-- All that is announced is given values of a kind, at any depth. -/
def Concerns (V : Value → Prop) : Agenda κ → Prop
  | done => True
  | ask _ rest => rest.Concerns V
  | entry _ args _ inner rest => (∀ v ∈ args, V v) ∧ inner.Concerns V ∧ rest.Concerns V

/-- Others hear of no other values. -/
theorem Concerns.occasions {V : Value → Prop} {A : Agenda κ} (h : A.Concerns V) (X : Cast) :
    ∀ x ∈ A.occasions X, x.Concerns V := by
  induction A with
  | done => exact fun _ hx => nomatch hx
  | ask c rest ih =>
    rintro x (_ | ⟨_, hx⟩)
    · trivial
    · exact ih h x hx
  | entry e args source inner rest ihInner ih =>
    obtain ⟨hargs, hinner, hrest⟩ := h
    intro x hx
    simp only [Agenda.occasions, Cast.around, Cast.round, List.mem_append, List.mem_map] at hx
    rcases hx with (((⟨v, hv, rfl⟩ | ⟨o, -, rfl⟩) | hx) | ⟨o, -, rfl⟩) | hx
    · exact hargs v (List.mem_of_mem_head? (Option.mem_toList.1 hv))
    · exact hargs
    · exact ihInner hinner x hx
    · trivial
    · exact ih hrest x hx

end Agenda

/-- What is told of copies, if whoever hears of a copy does as if it were the object. -/
theorem Setting.tell_map {Z Z' : Setting ε κ} {P : Occasion κ → Prop}
    (hv : ∀ L, (∀ x ∈ L, P x) → Z'.verdict (L.map (Occasion.map φ)) = Z.verdict L)
    (L told : List (Occasion κ)) (hL : ∀ x ∈ L ++ told, P x) :
    Z'.tell (L.map (Occasion.map φ)) (told.map (Occasion.map φ)) =
      ((Z.tell L told).1.map (Occasion.map φ), (Z.tell L told).2) := by
  induction told generalizing L with
  | nil => rfl
  | cons x rest ih =>
    rw [List.append_cons] at hL
    have hx : Z'.verdict ((L ++ [x]).map (Occasion.map φ)) = Z.verdict (L ++ [x]) :=
      hv _ fun y hy => hL y (List.mem_append_left _ hy)
    have happend : L.map (Occasion.map φ) ++ [x.map φ] = (L ++ [x]).map (Occasion.map φ) := by simp
    have hfails : Z'.fails (L.map (Occasion.map φ)) (x.map φ) = Z.fails L x := by
      simp only [fails, Occasion.isCall_map, happend, hx]
    simp only [List.map_cons, tell, hfails, happend]
    cases Z.fails L x with
    | some f => rfl
    | none => exact ih (L ++ [x]) hL

/-- **What others hear of in a walk over copies** is what they hear of in a walk over the objects,
with copies in their place. -/
theorem Cast.course_map (X : Cast) {A : Agenda κ} {V : Value → Prop} (hA : A.Concerns V)
    {verdict verdict' : List (Occasion κ) → Option Failure}
    (hv : ∀ L : List (Occasion κ), (∀ x ∈ L, x.Concerns V) →
      verdict' (L.map (Occasion.map φ)) = verdict L) :
    X.course (A.map φ) verdict' =
      ((X.course A verdict).1.map (Occasion.map φ), (X.course A verdict).2) := by
  let Z : Setting Unit κ := X.attended (fun _ => True) A (fun _ _ => True) verdict
  let Z' : Setting Unit κ := X.attended (fun _ => True) (A.map φ) (fun _ _ => True) verdict'
  have hverdict (L : List (Occasion κ)) (hL : ∀ x ∈ L, x.Concerns V) :
      Z'.verdict (L.map (Occasion.map φ)) = Z.verdict L :=
    (congrArg verdict' (Occasion.filter_isCall_map L)).trans
      (hv _ fun x hx => hL x (List.mem_filter.1 hx).1)
  have htell : Z'.tell (([] : List (Occasion κ)).map (Occasion.map φ))
      ((A.occasions X).map (Occasion.map φ)) = _ :=
    Setting.tell_map hverdict [] (A.occasions X) (hA.occasions X)
  rw [List.map_nil, ← Agenda.occasions_map] at htell
  by_cases hlate : X.timeout.outlastsTime = true
  · simp [course, Setting.outcome, attended, hlate]
  · have hlate' : X.timeout.outlastsTime = false := by simpa using hlate
    rw [course_of_begins hlate' (fun _ => True) (fun (_ : World Unit) _ => True),
      course_of_begins hlate' (fun _ => True) (fun (_ : World Unit) _ => True), htell,
      Occasion.filter_isCall_map]

/-! ## The agenda of a copy -/

namespace Agenda

theorem isWritten_map {A : Agenda κ} (h : A.IsWritten) : (A.map φ).IsWritten := by
  induction A with
  | done => trivial
  | ask c rest ih => exact h.elim
  | entry e args source inner rest ihInner ih =>
    refine ⟨fun r own hs => ?_, ihInner h.2.1, ih h.2.2⟩
    cases source with
    | none => cases hs
    | some s =>
      cases s with
      | written r' c content => cases hs
      | coded r' own' => exact h.1 r' own' rfl
      | result => cases hs

end Agenda

theorem Ref.mapNode_eq {r r' : Ref .node} (h : φ (.node r) = .node r') : r.mapNode φ = r' := by
  simp [Ref.mapNode, h]

theorem Document.Content.elements_map (c : Document.Content) :
    (c.map φ).elements = c.elements.map φ := by
  cases c with
  | value v => rfl
  | list l vs =>
    simp only [Document.Content.map]
    split <;> rfl

/-- What a node hands on with copies in the place of objects, if nothing comes to be absent or
stops being so. -/
theorem Part.handed_map {content : String → Document.Content} {part : Part}
    (hsingle : ∀ field ∈ part.fields,
      ((content field).map φ).single = φ (content field).single ∧
        (φ (content field).single = .none ↔ (content field).single = .none)) :
    part.handed (fun field => (content field).map φ) =
      (part.handed content).map fun c => (c.1, c.2.map φ) := by
  cases part with
  | each field e => simp [handed, Document.Content.elements_map, Function.comp_def]
  | optional field e =>
    obtain ⟨hs, hnone⟩ := hsingle field (by simp [fields])
    simp only [handed, hs, hnone]
    split <;> rfl
  | always e fields =>
    have hmap : fields.map (fun field => ((content field).map φ).single) =
        (fields.map fun field => (content field).single).map φ := by
      rw [List.map_map]
      exact List.map_congr_left fun field hf => (hsingle field hf).1
    simp [handed, hmap]

/-- What a walker hands on of the result of a step, likewise. -/
theorem resultCalls_map {args : List Value} (hnone : ∀ v ∈ args, φ v = .none ↔ v = .none) :
    resultCalls (args.map φ) = (resultCalls args).map fun c => (c.1, c.2.map φ) := by
  unfold resultCalls
  split
  · rename_i keyword stepMatch argument status exception indent background hargs
    obtain ⟨a₁, a₂, a₃, a₄, a₅, a₆, a₇, rfl⟩ :
        ∃ a₁ a₂ a₃ a₄ a₅ a₆ a₇, args = [a₁, a₂, a₃, a₄, a₅, a₆, a₇] := by
      have hlen : args.length = 7 := by simpa using congrArg List.length hargs
      match args, hlen with
      | [a₁, a₂, a₃, a₄, a₅, a₆, a₇], _ => exact ⟨a₁, a₂, a₃, a₄, a₅, a₆, a₇, rfl⟩
    simp only [List.map_cons, List.map_nil, List.cons.injEq, and_true] at hargs
    obtain ⟨rfl, rfl, rfl, rfl, rfl, rfl, rfl⟩ := hargs
    have h₃ := hnone a₃ (by simp)
    have h₅ := hnone a₅ (by simp)
    simp only [h₃, h₅]
    split <;> split <;> rfl
  · rename_i hne
    split
    · exact (hne _ _ _ _ _ _ _ rfl).elim
    · rfl

theorem mem_of_mem_resultCalls {args : List Value} {c : Event × List Value}
    (hc : c ∈ resultCalls args) {v : Value} (hv : v ∈ c.2) : v ∈ args := by
  unfold resultCalls at hc
  split at hc
  · simp only [List.mem_append, List.mem_singleton] at hc
    rcases hc with (rfl | hc) | hc
    · simp only [List.mem_cons, List.not_mem_nil, or_false] at hv ⊢
      rcases hv with rfl | rfl | rfl | rfl | rfl <;> simp
    · split at hc
      · cases hc
      · obtain rfl := List.mem_singleton.1 hc
        obtain rfl := List.mem_singleton.1 hv
        simp
    · split at hc
      · cases hc
      · obtain rfl := List.mem_singleton.1 hc
        simp only [List.mem_cons, List.not_mem_nil, or_false] at hv ⊢
        rcases hv with rfl | rfl <;> simp
  · cases hc

theorem Attributes.mem_of_get? {a : Attributes} {name : String} {v : Value}
    (h : a.get? name = some v) : (name, v) ∈ a := by
  obtain ⟨l₁, l₂, rfl, -⟩ := List.lookup_eq_some_iff.1 h
  simp

namespace World

/-- A value is part of a document, or plain data. -/
def Within (w : World ε) (root : Ref .node) (v : Value) : Prop :=
  v.isPlain = true ∨ w.Reaches (.node root) v

theorem Within.node {r : Ref .node} (h : w₀.Within root (.node r)) :
    w₀.Reaches (.node root) (.node r) := h.resolve_left nofun

theorem Within.list {l : Ref .list} (h : w₀.Within root (.list l)) :
    w₀.Reaches (.node root) (.list l) := h.resolve_left nofun

namespace Graph

section Within

variable {c : DocumentClass} {r : Ref .node} {content : String → Document.Content} {field : String}

/-- What a field of a node of a document contains is part of the document. -/
theorem within_fieldOf (hc : (w₀.nodes.get r).cls = .document c)
    (hr : w₀.Reaches (.node root) (.node r)) (field : String) :
    w₀.Within root (w₀.fieldOf r field) := by
  rw [Document.fieldOf_eq hc, Attributes.value]
  cases hget : (w₀.carried (.node r)).get? field with
  | none => exact .inl rfl
  | some v => exact .inr (Graph.field hr (Attributes.mem_of_get? hget))

theorem within_content (hc : (w₀.nodes.get r).cls = .document c)
    (hr : w₀.Reaches (.node root) (.node r)) (hk : Document.Keeps D w₀ r field (content field)) :
    w₀.Within root (content field).single ∧ ∀ v ∈ (content field).elements, w₀.Within root v := by
  have hfield := within_fieldOf hc hr field
  cases hcontent : content field with
  | value v =>
    rw [hcontent] at hk
    exact ⟨by rwa [← show w₀.fieldOf r field = v from hk], fun _ hv => nomatch hv⟩
  | list l vs =>
    rw [hcontent] at hk
    obtain ⟨hl, -, hitems⟩ := hk
    rw [hl] at hfield
    refine ⟨hfield, fun v hv => .inr (Graph.item hfield.list ?_)⟩
    rwa [hitems]

theorem within_handed (hc : (w₀.nodes.get r).cls = .document c)
    (hr : w₀.Reaches (.node root) (.node r)) {part : Part} (hk : part.Kept D w₀ r content)
    {p : Event × List Value} (hp : p ∈ part.handed content) {v : Value} (hv : v ∈ p.2) :
    w₀.Within root v := by
  cases part with
  | each field e =>
    obtain ⟨x, hx, rfl⟩ := List.mem_map.1 hp
    obtain rfl := List.mem_singleton.1 hv
    exact (within_content hc hr (hk.keeps field (by simp [Part.fields]))).2 v hx
  | optional field e =>
    simp only [Part.handed] at hp
    split at hp
    · cases hp
    · obtain rfl := List.mem_singleton.1 hp
      obtain rfl := List.mem_singleton.1 hv
      exact (within_content hc hr (hk.keeps field (by simp [Part.fields]))).1
  | always e fields =>
    obtain rfl := List.mem_singleton.1 hp
    obtain ⟨field, hfield, rfl⟩ := List.mem_map.1 hv
    exact (within_content hc hr (hk.keeps field hfield)).1

end Within

/-- No node of a graph has visitors traverse it in a way of its own: all its nodes are of the
classes of documents, and none of them carries an `accept`. -/
theorem not_coded (h₀ : w₀.Graph root) {r : Ref .node} (hr : w₀.Reaches (.node root) (.node r))
    {own : Option (Ref .node)} (hforeign : own = none → ∃ c, (w₀.nodes.get r).cls = .foreign c)
    (hmarked : w₀.Marked r own) : False := by
  have hbare := h₀.unmarked hr Node.acceptField_mem_marks
  obtain ⟨c, hc⟩ := h₀.cls hr
  cases own with
  | none =>
    obtain ⟨_, hcls⟩ := hforeign rfl
    cases hc.symm.trans hcls
  | some n =>
    rcases hmarked.marks with ⟨accept, -⟩ | ⟨x, g, inner, accept, -⟩ <;>
      cases hbare.symm.trans accept

/-- A walk over a document comes across nothing but its parts. By induction on the agenda: what a
node hands on is part of the document if the node is. -/
theorem concerns (h₀ : w₀.Graph root) {strict : Bool} {A : Agenda κ} (hA : A.Fits strict D w₀)
    (hasks : A.AsksNothing) (hcalls : ∀ p ∈ A.calls, ∀ v ∈ p.2, w₀.Within root v) :
    A.Concerns (w₀.Within root) ∧ A.IsWritten := by
  induction A with
  | done => exact ⟨trivial, trivial⟩
  | ask c rest ih => exact hasks.elim
  | entry e args source inner rest ihInner ih =>
    obtain ⟨-, -, hstands, hinner, hrest⟩ := hA
    have hargs : ∀ v ∈ args, w₀.Within root v := hcalls (e, args) (by simp [Agenda.calls])
    have hlater := ih hrest hasks fun p hp => hcalls p (List.mem_cons_of_mem _ hp)
    suffices hin : (inner.Concerns (w₀.Within root) ∧ inner.IsWritten) ∧
        ∀ r own, source ≠ some (.coded r own) from
      ⟨⟨hargs, hin.1.1, hlater.1⟩, hin.2, hin.1.2, hlater.2⟩
    cases hstands with
    | leaf single => exact ⟨⟨trivial, trivial⟩, fun _ _ => by simp⟩
    | @written r c content _ enters given cls marked kept quiet calls =>
      have hr := (hargs (.node r) (by simp [given])).node
      refine ⟨ihInner hinner quiet fun p hp v hv => ?_, fun _ _ => by simp⟩
      rw [calls] at hp
      obtain ⟨part, hpart, hp⟩ := List.mem_flatMap.1 hp
      exact within_handed cls hr (kept part hpart) hp hv
    | @coded r own _ enters given cls marked =>
      have hr := (hargs (.node r) (by simp [given])).node
      exact (h₀.not_coded hr cls marked).elim
    | result event quiet calls =>
      refine ⟨ihInner hinner quiet fun p hp v hv => ?_, fun _ _ => by simp⟩
      rw [calls] at hp
      exact hargs v (mem_of_mem_resultCalls hp hv)

end Graph

theorem get?_unguarded (n : Node) {name : String} (hn : name ∉ Node.marks) :
    n.unguarded.get? name = n.attributes.get? name := by
  have hg : name ≠ Node.guardField := fun h => hn (h ▸ Node.guardField_mem_marks)
  have ha : name ≠ Node.acceptField := fun h => hn (h ▸ Node.acceptField_mem_marks)
  unfold Node.unguarded
  split
  · split <;> simp [Attributes.get?_erase, hg, ha]
  · rfl

/-- A graph shows what a document did before it was guarded, with marks of guards that belong
together. -/
structure Resembles (D : Ref .list → Prop) (w₀ w : World ε) (root : Ref .node)
    (φ : Value → Value) : Prop where
  plain : ∀ v, v.isPlain = true → φ v = v
  node : ∀ r, w₀.Reaches (.node root) (.node r) → ∃ r', φ (.node r) = .node r' ∧
    (w.nodes.get r').cls = (w₀.nodes.get r).cls ∧ w.Marked r' none ∧
    ∀ field ∉ Node.marks, w.fieldOf r' field = φ (w₀.fieldOf r field)
  list : ∀ l, w₀.Reaches (.node root) (.list l) →
    ∃ l', φ (.list l) = .list l' ∧ D l' ∧ w.items l' = (w₀.items l).map φ

/-- A copy that mirrors a document still shows the same later, whatever guards have come to it and
have gone. -/
theorem Mirrors.resembles (h : w₀.Mirrors w' root φ) (h₀ : w₀.Graph root) (hc : Calm D w' w)
    (hmarked : ∀ r r', w₀.Reaches (.node root) (.node r) → φ (.node r) = .node r' →
      w'.Marked r' none)
    (hD : ∀ l l', w₀.Reaches (.node root) (.list l) → φ (.list l) = .list l' → D l') :
    Resembles D w₀ w root φ where
  plain := h.plain
  node r hr := by
    obtain ⟨r', hr', hcls, hattributes⟩ := h.node r hr
    obtain ⟨c, hdocument⟩ := h₀.cls hr
    have hcls' : (w'.nodes.get r').cls = .document c := hcls.trans hdocument
    refine ⟨r', hr', (hc.nodes r').trans hcls, hc.marked r' (hmarked r r' hr hr'),
      fun field hf => ?_⟩
    have hget : (w'.carried (.node r')).get? field = ((w₀.carried (.node r)).get? field).map φ := by
      rw [carried_eq hcls', ← get?_unguarded _ hf, hattributes]
      exact Copying.get?_map φ _ field
    rw [Document.fieldOf_eq ((hc.nodes r').trans hcls'), Document.fieldOf_eq hdocument,
      Attributes.value, Attributes.value, hc.fields r' field hf, hget]
    cases (w₀.carried (.node r)).get? field with
    | none => exact (h.plain _ rfl).symm
    | some v => rfl
  list l hl := by
    obtain ⟨l', hl', hitems⟩ := h.list l hl
    have hDl' := hD l l' hl hl'
    exact ⟨l', hl', hDl', (hc.lists l' hDl').trans hitems⟩

namespace Resembles

variable (h : Resembles D' w₀ w root φ) (h₀ : w₀.Graph root)
include h h₀

/-- What stands for the parts of a document: plain data for themselves, nodes of the same classes,
and lists. -/
theorem cases_within {v : Value} (hv : w₀.Within root v) :
    (v.isPlain = true ∧ φ v = v) ∨
      (∃ r r' c, v = .node r ∧ φ v = .node r' ∧ (w.nodes.get r').cls = .document c) ∨
      ∃ l l', v = .list l ∧ φ v = .list l' := by
  rcases hv with hplain | hv
  · exact .inl ⟨hplain, h.plain v hplain⟩
  · cases h₀.constitutes v hv with
    | plain hplain => exact .inl ⟨hplain, h.plain v hplain⟩
    | @node r c cls =>
      obtain ⟨r', hr', hcls, -⟩ := h.node r hv
      exact .inr (.inl ⟨r, r', c, rfl, hr', hcls.trans cls⟩)
    | list l =>
      obtain ⟨l', hl', -⟩ := h.list l hv
      exact .inr (.inr ⟨l, l', rfl, hl'⟩)

theorem none_iff {v : Value} (hv : w₀.Within root v) : φ v = .none ↔ v = .none := by
  rcases h.cases_within h₀ hv with ⟨-, hφ⟩ | ⟨r, r', c, rfl, hφ, -⟩ | ⟨l, l', rfl, hφ⟩ <;> simp [hφ]

/-- Guards may be put on whatever stands for a part of a document. -/
theorem plain_within {v : Value} (hv : w₀.Within root v) : w.Plain (φ v) := by
  intro r hr
  rcases h.cases_within h₀ hv with ⟨hplain, hφ⟩ | ⟨-, r', c, -, hφ, hcls⟩ | ⟨l, l', -, hφ⟩
  · rw [← hφ, hr] at hplain
    cases hplain
  · obtain rfl := Value.node.inj (hφ.symm.trans hr)
    exact ⟨c, hcls⟩
  · rw [hφ] at hr
    cases hr

/-- What stands for a node contains what stands for its contents. -/
theorem keeps {r : Ref .node} (hr : w₀.Reaches (.node root) (.node r)) {field : String}
    (hfield : field ∉ Node.marks) {c : Document.Content} (hk : Document.Keeps D w₀ r field c) :
    Document.Keeps D' w (r.mapNode φ) field (c.map φ) ∧ (c.map φ).single = φ c.single := by
  obtain ⟨r', hr', -, -, hfields⟩ := h.node r hr
  rw [Ref.mapNode_eq hr']
  obtain ⟨cls, hcls⟩ := h₀.cls hr
  cases c with
  | value v => exact ⟨(hfields field hfield).trans (congrArg φ hk), rfl⟩
  | list l vs =>
    obtain ⟨hl, -, rfl⟩ := hk
    have hreach := Graph.within_fieldOf hcls hr field
    rw [hl] at hreach
    obtain ⟨l', hl', hD, hitems⟩ := h.list l hreach.list
    have hmap : (Document.Content.list l (w₀.items l)).map φ = .list l' ((w₀.items l).map φ) := by
      simp [Document.Content.map, hl']
    rw [hmap]
    exact ⟨⟨(hfields field hfield).trans (by rw [hl, hl']), hD, hitems⟩, hl'.symm⟩

theorem kept {r : Ref .node} (hr : w₀.Reaches (.node root) (.node r)) {c : DocumentClass}
    (hc : (w₀.nodes.get r).cls = .document c) {part : Part} (hpart : part ∈ c.parts)
    {content : String → Document.Content} (hk : part.Kept D w₀ r content) :
    part.Kept D' w (r.mapNode φ) (fun field => (content field).map φ) ∧
      part.handed (fun field => (content field).map φ) =
        (part.handed content).map fun p => (p.1, p.2.map φ) := by
  have hkeeps field (hf : field ∈ part.fields) :=
    h.keeps h₀ hr (Agenda.field_not_mem_marks hpart hf) (hk.keeps field hf)
  refine ⟨⟨fun field hf => (hkeeps field hf).1, fun field e he => ?_⟩,
    Part.handed_map fun field hf => ⟨(hkeeps field hf).2, h.none_iff h₀ ?_⟩⟩
  · obtain ⟨l, vs, hl⟩ := hk.list field e he
    simp only [hl, Document.Content.map]
    split <;> exact ⟨_, _, rfl⟩
  · exact (Graph.within_content hc hr (hk.keeps field hf)).1

/-- **What stands for the objects of a document** stands for its agenda with them in the place of
the objects. -/
theorem fits {A : Agenda κ} (hA : A.Fits false D w₀) (hwithin : A.Concerns (w₀.Within root))
    (hwritten : A.IsWritten) : (A.map φ).Fits false D' w := by
  induction A with
  | done => trivial
  | ask c rest ih => exact hwritten.elim
  | entry e args source inner rest ihInner ih =>
    obtain ⟨hlen, -, hstands, hinner, hrest⟩ := hA
    obtain ⟨hargs, hconcerns, hlater⟩ := hwithin
    refine ⟨(List.length_map ..).trans hlen, fun v hv => ?_, ?_,
      ihInner hinner hconcerns hwritten.2.1, ih hrest hlater hwritten.2.2⟩
    · cases args with
      | nil => cases hv
      | cons x rest =>
        obtain rfl : φ x = v := Option.some.inj hv
        exact (h.plain_within h₀ (hargs x (by simp))).guardable _
    · cases hstands with
      | leaf single => exact .leaf single
      | @written r c content _ enters given cls marked kept quiet calls =>
        have hr := (hargs (.node r) (by simp [given])).node
        obtain ⟨r', hr', hcls, hmarked, -⟩ := h.node r hr
        have hparts part (hpart : part ∈ c.parts) := h.kept h₀ hr cls hpart (kept part hpart)
        have hnode := Ref.mapNode_eq hr'
        refine .written enters (by simp [given, hr', hnode]) (by rw [hnode, hcls, cls])
          (by rwa [hnode]) (fun part hpart => (hparts part hpart).1)
          (Agenda.asksNothing_map quiet) ?_
        rw [Agenda.calls_map, calls, List.map_flatMap]
        exact congrArg List.flatten
          (List.map_congr_left fun part hpart => (hparts part hpart).2.symm)
      | coded => exact (hwritten.1 _ _ rfl).elim
      | result event quiet calls =>
        refine .result event (Agenda.asksNothing_map quiet) ?_
        rw [Agenda.calls_map, calls, resultCalls_map fun v hv => h.none_iff h₀ (hargs v hv)]

end Resembles

/-! ## Walks over copies -/

end World

open World (Calm Resembles)

namespace Agenda

theorem map_id (A : Agenda κ) : A.map id = A := by
  have hcontent (c : Document.Content) : c.map id = c := by cases c <;> simp [Document.Content.map]
  have hsource (s : Source) : s.map id = s := by
    cases s <;> simp [Source.map, Ref.mapNode, hcontent]
  induction A with
  | done => rfl
  | ask c rest ih => rw [map, ih]
  | entry e args source inner rest ihInner ih =>
    have hs : source.map (Source.map id) = source := by cases source <;> simp [hsource]
    rw [map, ihInner, ih, hs, List.map_id]

end Agenda

/-- No more is told than what is to be told. -/
theorem Setting.mem_of_mem_tell {Z : Setting ε κ} {L told : List (Occasion κ)} {x : Occasion κ}
    (hx : x ∈ (Z.tell L told).1) : x ∈ L ++ told := by
  induction told generalizing L with
  | nil => simpa [tell] using hx
  | cons y rest ih =>
    rw [List.append_cons]
    rw [tell] at hx
    cases hf : Z.fails L y with
    | some f =>
      rw [hf] at hx
      exact List.mem_append_left _ hx
    | none =>
      rw [hf] at hx
      exact ih hx

/-- **A walk that others attend to takes its course, and puts guards on nothing but what is
announced**: all other nodes are left alone. -/
theorem Cast.SetsOut.walk_spares {F : Foreign ε κ} {X : Cast} {e : Event} {args : List Value}
    {A : Agenda κ} {verdict : List (Occasion κ) → Option Failure} {S : Surroundings ε κ}
    (h : X.SetsOut F D e args A w) (hS : X.Attended F D verdict S) :
    ∃ (o : Outcome) (σ : Moment ε κ),
      S.Runs (Walk.send (.walker X.walker) (.entry e) args) (.start w) o σ ∧
      X.occasions σ.calls = (X.course A verdict).1 ∧ failure? o = (X.course A verdict).2 ∧
      ∀ r, .guarded (.node r) ∉ A.occasions X → σ.world.own? (.node r) = w.own? (.node r) := by
  let spared (w' : World ε) (L : List (Occasion κ)) : Prop :=
    ∀ r, .guarded (.node r) ∉ L → w'.own? (.node r) = w.own? (.node r)
  have hnodes {w' w'' : World ε} {L : List (Occasion κ)} (hn : w''.nodes = w'.nodes)
      (hi : spared w' L) : spared w'' L :=
    fun r hr => (World.own?_of_nodes hn r).trans (hi r hr)
  have hmore {w' : World ε} {L : List (Occasion κ)} (x : Occasion κ) (hi : spared w' L) :
      spared w' (L ++ [x]) :=
    fun r hr => hi r fun hmem => hr (List.mem_append_left _ hmem)
  have hZ : (X.attended D A spared verdict).Hosts F S :=
    hS.hosts h.coded (fun _ _ _ hw hi => hnodes hw.sameNodes hi) (fun _ _ x _ hi => hmore x hi)
      (fun _ _ _ hw hi => hnodes hw.sameNodes hi) fun _ _ _ w' L v _ hv hi r hr =>
        (World.own?_install_of_ne F.obstruct hv X.guard fun hvr =>
          hr (List.mem_append_right _ (by simp [hvr]))).trans (hmore _ hi r hr)
  obtain ⟨source, inner, hwhole⟩ := h.whole
  obtain ⟨o, σ, hruns, -, hg, ho⟩ := hZ.walk (fun _ _ _ hw hi => hnodes hw.sameNodes hi)
    h.announces hwhole (h.going fun _ _ => rfl)
  refine ⟨o, σ, hruns, ?_, ?_, fun r hr => hg.inv r fun hmem => hr ?_⟩
  · rw [course_eq D spared]
    exact hg.heard
  · rw [course_eq D spared]
    exact ho
  · rw [Setting.outcome] at hmem
    split at hmem
    · cases hmem
    · exact Setting.mem_of_mem_tell hmem

/-- Walks over what stands for a document tell what walks over the document tell, with what stands
for its objects in their place, if whoever is told of a copy does as if it were the object. They
leave some nodes alone. -/
def World.WalkedAlike (F : Foreign ε κ) (w₀ w : World ε) (root : Ref .node) (φ : Value → Value)
    (spared : Ref .node → Prop) : Prop :=
  ∀ (X : Cast) (D : Ref .list → Prop) (e : Event) (source : Option Source) (inner : Agenda κ)
    (verdict verdict' : List (Occasion κ) → Option Failure) (S S' : Surroundings ε κ)
    (u u' : World ε), e ≠ .announce →
    (Agenda.entry e [.node root] source inner .done).Fits false D w₀ →
    (∀ l, w₀.Reaches (.node root) (.list l) → D l ∧ ∀ l', φ (.list l) = .list l' → D l') →
    Calm D w u → X.Assembled u → Held u X .idle → X.Attended F D verdict S →
    Calm D w u' → X.Assembled u' → Held u' X .idle → X.Attended F D verdict' S' →
    (∀ L : List (Occasion κ), (∀ x ∈ L, x.Concerns (w₀.Within root)) →
      verdict' (L.map (Occasion.map φ)) = verdict L) →
    ∃ (o o' : Outcome) (σ σ' : Moment ε κ),
      S.Runs (Walk.send (.walker X.walker) (.entry e) [.node root]) (.start u) o σ ∧
      S'.Runs (Walk.send (.walker X.walker) (.entry e) [φ (.node root)]) (.start u') o' σ' ∧
      X.occasions σ'.calls = (X.occasions σ.calls).map (Occasion.map φ) ∧
      failure? o' = failure? o ∧
      ∀ r, spared r → σ'.world.own? (.node r) = u'.own? (.node r)

/-- **Walks over what mirrors a document tell what walks over the document tell**, and leave all
nodes alone that stand for nothing in the document. -/
theorem World.Mirrors.walkedAlike (h : w₀.Mirrors w root φ) (hid : w₀.Mirrors w root id)
    (h₀ : w₀.Graph root)
    (hmarked : ∀ r r', w₀.Reaches (.node root) (.node r) → φ (.node r) = .node r' →
      w.Marked r' none)
    (hmarkedId : ∀ r, w₀.Reaches (.node root) (.node r) → w.Marked r none)
    {spared : Ref .node → Prop}
    (hspared : ∀ r, spared r → ∀ v, w₀.Reaches (.node root) v → φ v ≠ .node r) (F : Foreign ε κ) :
    WalkedAlike F w₀ w root φ spared := by
  intro X D e source inner verdict verdict' S S' u u' he hA hD hu hX hidle hS hu' hX' hidle' hS' hv
  have hwithin : ∀ p ∈ (Agenda.entry e [.node root] source inner .done).calls,
      ∀ v ∈ p.2, w₀.Within root v := by
    intro p hp v hv
    obtain rfl := List.mem_singleton.1 hp
    obtain rfl := List.mem_singleton.1 hv
    exact .inr .refl
  obtain ⟨hconcerns, hwritten⟩ := h₀.concerns hA trivial hwithin
  have horiginal : Resembles D w₀ u root id :=
    hid.resembles h₀ hu (fun r r' hr hrr => by cases hrr; exact hmarkedId r hr)
      fun l l' hl hll => by cases hll; exact (hD l hl).1
  have hcopy : Resembles D w₀ u' root φ :=
    h.resembles h₀ hu' hmarked fun l l' hl => (hD l hl).2 l'
  have hfits := horiginal.fits h₀ hA hconcerns hwritten
  rw [Agenda.map_id] at hfits
  have ready : X.SetsOut F D e [.node root] (.entry e [.node root] source inner .done) u :=
    ⟨hX, hidle, he, ⟨source, inner, rfl⟩, hfits, hwritten.coded F _ _⟩
  have ready' : X.SetsOut F D e [φ (.node root)]
      ((Agenda.entry e [.node root] source inner .done).map φ) u' :=
    ⟨hX', hidle', he, ⟨_, _, rfl⟩, hcopy.fits h₀ hA hconcerns hwritten,
      (Agenda.isWritten_map hwritten).coded F _ _⟩
  obtain ⟨o, σ, hruns, hheard, ho, -⟩ := ready.walk_spares hS
  obtain ⟨o', σ', hruns', hheard', ho', hspares⟩ := ready'.walk_spares hS'
  have hcourse := X.course_map hconcerns hv
  refine ⟨o, o', σ, σ', hruns, hruns', ?_, ?_, fun r hr => hspares r fun hmem => ?_⟩
  · rw [hheard, hheard', hcourse]
  · rw [ho, ho', hcourse]
  · rw [Agenda.occasions_map] at hmem
    obtain ⟨x, hx, hxr⟩ := List.mem_map.1 hmem
    cases x with
    | told o n => cases hxr
    | asked c => cases hxr
    | guarded v =>
      have hvr : φ v = .node r := Occasion.guarded.inj hxr
      rcases hconcerns.occasions X _ hx with hplain | hreach
      · rw [h.plain v hplain] at hvr
        simp [hvr, Value.isPlain] at hplain
      · exact hspared r hr v hreach hvr

end GuardedWalk
