import GuardedWalk.Proofs.Walk.Transparency
import GuardedWalk.Proofs.Walk.Unguarding

/-!
# What a walk leaves behind

A walk puts the guard of its walker on what observers are about to be told of. That is all that it
leaves behind: nodes that nobody has been told of are as they were, nodes that somebody has been
told of are as they were but for the guard, and no list has changed. It makes no difference whether
the walk comes to its end or is cut short.

## Main definitions

* `GuardedWalk.Cast.Presents` — what observers are about to be told of in a walk.
* `GuardedWalk.World.Dressable` — a node on which guards can be put.
* `GuardedWalk.World.Claimed` — a node to which a guard has come.
* `GuardedWalk.World.Footprint` — what a walk has left behind so far.

## Main results

* `GuardedWalk.Cast.presents_iff_told` — observers are told of what they were about to be told of.
* `GuardedWalk.World.Footprint.install` — what a walk leaves behind with a step to another node.
* `GuardedWalk.Cast.walk_leaves_guards` — what a walk leaves behind.
-/

set_option autoImplicit false

namespace GuardedWalk

variable {ε κ : Type}

/-! ## What is told up to the first failure -/

namespace Setting

variable {Z : Setting ε κ} {P : List (Occasion κ) → Prop} {T T' : List (Occasion κ)}

/-- What holds of the occasions so far still holds when more is told, up to the first failure. -/
def Sustains (Z : Setting ε κ) (P : List (Occasion κ) → Prop) (T : List (Occasion κ)) : Prop :=
  ∀ L, P L → P (Z.tell L T).1

theorem Sustains.append (h : Z.Sustains P T) (h' : Z.Sustains P T') : Z.Sustains P (T ++ T') := by
  intro L hL
  have hfirst := h L hL
  rw [tell_append]
  generalize Z.tell L T = told at hfirst ⊢
  obtain ⟨L', o⟩ := told
  cases o with
  | none => exact h' L' hfirst
  | some f => exact hfirst

/-- If nothing fails, everything has been told. -/
theorem tell_of_none {L : List (Occasion κ)} (h : (Z.tell L T).2 = none) :
    (Z.tell L T).1 = L ++ T := by
  induction T generalizing L with
  | nil => simp [tell]
  | cons x rest ih =>
    rw [tell] at h ⊢
    cases hx : Z.fails L x with
    | some f => simp [hx] at h
    | none =>
      simp only [hx] at h ⊢
      rw [ih h, List.append_assoc, List.singleton_append]

end Setting

/-! ## What observers are told of -/

namespace Occasion

/-- Some observer is told of a value: an event begins that is about it. -/
def Tells (L : List (Occasion κ)) (v : Value) : Prop :=
  ∃ o e args, told o (.before e (v :: args)) ∈ L

theorem Tells.mono {L L' : List (Occasion κ)} {v : Value} (h : Tells L v) (hL : L ⊆ L') :
    Tells L' v := by
  obtain ⟨o, e, args, hmem⟩ := h
  exact ⟨o, e, args, hL hmem⟩

/-- Guards have been put on what observers have been told of, and on nothing else. -/
def Matched (L : List (Occasion κ)) : Prop := ∀ v, guarded v ∈ L ↔ Tells L v

/-- An occasion brings nothing new: no guard is put on a value, and no observer is told of a value
that does not have one. -/
def Stale (L : List (Occasion κ)) : Occasion κ → Prop
  | told _ (.before _ (v :: _)) => guarded v ∈ L
  | guarded _ => False
  | _ => True

theorem Stale.mono {L L' : List (Occasion κ)} {x : Occasion κ} (h : Stale L x) (hL : L ⊆ L') :
    Stale L' x := by
  cases x with
  | told o n =>
    cases n with
    | before e args =>
      cases args with
      | nil => trivial
      | cons v rest => exact hL h
    | after => trivial
  | asked c => trivial
  | guarded v => exact h.elim

theorem Matched.stale {L : List (Occasion κ)} (h : Matched L) {x : Occasion κ} (hx : Stale L x) :
    Matched (L ++ [x]) := by
  intro v
  constructor
  · intro hv
    rcases List.mem_append.1 hv with hv | hv
    · exact ((h v).1 hv).mono (List.subset_append_left L [x])
    · obtain rfl := List.mem_singleton.1 hv
      exact hx.elim
  · rintro ⟨o, e, args, hmem⟩
    rcases List.mem_append.1 hmem with hmem | hmem
    · exact List.mem_append_left _ ((h v).2 ⟨o, e, args, hmem⟩)
    · obtain rfl := List.mem_singleton.1 hmem
      exact List.mem_append_left _ hx

end Occasion

namespace Setting

open Occasion (Matched Stale)

variable {Z : Setting ε κ} {L T : List (Occasion κ)}

/-- Occasions that bring nothing new. -/
theorem matched_tell (h : Matched L) (hT : ∀ x ∈ T, Stale L x) : Matched (Z.tell L T).1 := by
  induction T generalizing L with
  | nil => exact h
  | cons x rest ih =>
    have hx := h.stale (hT x List.mem_cons_self)
    rw [tell]
    cases Z.fails L x with
    | some f => exact hx
    | none =>
      exact ih hx fun y hy =>
        (hT y (List.mem_cons_of_mem _ hy)).mono (List.subset_append_left L [x])

/-- A guard is put on a value and an observer is told of it. Neither of these alone leaves guards
and callbacks in step; together they do. -/
theorem matched_both (h : Matched L) (o : Ref .observer) (e : Event) (v : Value)
    (args : List Value) :
    Matched (L ++ [.guarded v] ++ [.told o (.before e (v :: args))]) := by
  intro u
  constructor
  · intro hu
    rcases List.mem_append.1 hu with hu | hu
    · rcases List.mem_append.1 hu with hu | hu
      · exact ((h u).1 hu).mono (by simp)
      · obtain rfl := Occasion.guarded.inj (List.mem_singleton.1 hu)
        exact ⟨o, e, args, by simp⟩
    · exact absurd (List.mem_singleton.1 hu) (by simp)
  · rintro ⟨o', e', args', hmem⟩
    rcases List.mem_append.1 hmem with hmem | hmem
    · have hold : Occasion.told o' (.before e' (u :: args')) ∈ L := by simpa using hmem
      simp [(h u).2 ⟨o', e', args', hold⟩]
    · simp only [List.mem_singleton, Occasion.told.injEq, Told.before.injEq, List.cons.injEq]
        at hmem
      simp [hmem.2.2.1]

/-- All observers are told of a value after a guard has been put on it. -/
theorem sustains_begin {X : Cast} (hX : X.observers ≠ []) (e : Event) (args : List Value) :
    Z.Sustains Matched (args.head?.toList.map .guarded ++ X.round (.before e args)) := by
  intro L hL
  cases args with
  | nil =>
    refine matched_tell hL fun x hx => ?_
    obtain ⟨o, -, rfl⟩ := List.mem_map.1 hx
    trivial
  | cons v args =>
    obtain ⟨o, others, hothers⟩ := List.exists_cons_of_ne_nil hX
    have hboth := matched_both hL o e v args
    show Matched (Z.tell L (.guarded v :: X.round (.before e (v :: args)))).1
    simp only [Cast.round, hothers, List.map_cons, tell,
      show Z.fails L (.guarded v) = none from rfl]
    cases Z.fails (L ++ [.guarded v]) (.told o (.before e (v :: args))) with
    | some f => exact hboth
    | none =>
      refine matched_tell hboth fun x hx => ?_
      obtain ⟨o', -, rfl⟩ := List.mem_map.1 hx
      simp [Stale]

/-- **In a walk guards are put on what observers are told of, and on nothing else**, up to the first
failure. -/
theorem sustains_occasions {X : Cast} (hX : X.observers ≠ []) (A : Agenda κ) :
    Z.Sustains Matched (A.occasions X) := by
  induction A with
  | done => exact fun L hL => hL
  | ask c rest ih =>
    have hone : Z.Sustains Matched [.asked c] := fun L hL =>
      matched_tell hL fun x hx => by
        obtain rfl := List.mem_singleton.1 hx
        trivial
    exact hone.append ih
  | entry e args source inner rest ihInner ih =>
    have hend : Z.Sustains Matched (X.round .after) := fun L hL =>
      matched_tell hL fun x hx => by
        obtain ⟨o, -, rfl⟩ := List.mem_map.1 hx
        trivial
    exact (((sustains_begin hX e args).append ihInner).append hend).append ih

end Setting

/-- A guard is put on what is handed out, and on nothing else. -/
theorem Agenda.guarded_mem_occasions {X : Cast} {v : Value} {A : Agenda κ} :
    .guarded v ∈ A.occasions X ↔ A.Hands v := by
  refine ⟨fun h => ?_, fun h => h.guarded X⟩
  induction A with
  | done => cases h
  | ask c rest ih => exact ih (by simpa [occasions] using h)
  | entry e args source inner rest ihInner ih =>
    simp only [occasions, Cast.around, Cast.round, List.mem_append, List.mem_map, Option.mem_toList,
      reduceCtorEq, and_false, exists_false, or_false, Occasion.guarded.injEq,
      exists_eq_right] at h
    rcases h with (h | h) | h
    · exact .inl h
    · exact .inr (.inl (ihInner h))
    · exact .inr (.inr (ih h))

namespace Cast

variable {X : Cast} {A : Agenda κ} {verdict : List (Occasion κ) → Option Failure} {v : Value}

/-- The occasions of a walk, those included on which nobody is called, and how the walk fails if it
does. -/
def steps (X : Cast) (A : Agenda κ) (verdict : List (Occasion κ) → Option Failure) :
    List (Occasion κ) × Option Failure :=
  (X.attended (fun _ => True) A (fun (_ : World Unit) _ => True) verdict).outcome []

/-- What observers are about to be told of in a walk until it ends or fails. -/
def Presents (X : Cast) (A : Agenda κ) (verdict : List (Occasion κ) → Option Failure)
    (v : Value) : Prop := .guarded v ∈ (X.steps A verdict).1

theorem steps_eq (D : Ref .list → Prop) (inv : World ε → List (Occasion κ) → Prop) :
    X.steps A verdict = (X.attended D A inv verdict).outcome [] := by
  have htell : ∀ L told,
      (X.attended (fun _ => True) A (fun (_ : World Unit) _ => True) verdict).tell L told =
        (X.attended D A inv verdict).tell L told :=
    Setting.tell_congr (Z := X.attended D A inv verdict) rfl
  simp only [steps, Setting.outcome, htell]
  rfl

/-- **What a walk presents is what its observers are told of**, if there are any. -/
theorem presents_iff_told (hX : X.observers ≠ []) :
    X.Presents A verdict v ↔ Occasion.Tells (X.course A verdict).1 v := by
  have hmatched : Occasion.Matched (X.steps A verdict).1 := by
    unfold steps Setting.outcome
    split
    · exact fun v => ⟨fun h => absurd h (by simp), fun ⟨_, _, _, h⟩ => absurd h (by simp)⟩
    · refine Setting.sustains_occasions hX A [] fun v => ?_
      exact ⟨fun h => absurd h (by simp), fun ⟨_, _, _, h⟩ => absurd h (by simp)⟩
  have hcalls :
      Occasion.Tells (X.course A verdict).1 v ↔ Occasion.Tells (X.steps A verdict).1 v := by
    simp [Occasion.Tells, course, steps, Occasion.isCall, Occasion.call?]
  exact (hmatched v).trans hcalls.symm

/-- A walk that does not fail takes all the steps that are on its agenda. -/
theorem steps_of_complete (h : (X.course A verdict).2 = none) :
    (X.steps A verdict).1 = A.occasions X := by
  have hnone : (X.steps A verdict).2 = none := h
  unfold steps Setting.outcome at hnone ⊢
  split at hnone
  · cases hnone
  · rename_i hbegins
    rw [if_neg hbegins, Setting.tell_of_none hnone]
    rfl

/-- A walk that does not fail presents all that is handed out on its agenda. -/
theorem presents_iff_hands (h : (X.course A verdict).2 = none) :
    X.Presents A verdict v ↔ A.Hands v := by
  rw [Presents, steps_of_complete h, Agenda.guarded_mem_occasions]

end Cast

/-! ## What a guard makes of a node -/

namespace Attributes

/-- The attributes of a node to which a guard has come: one that has a guard keeps its wrapper. -/
def claimed (a : Attributes) (x : Ref .wrapper) (g : Ref .guard) : Attributes :=
  if a.has Node.guardField then a.set Node.guardField (.guard g) else a.guarded x g

variable {a : Attributes} {x : Ref .wrapper} {g : Ref .guard}

theorem get?_tag_claimed : (a.claimed x g).get? Node.guardField = some (.guard g) := by
  unfold claimed
  split
  · rw [get?_set, if_pos rfl]
  · rw [guarded, get?_set, if_pos rfl]

theorem get?_claimed {name : String} (hn : name ∉ Node.marks) :
    (a.claimed x g).get? name = a.get? name := by
  simp only [Node.marks, List.mem_cons, List.not_mem_nil, or_false, not_or] at hn
  unfold claimed
  split
  · rw [get?_set, if_neg hn.2]
  · rw [guarded, get?_set, if_neg hn.2, get?_set, if_neg hn.1]

theorem get?_accept_claimed : (a.claimed x g).get? Node.acceptField =
    if a.has Node.guardField then a.get? Node.acceptField else some (.wrapper x) := by
  unfold claimed
  split
  · rw [get?_set, if_neg (by decide)]
  · exact get?_accept_guarded

/-- A guard that comes to a node again changes nothing. -/
theorem set_claimed : (a.claimed x g).set Node.guardField (.guard g) = a.claimed x g := by
  unfold claimed
  split
  · rw [set_set]
  · rw [set_guarded]

end Attributes

namespace World

variable {w₀ w w' : World ε} {g : Ref .guard} {r : Ref .node} {D : Ref .list → Prop} {X : Cast}
  {L : List (Occasion κ)}

/-- Guards can be put on a node: it carries attributes and shows something callable as its
`accept`. -/
structure Dressable (w : World ε) (r : Ref .node) : Prop where
  carries : (w.own? (.node r)).isSome
  callable : ∃ m, w.member (.node r) Node.acceptField = .ok m ∧ m.isCallable = true

/-- A node of a document can be given a guard. -/
theorem Dressable.of_stored {d : Document} (h : d.Stored D w) : w.Dressable d.ref where
  carries := by simp [own?, h.cls, NodeClass.hasAttributes]
  callable := h.marked.isCallable

/-- A node of the same class that carries the same `accept` shows the same. -/
theorem member_accept_congr (hcls : (w.nodes.get r).cls = (w₀.nodes.get r).cls)
    (haccept : (w.carried (.node r)).get? Node.acceptField =
      (w₀.carried (.node r)).get? Node.acceptField) :
    w.member (.node r) Node.acceptField = w₀.member (.node r) Node.acceptField := by
  rw [carried, carried] at haccept
  rw [member_of_getter_none rfl, member_of_getter_none rfl]
  simp only [memberHere, haccept, classMember?_of_cls hcls, lackingName, typeName, hcls]

/-- A guard has come to a node, and has left the rest of the node alone. -/
def Claimed (w₀ w : World ε) (g : Ref .guard) (r : Ref .node) : Prop :=
  ∃ a x, w₀.own? (.node r) = some a ∧ w.own? (.node r) = some (a.claimed x g)

namespace Claimed

variable (h : Claimed w₀ w g r)

include h

theorem tag : w.tag? (.node r) = some (.guard g) := by
  obtain ⟨a, x, -, hown⟩ := h
  simp [tag?, hown, Attributes.get?_tag_claimed]

/-- The node wears the wrapper that it had, or a new one if it had none. -/
theorem wrapper : if w₀.isGuarded (.node r)
    then (w.carried (.node r)).get? Node.acceptField = (w₀.carried (.node r)).get? Node.acceptField
    else ∃ x, (w.carried (.node r)).get? Node.acceptField = some (.wrapper x) := by
  obtain ⟨a, x, hfirst, hown⟩ := h
  simp only [carried, hown, hfirst, Option.getD_some, isGuarded_eq hfirst,
    Attributes.get?_accept_claimed]
  split
  · rfl
  · exact ⟨x, rfl⟩

/-- Guards can still be put on the node. -/
theorem dressable (hd : w₀.Dressable r) (hcls : (w.nodes.get r).cls = (w₀.nodes.get r).cls) :
    w.Dressable r := by
  refine ⟨?_, ?_⟩
  · obtain ⟨a, x, -, hown⟩ := h
    simp [hown]
  · have hwrapper := h.wrapper
    split at hwrapper
    · rw [member_accept_congr hcls hwrapper]
      exact hd.callable
    · obtain ⟨x, hx⟩ := hwrapper
      exact ⟨.value (.wrapper x), member_of_carried rfl hx, rfl⟩

/-- The guard comes to the node again. -/
theorem again (hd : w₀.Dressable r) (hcls : (w.nodes.get r).cls = (w₀.nodes.get r).cls)
    (hv : w.Open (.node r)) (obstruct : Obstruction ε) :
    Claimed w₀ (World.install obstruct w g (.node r)).2 g r := by
  obtain ⟨m, hm, hc⟩ := (h.dressable hd hcls).callable
  obtain ⟨a, x, hfirst, hown⟩ := h
  have hagain := install_own obstruct hv hm hc hown g
  have htag : (a.claimed x g).has Node.guardField = true := by
    simp [Attributes.has, Attributes.get?_tag_claimed]
  rw [htag, if_pos rfl, Attributes.set_claimed] at hagain
  exact ⟨a, x, hfirst, hagain⟩

end Claimed

/-- What a walk has left behind so far: guards on what it has presented, and nothing else. -/
structure Footprint (X : Cast) (D : Ref .list → Prop) (w₀ w : World ε)
    (L : List (Occasion κ)) : Prop where
  cls : ∀ r, (w.nodes.get r).cls = (w₀.nodes.get r).cls
  lists : ∀ l : Ref .list, D l → w.items l = w₀.items l
  claims : ∀ r, .guarded (.node r) ∈ L → w₀.Dressable r → Claimed w₀ w X.guard r
  spares : ∀ r, ¬ (.guarded (.node r) ∈ L ∧ w₀.Dressable r) → w.own? (.node r) = w₀.own? (.node r)

namespace Footprint

theorem start (X : Cast) (D : Ref .list → Prop) (w : World ε) :
    Footprint X D w w ([] : List (Occasion κ)) :=
  ⟨fun _ => rfl, fun _ _ => rfl, by simp, fun _ _ => rfl⟩

/-- Whatever leaves nodes and lists alone leaves the footprint as it is. -/
theorem of_nodes (h : Footprint X D w₀ w L) (hnodes : w'.nodes = w.nodes)
    (hlists : ∀ l : Ref .list, D l → w'.items l = w.items l) : Footprint X D w₀ w' L where
  cls r := by rw [hnodes, h.cls]
  lists l hl := (hlists l hl).trans (h.lists l hl)
  claims r hr hd := by
    obtain ⟨a, x, hfirst, hown⟩ := h.claims r hr hd
    exact ⟨a, x, hfirst, (own?_of_nodes hnodes r).trans hown⟩
  spares r hr := (own?_of_nodes hnodes r).trans (h.spares r hr)

/-- Observers are told something, or others are asked something. -/
theorem call (h : Footprint X D w₀ w L) {x : Occasion κ} (hx : x.isCall = true) :
    Footprint X D w₀ w (L ++ [x]) := by
  have hmem : ∀ r : Ref .node, .guarded (.node r) ∈ L ++ [x] ↔ .guarded (.node r) ∈ L := by
    intro r
    have hne : .guarded (.node r) ≠ x := by
      rintro rfl
      cases hx
    simp [hne]
  refine ⟨h.cls, h.lists, fun r hr => h.claims r ((hmem r).1 hr), fun r hr => h.spares r ?_⟩
  rwa [hmem r] at hr

/-- What guards cannot be put on is left as it is. -/
theorem own?_install_of_not (hv : w.Open (.node r)) (hd : ¬ w.Dressable r)
    (obstruct : Obstruction ε) (g : Ref .guard) :
    (World.install obstruct w g (.node r)).2.own? (.node r) = w.own? (.node r) := by
  rcases install_cases obstruct hv g with ⟨hrun, -⟩ | ⟨m, b, w', hm, hc, hrun, hstill, hothers, -⟩ <;>
    rw [hrun]
  have hnone : w.own? (.node r) = none := by
    cases ho : w.own? (.node r) with
    | none => rfl
    | some a => exact absurd ⟨by simp [ho], m, hm, hc⟩ hd
  exact own?_of_carried hstill.toFrame (hothers r (.inr hnone))

/-- The guard of the walker comes to a node. -/
theorem claim (h : Footprint X D w₀ w L) (hv : w.Open (.node r)) (hd : w₀.Dressable r)
    (obstruct : Obstruction ε) :
    Claimed w₀ (World.install obstruct w X.guard (.node r)).2 X.guard r := by
  by_cases hr : .guarded (.node r) ∈ L
  · exact (h.claims r hr hd).again hd (h.cls r) hv obstruct
  · obtain ⟨a, ha⟩ := Option.isSome_iff_exists.1 hd.carries
    have hown : w.own? (.node r) = some a := (h.spares r fun hboth => hr hboth.1).trans ha
    obtain ⟨m, hm, hc⟩ := hd.callable
    have hsame : Untouched w₀ w (.node r) := .of_own (hown.trans ha.symm) (h.cls r)
    exact ⟨a, w.wrappers.next, ha, install_own obstruct hv (hsame.accept.trans hm) hc hown X.guard⟩

/-- **A walk leaves its guard on one more value, and nothing else.** -/
theorem install (h : Footprint X D w₀ w L) {v : Value} (hv : w.Open v) (obstruct : Obstruction ε) :
    Footprint X D w₀ (World.install obstruct w X.guard v).2 (L ++ [.guarded v]) := by
  have hstill := still_install obstruct hv X.guard
  have hmem : ∀ r, v ≠ .node r →
      (.guarded (.node r) ∈ L ++ [.guarded v] ↔ .guarded (.node r) ∈ L) := by
    intro r hvr
    simp [Ne.symm hvr]
  refine ⟨fun r => (hstill.nodes r).trans (h.cls r),
    fun l hl => by rw [← h.lists l hl, items, items, hstill.lists], fun r hr hd => ?_,
    fun r hr => ?_⟩
  · by_cases hvr : v = .node r
    · subst hvr
      exact h.claim hv hd obstruct
    · obtain ⟨a, x, hfirst, hown⟩ := h.claims r ((hmem r hvr).1 hr) hd
      exact ⟨a, x, hfirst, (own?_install_of_ne obstruct hv X.guard hvr).trans hown⟩
  · by_cases hvr : v = .node r
    · subst hvr
      have hd : ¬ w₀.Dressable r := fun hd => hr ⟨by simp, hd⟩
      have hsame := h.spares r fun hboth => hd hboth.2
      have hd' : ¬ w.Dressable r := by
        rintro ⟨hcarries, hcallable⟩
        rw [(Untouched.of_own hsame (h.cls r)).accept] at hcallable
        exact hd ⟨hsame ▸ hcarries, hcallable⟩
      exact (own?_install_of_not hv hd' obstruct X.guard).trans hsame
    · rw [own?_install_of_ne obstruct hv X.guard hvr]
      exact h.spares r fun hboth => hr ⟨(hmem r hvr).2 hboth.1, hboth.2⟩

/-- All attributes but marks are as before. -/
theorem fields (h : Footprint X D w₀ w L) (r : Ref .node) {name : String}
    (hn : name ∉ Node.marks) :
    (w.carried (.node r)).get? name = (w₀.carried (.node r)).get? name := by
  by_cases hr : .guarded (.node r) ∈ L ∧ w₀.Dressable r
  · obtain ⟨a, x, hfirst, hown⟩ := h.claims r hr.1 hr.2
    simp only [carried, hown, hfirst, Option.getD_some, Attributes.get?_claimed hn]
  · simp only [carried, h.spares r hr]

/-- What a walk has left behind so far is known all the while it goes on. -/
theorem hosts {F : Foreign ε κ} {e : Event} {args : List Value} {A : Agenda κ}
    {verdict : List (Occasion κ) → Option Failure} {S : Surroundings ε κ}
    (ready : X.SetsOut F D e args A w₀) (attended : X.Attended F D verdict S) :
    (X.attended D A (Footprint X D w₀) verdict).Hosts F S :=
  attended.hosts ready.coded (fun _ _ _ hw hi => hi.of_nodes hw.sameNodes hw.lists)
    (fun _ _ _ hx hi => hi.call hx)
    (fun _ _ _ hw hi => hi.of_nodes hw.sameNodes fun l _ => by simp [items, hw.lists])
    fun _ _ _ _ _ _ _ hv hi => hi.install hv F.obstruct

end Footprint

end World

namespace Cast

variable {X : Cast} {F : Foreign ε κ} {D : Ref .list → Prop} {A : Agenda κ} {e : Event}
  {args : List Value} {w : World ε} {S : Surroundings ε κ}
  {verdict : List (Occasion κ) → Option Failure}

/-- What a walk through an agenda has left behind when it ends or fails. -/
theorem SetsOut.footprint (h : X.SetsOut F D e args A w) (hS : X.Attended F D verdict S) :
    ∃ (r : Outcome) (σ : Moment ε κ),
      S.Runs (Walk.send (.walker X.walker) (.entry e) args) (.start w) r σ ∧
      X.occasions σ.calls = (X.course A verdict).1 ∧ failure? r = (X.course A verdict).2 ∧
      World.Footprint X D w σ.world (X.steps A verdict).1 := by
  obtain ⟨source, inner, hwhole⟩ := h.whole
  obtain ⟨r, σ, hruns, -, hg, hr⟩ := (World.Footprint.hosts h hS).walk
    (fun _ _ _ hw hi => hi.of_nodes hw.sameNodes fun l _ => by simp [World.items, hw.lists])
    h.announces hwhole (h.going (.start X D w))
  rw [← steps_eq] at hg hr
  exact ⟨r, σ, hruns, hg.heard, hr, hg.inv⟩

/-- **A walk over a document leaves guards on what it has presented, and nothing else.** It makes no
difference whether the walk comes to its end or is cut short by a failure. What it has presented is
what its observers have been told of, if it has any; a walk that comes to its end has presented all
that the document hands out. The guard of the walker answers for a node that has been presented,
whatever guard there was before; the node keeps its wrapper if it had one. All other attributes of
nodes are as before, and so are the lists of the document, and a node that has not been presented is
as before altogether. -/
theorem walk_leaves_guards {root : Document} (hroot : root.Fits D w) (hX : X.Assembled w)
    (hi : Held w X .idle) (he : e.entersNode = true) (hS : X.Attended F D verdict S) :
    ∃ (r : Outcome) (σ : Moment ε κ),
      S.Runs (Walk.send (.walker X.walker) (.entry e) [root.value]) (.start w) r σ ∧
      failure? r = (X.course (root.entered e) verdict).2 ∧
      (X.observers ≠ [] → ∀ v, X.Presents (root.entered e) verdict v ↔
        Occasion.Tells (X.occasions σ.calls) v) ∧
      (failure? r = none → ∀ v, X.Presents (root.entered e) verdict v ↔
        (root.entered e : Agenda κ).Hands v) ∧
      (∀ d ∈ root.all, w.Dressable d.ref) ∧
      (∀ n, X.Presents (root.entered e) verdict (.node n) → w.Dressable n →
        σ.world.tag? (.node n) = some (.guard X.guard) ∧
        if w.isGuarded (.node n)
        then (σ.world.carried (.node n)).get? Node.acceptField =
          (w.carried (.node n)).get? Node.acceptField
        else ∃ x, (σ.world.carried (.node n)).get? Node.acceptField = some (.wrapper x)) ∧
      (∀ n, (σ.world.nodes.get n).cls = (w.nodes.get n).cls ∧ ∀ name ∉ Node.marks,
        (σ.world.carried (.node n)).get? name = (w.carried (.node n)).get? name) ∧
      (∀ n, ¬ (X.Presents (root.entered e) verdict (.node n) ∧ w.Dressable n) →
        World.Untouched w σ.world (.node n)) ∧
      ∀ l : Ref .list, D l → σ.world.items l = w.items l := by
  obtain ⟨r, σ, hruns, hheard, hend, hfoot⟩ := (SetsOut.of_document hroot hX hi he).footprint hS
  refine ⟨r, σ, hruns, hend, fun hsome v => ?_, fun hnone v => ?_, fun d hd => .of_stored (hroot d hd),
    fun n hn hd => ?_, fun n => ⟨hfoot.cls n, fun _ => hfoot.fields n⟩, fun n hn => ?_, hfoot.lists⟩
  · rw [hheard]
    exact presents_iff_told hsome
  · exact presents_iff_hands (hend.symm.trans hnone)
  · have hclaimed := hfoot.claims n hn hd
    exact ⟨hclaimed.tag, hclaimed.wrapper⟩
  · exact .of_own (hfoot.spares n hn) (hfoot.cls n)

/-! ## A small document -/

open Crowd in
/-- Another guard has come to a step of the small document. A walk that comes to its end puts its
own guard in the place of that one, and the step keeps its wrapper. A walk that is cut short when
its observer is told of the feature leaves the step alone. -/
theorem walk_leaves_guards_on_small_document :
    tagged.tag? (.node ⟨4⟩) = some (.guard Crowd.guard) ∧
    (∃ (r : Outcome) (σ : Moment Unit Empty),
      (cast.quietly foreign fun _ => none).Runs
        (Walk.send (.walker cast.walker) (.entry .features) [Document.login.value])
        (.start tagged) r σ ∧
      σ.world.tag? (.node ⟨4⟩) = some (.guard cast.guard) ∧
      (σ.world.carried (.node ⟨4⟩)).get? Node.acceptField =
        (tagged.carried (.node ⟨4⟩)).get? Node.acceptField) ∧
    ∃ (r : Outcome) (σ : Moment Unit Empty),
      (cast.quietly foreign fun L => if L.length = 2 then some .numberTooLarge else none).Runs
        (Walk.send (.walker cast.walker) (.entry .features) [Document.login.value])
        (.start tagged) r σ ∧
      σ.world.tag? (.node ⟨1⟩) = some (.guard cast.guard) ∧
      σ.world.tag? (.node ⟨4⟩) = some (.guard Crowd.guard) := by
  have hroot : Document.login.Fits (4 : Nat) tagged :=
    (meddling_tagged (V := cast.Intact)).fits pristine.fits
  have hX : cast.Assembled tagged := assembled.frame frame_tagged fun v hv => .inl hv
  have hi : Held tagged cast .idle := held.frame frame_tagged (frame_tagged.carried _ (.inr rfl))
  have he : Event.features.entersNode = true := rfl
  have hfeature : tagged.Dressable ⟨1⟩ := ⟨rfl, .bound .accept, rfl, rfl⟩
  have hstep : tagged.Dressable ⟨4⟩ := ⟨rfl, .value (.wrapper ⟨1⟩), rfl, rfl⟩
  have htagged : tagged.tag? (.node ⟨4⟩) = some (.guard Crowd.guard) := rfl
  refine ⟨htagged, ?_, ?_⟩
  · obtain ⟨r, σ, hruns, hend, -, hhands, -, hclaims, -⟩ := walk_leaves_guards hroot hX hi he
      (attended_quietly cast foreign (4 : Nat) fun _ => none)
    have hnone : failure? r = none := by
      rw [hend, course_quiet]
      rfl
    have hhanded : (Document.login.entered .features : Agenda Empty).Hands (.node ⟨4⟩) := by
      simp [Document.login, Document.entered, Document.agenda, Document.agendaOf,
        Document.agendaIf, Document.value, Document.ref, Agenda.leaf, Agenda.Hands]
    obtain ⟨htag, hwrapper⟩ := hclaims ⟨4⟩ ((hhands hnone _).2 hhanded) hstep
    exact ⟨r, σ, hruns, htag, hwrapper⟩
  · let verdict (L : List (Occasion Empty)) : Option Failure :=
      if L.length = 2 then some .numberTooLarge else none
    have hsteps : (cast.steps (Document.login.entered .features) verdict).1 =
      [.guarded (.node ⟨0⟩), .told ⟨0⟩ (.before .features [.node ⟨0⟩]),
        .guarded (.node ⟨1⟩), .told ⟨0⟩ (.before .feature [.node ⟨1⟩])] := rfl
    obtain ⟨r, σ, hruns, -, -, -, -, hclaims, -, hspares, -⟩ :=
      walk_leaves_guards hroot hX hi he (attended_quietly cast foreign (4 : Nat) verdict)
    have hpresented : cast.Presents (Document.login.entered .features) verdict (.node ⟨1⟩) := by
      rw [Presents, hsteps]
      simp
    have hspared : ¬ cast.Presents (Document.login.entered .features) verdict (.node ⟨4⟩) := by
      rw [Presents, hsteps]
      simp
    obtain ⟨htag, -⟩ := hclaims ⟨1⟩ hpresented hfeature
    have hsame := (hspares ⟨4⟩ fun hboth => hspared hboth.1).own
    refine ⟨r, σ, hruns, htag, ?_⟩
    rw [World.tag?, hsame]
    exact htagged

end Cast

end GuardedWalk
