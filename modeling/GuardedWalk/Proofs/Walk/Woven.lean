import GuardedWalk.Proofs.Walk.Audience

/-!
# What is said in between

While an observer is told something, more can be said: everybody hears that before the next observer
is told the same. So some observers hear it before the event that gave rise to it, and others after
that. Whatever it is, it is said as a whole. Here it is shown that what one observer hears remains
balanced then, and that it can be told what belongs to which event.

## Main definitions

* `GuardedWalk.Woven` — what is on an agenda, with what is said in between.
* `GuardedWalk.Resounds` — what all observers hear, with what is said in between.

## Main results

* `GuardedWalk.Woven.balanced`, `Woven.proper` — what is said in between stands between brackets,
  and without it the agenda remains.
* `GuardedWalk.Resounds.woven` — what one observer hears of it.
-/

set_option autoImplicit false

namespace GuardedWalk

variable {κ : Type} {extra : Agenda κ → Prop}

section Aside

variable {α : Type}

/-- All of it is said in between. -/
def aside (w : List (Bool × α)) : List (Bool × α) := w.map fun p => (true, p.2)

/-- What is not said in between. -/
def proper (w : List (Bool × α)) : List α := (w.filter fun p => !p.1).map Prod.snd

@[simp] theorem map_snd_aside (w : List (Bool × α)) :
    (aside w).map Prod.snd = w.map Prod.snd := by
  simp [aside]

@[simp] theorem proper_nil : proper ([] : List (Bool × α)) = [] := rfl

@[simp] theorem proper_append (w w' : List (Bool × α)) :
    proper (w ++ w') = proper w ++ proper w' := by
  simp [proper]

@[simp] theorem proper_cons_false (a : α) (w : List (Bool × α)) :
    proper ((false, a) :: w) = a :: proper w := rfl

@[simp] theorem proper_aside (w : List (Bool × α)) : proper (aside w) = [] := by
  simp [proper, aside, List.filter_map, Function.comp_def]

end Aside

/-! ## What one observer hears -/

/-- What is on an agenda, with what is said in between. All that is said about an event stands
between its beginning and its end, and so does what is said about an event that is announced in
between. -/
inductive Woven (extra : Agenda κ → Prop) : Agenda κ → List (Bool × Notice) → Prop where
  | done : Woven extra .done []
  | ask (c : κ) {rest : Agenda κ} {w : List (Bool × Notice)} (h : Woven extra rest w) :
    Woven extra (.ask c rest) w
  | entry (e : Event) (args : List Value) (source : Option Source) {inner rest : Agenda κ}
    {w w' : List (Bool × Notice)} (h : Woven extra inner w) (h' : Woven extra rest w') :
    Woven extra (.entry e args source inner rest)
      ((false, .before e args) :: w ++ (false, .after e) :: w')
  /-- Something is said in between. -/
  | between {A B : Agenda κ} {w w' : List (Bool × Notice)} (hB : extra B) (h : Woven extra B w)
    (h' : Woven extra A w') : Woven extra A (aside w ++ w')

namespace Woven

variable {A : Agenda κ} {w : List (Bool × Notice)}

/-- **What is said in between keeps the balance.** -/
theorem balanced (h : Woven extra A w) : Balanced (w.map Prod.snd) := by
  induction h with
  | done => exact .nil
  | ask c _ ih => exact ih
  | entry e args source _ _ ih ih' =>
    have h := Balanced.around e args ih ih'
    simpa [around] using h
  | between _ _ _ ih ih' =>
    rw [List.map_append, map_snd_aside]
    exact ih.append ih'

/-- **Without what is said in between the agenda remains.** -/
theorem proper (h : Woven extra A w) : GuardedWalk.proper w = A.notices := by
  induction h with
  | done => rfl
  | ask c _ ih => exact ih
  | entry e args source _ _ ih ih' => simp [Agenda.notices, around, ih, ih']
  | between _ _ _ _ ih' => simp [ih']

end Woven

/-! ## Things said one after the other -/

/-- Some notices, one after the other, with what is said in between. -/
inductive Laced (E : List (Bool × Notice) → Prop) : List Notice → List (Bool × Notice) → Prop where
  | nil : Laced E [] []
  | cons (n : Notice) {ns : List Notice} {w : List (Bool × Notice)} (h : Laced E ns w) :
    Laced E (n :: ns) ((false, n) :: w)
  /-- Something is said in between. -/
  | between {ns : List Notice} {w w' : List (Bool × Notice)} (hw : E w) (h : Laced E ns w') :
    Laced E ns (aside w ++ w')

namespace Laced

variable {E : List (Bool × Notice) → Prop} {n : Notice} {ns ns' : List Notice}
  {w w' : List (Bool × Notice)}

theorem append (h : Laced E ns w) (h' : Laced E ns' w') : Laced E (ns ++ ns') (w ++ w') := by
  induction h with
  | nil => exact h'
  | cons n _ ih => exact .cons n ih
  | between hw _ ih =>
    rw [List.append_assoc]
    exact .between hw ih

/-- What is said before a notice, and from it on. -/
theorem cons_cases (h : Laced E (n :: ns) w) :
    ∃ u v, w = u ++ (false, n) :: v ∧ Laced E [] u ∧ Laced E ns v := by
  generalize hm : n :: ns = ms at h
  induction h with
  | nil => cases hm
  | @cons n' ns' v h _ =>
    obtain ⟨rfl, rfl⟩ := List.cons.inj hm
    exact ⟨[], v, rfl, .nil, h⟩
  | between hw _ ih =>
    obtain ⟨u, v, rfl, hu, hv⟩ := ih hm
    exact ⟨_, v, (List.append_assoc ..).symm, .between hw hu, hv⟩

/-- What is said before some notices, and from them on. -/
theorem append_cases (h : Laced E (ns ++ ns') w) :
    ∃ u v, w = u ++ v ∧ Laced E ns u ∧ Laced E ns' v := by
  induction ns generalizing w with
  | nil => exact ⟨[], w, rfl, .nil, h⟩
  | cons n rest ih =>
    obtain ⟨u, w', rfl, hu, hw'⟩ := cons_cases h
    obtain ⟨v, v', rfl, hv, hv'⟩ := ih hw'
    exact ⟨u ++ (false, n) :: v, v', by simp, hu.append (.cons n hv), hv'⟩

/-- Where nothing else is to be said, there is only what is said in between. -/
theorem woven_append (h : Laced (fun w => ∃ B, extra B ∧ Woven extra B w) [] w) {A : Agenda κ}
    (h' : Woven extra A w') : Woven extra A (w ++ w') := by
  generalize hn : ([] : List Notice) = ns at h
  induction h with
  | nil => exact h'
  | cons n _ _ => cases hn
  | between hw _ ih =>
    obtain ⟨B, hB, hw⟩ := hw
    rw [List.append_assoc]
    exact .between hB hw (ih hn)

/-- By induction on the agenda, what is said in between stands between its brackets. -/
theorem woven (A : Agenda κ)
    (h : Laced (fun w => ∃ B, extra B ∧ Woven extra B w) A.notices w) : Woven extra A w := by
  induction A generalizing w with
  | done =>
    have h' := h.woven_append .done
    rwa [List.append_nil] at h'
  | ask c rest ih => exact .ask c (ih h)
  | entry e args source inner rest ihInner ih =>
    rw [Agenda.notices, around, List.cons_append, List.cons_append, List.append_assoc] at h
    obtain ⟨u, w, rfl, hu, hw⟩ := h.cons_cases
    obtain ⟨v, w, rfl, hv, hw⟩ := hw.append_cases
    obtain ⟨v', w, rfl, hv', hw⟩ := hw.cons_cases
    have hinner : Laced (fun w => ∃ B, extra B ∧ Woven extra B w) inner.notices (v ++ v') := by
      have happend := hv.append hv'
      rwa [List.append_nil] at happend
    have hwoven := hu.woven_append (.entry e args source (ihInner hinner) (ih hw))
    simpa using hwoven

end Laced

/-! ## What all observers hear -/

/-- A notice with the observer who is given it. -/
abbrev Delivery : Type := Ref .observer × Notice

/-- What an observer is told by a delivery. -/
def Delivery.callback (d : Delivery) : Callback := (d.1, d.2.told)

namespace Cast

variable (X : Cast)

/-- All observers are given some notices. -/
def deliveries (ns : List Notice) : List Delivery := ns.flatMap fun n => X.observers.map (·, n)

theorem callback_deliveries (ns : List Notice) :
    (X.deliveries ns).map Delivery.callback = X.announced ns := by
  simp [deliveries, announced, toAll, List.map_flatMap, Function.comp_def, Delivery.callback]

/-- An observer who is registered once is given each notice once. -/
theorem deliveries_to {o : Ref .observer} (ho : o ∈ X.observers) (honce : X.observers.Nodup)
    (ns : List Notice) : ((X.deliveries ns).filter (·.1 = o)).map Prod.snd = ns := by
  have hone : X.observers.filter (· = o) = [o] := by
    rw [List.filter_eq, honce.count, if_pos ho, List.replicate_one]
  induction ns with
  | nil => rfl
  | cons n rest ih =>
    have hfirst : ((X.observers.map (·, n)).filter (·.1 = o)).map Prod.snd = [n] := by
      simp [List.filter_map, Function.comp_def, hone]
    rw [deliveries, List.flatMap_cons, List.filter_append, List.map_append, hfirst]
    exact congrArg (n :: ·) ih

end Cast

/-- What all observers hear, with what is said in between: after each delivery an agenda is gone
through that may be empty, which all observers hear of in the same way. -/
inductive Resounds (X : Cast) (extra : Agenda κ → Prop) :
    List Delivery → List (Bool × Delivery) → Prop where
  | nil : Resounds X extra [] []
  | cons (d : Delivery) {B : Agenda κ} (hB : extra B) {ds : List Delivery}
    {l m : List (Bool × Delivery)} (h : Resounds X extra (X.deliveries B.notices) l)
    (h' : Resounds X extra ds m) : Resounds X extra (d :: ds) ((false, d) :: aside l ++ m)

/-- What one observer hears. -/
def partOf (o : Ref .observer) (l : List (Bool × Delivery)) : List (Bool × Notice) :=
  (l.filter (·.2.1 = o)).map fun p => (p.1, p.2.2)

section Part

variable (o : Ref .observer) (l m : List (Bool × Delivery))

@[simp] theorem partOf_append : partOf o (l ++ m) = partOf o l ++ partOf o m := by
  simp [partOf]

@[simp] theorem partOf_aside : partOf o (aside l) = aside (partOf o l) := by
  simp [partOf, aside, List.filter_map, Function.comp_def]

theorem partOf_cons (x : Bool) (d : Delivery) :
    partOf o ((x, d) :: l) = if d.1 = o then (x, d.2) :: partOf o l else partOf o l := by
  by_cases h : d.1 = o <;> simp [partOf, h]

/-- What an observer is told is what it hears. -/
theorem toldTo_callbacks :
    Audience.toldTo o (l.map fun p => p.2.callback) = (partOf o l).map fun p => p.2.told := by
  simp [Audience.toldTo, partOf, List.filter_map, Function.comp_def, Delivery.callback]

end Part

/-- **What one observer hears** is what is on the agenda, with what is said in between, if the
observer is registered once. -/
theorem Resounds.woven {X : Cast} {o : Ref .observer} (ho : o ∈ X.observers)
    (honce : X.observers.Nodup) {A : Agenda κ} {l : List (Bool × Delivery)}
    (h : Resounds X extra (X.deliveries A.notices) l) : Woven extra A (partOf o l) := by
  have hlaced : ∀ {ds l}, Resounds X extra ds l →
      Laced (fun w => ∃ B, extra B ∧ Woven extra B w) ((ds.filter (·.1 = o)).map Prod.snd)
        (partOf o l) := by
    intro ds l h
    induction h with
    | nil => exact .nil
    | @cons d B hB ds l m _ _ ih ih' =>
      rw [X.deliveries_to ho honce] at ih
      have hlast := Laced.between ⟨B, hB, Laced.woven B ih⟩ ih'
      rw [List.cons_append, partOf_cons, partOf_append, partOf_aside]
      by_cases hd : d.1 = o
      · rw [List.filter_cons_of_pos (by simpa using hd), List.map_cons, if_pos hd]
        exact .cons d.2 hlast
      · rw [List.filter_cons_of_neg (by simpa using hd), if_neg hd]
        exact hlast
  have h' := hlaced h
  rw [X.deliveries_to ho honce] at h'
  exact Laced.woven A h'

end GuardedWalk
