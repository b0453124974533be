import GuardedWalk.Proofs.Walk.Answering
import GuardedWalk.Proofs.Walk.Attending

/-!
# Observers that run foreign code

An observer of a scripted class notes in one word what it is told, keeps the events that are open,
and then runs foreign code. The notes are kept in lists of its own, so as long as these are none of
those that somebody else keeps something in, nobody notices.

## Main definitions

* `GuardedWalk.World.Scripted` — an observer runs foreign code.
* `GuardedWalk.Told.script` — the code that an observer runs when it is told something.

## Main results

* `GuardedWalk.Walk.script_yields` — what such an observer does when it is told something.
-/

set_option autoImplicit false

namespace GuardedWalk

variable {ε κ : Type}

namespace World

variable {w w' : World ε} {E D : Ref .list → Prop}

/-! ## Lists change beside a walk -/

theorem beside_lists {ls : Store .list (Array Value)} (hls : ∀ l, E l → ls.get l = w.lists.get l) :
    Beside E w { w with lists := ls } := beside_contents hls (.refl _ _)

/-- The scene of a walk does not depend on what is done beside it. -/
theorem Beside.peaceful (h : Beside E w w') (hD : ∀ l, D l → E l) (X : Cast) :
    Peaceful X D w w' where
  toFrame := h.toFrame.mono fun _ _ => trivial
  sameNodes := h.sameNodes
  sameSessions := h.sameSessions
  lists l hl := by rw [items, items, h.lists l (hD l hl)]

/-- An observer runs foreign code, and keeps its notes in lists that are none of some others. -/
structure Scripted (E : Ref .list → Prop) (w : World ε) (o : Ref .observer) : Prop where
  cls : (w.observers.get o).cls = .scripted
  unhidden : w.Unhidden (.observer o)
  stack : ∃ l : Ref .list, w.ownValue (.observer o) Observer.stackField = .list l ∧ ¬ E l
  calls : ∃ l : Ref .list, w.ownValue (.observer o) Observer.callsField = .list l ∧ ¬ E l

/-- It is told things by methods of its class. -/
theorem Scripted.shows {o : Ref .observer} (h : w.Scripted E o) {m : Message}
    (hm : m = .before ∨ m = .after) : w.member (.observer o) m.name = .ok (.bound m) := by
  have hunderstands : World.understands w (.observer o) m = true := by
    rcases hm with rfl | rfl <;>
      simp [World.understands, h.cls, ObserverClass.takesNotifications]
  have hmember := World.member_of_understands hunderstands
    (h.unhidden m (by rcases hm with rfl | rfl <;> simp))
  rcases hm with rfl | rfl <;> exact hmember

theorem Scripted.frame {V : Value → Prop} {o : Ref .observer} (h : w.Scripted E o)
    (hf : Frame V w w') (hV : V (.observer o))
    (hcls : (w'.observers.get o).cls = (w.observers.get o).cls) : w'.Scripted E o where
  cls := hcls.trans h.cls
  unhidden := hf.unhidden hV h.unhidden
  stack := by
    rw [hf.ownValue hV (by decide)]
    exact h.stack
  calls := by
    rw [hf.ownValue hV (by decide)]
    exact h.calls

end World

/-- A recorder does not notice what is done beside its lists. -/
theorem Recorder.Keeps.beside {R : Recorder} {D E : Ref .list → Prop} {k : Record} {w w' : World ε}
    (hk : R.Keeps D k w) (h : World.Beside E w w') (hn : E R.notes) (ho : E R.opened) :
    R.Keeps D k w' :=
  hk.rests {
    cls := h.observers _
    carried := h.carried _ trivial
    notes := congrArg Array.toList (h.lists _ hn)
    opened := congrArg Array.toList (h.lists _ ho)
    tuples := h.tuples }

/-- The code that an observer runs when it is told something; it is told which event has ended. -/
def Told.script (F : Foreign ε κ) (t : Thread) (o : Ref .observer) (ended : Value) :
    Told → Walk.Steps ε κ Value
  | .before e args => F.before t o (.event e) args
  | .after => F.after t o ended

namespace Walk

open Surroundings

variable {F : Foreign ε κ} {t : Thread} {R : Rule ε κ} {σ : Moment ε κ} {E : Ref .list → Prop}
  {o : Ref .observer}

/-- From one moment to another an observer has changed its own lists. -/
structure Jotted (E : Ref .list → Prop) (σ σ' : Moment ε κ) : Prop where
  world : ∃ ls, σ'.world = { σ.world with lists := ls } ∧ ∀ l, E l → ls.get l = σ.world.lists.get l
  window : σ'.window = .open
  turns : σ.Turns σ'

namespace Jotted

variable {σ₁ : Moment ε κ}

theorem refl (hσ : σ.window = .open) : Jotted E σ σ :=
  ⟨⟨_, rfl, fun _ _ => rfl⟩, hσ, .of_calls rfl⟩

theorem carried (h : Jotted E σ σ₁) (v : Value) : σ₁.world.carried v = σ.world.carried v := by
  obtain ⟨ls, hw, -⟩ := h.world
  rw [hw]
  exact carried_jot σ.world ls σ.world.tuples v

theorem ownValue (h : Jotted E σ σ₁) (v : Value) (name : String) :
    σ₁.world.ownValue v name = σ.world.ownValue v name := by
  rw [World.ownValue_eq, World.ownValue_eq, h.carried]

theorem beside (h : Jotted E σ σ₁) :
    World.Beside E σ.world σ₁.world ∧ σ₁.world.foreign = σ.world.foreign := by
  obtain ⟨ls, hw, hls⟩ := h.world
  rw [hw]
  exact ⟨World.beside_lists hls, rfl⟩

/-- A step that only looks at the world. -/
theorem look {α : Type} (h : Jotted E σ σ₁) {f : World ε → Except Failure α} {r : Except Failure α}
    {Q : Except Failure α → Moment ε κ → Prop} (hf : f σ₁.world = r)
    (hQ : ∀ σ₂, σ₂.world = σ₁.world → Jotted E σ σ₂ → Q r σ₂) :
    (alone (body F t)).Yields R σ₁ (Routine.examine f) Q :=
  alone_look hf (hQ _ rfl ⟨h.world, by simp [Moment.stepped, h.window, Window.next],
    h.turns.trans (.of_calls rfl)⟩)

/-- One of its lists has changed. -/
theorem modify (h : Jotted E σ σ₁) {σ₂ : Moment ε κ} {l : Ref .list} (hl : ¬ E l)
    {f : Array Value → Array Value}
    (hw : σ₂.world = { σ₁.world with lists := σ₁.world.lists.modify l f })
    (hσ : σ₂.window = .open) {c : Call κ} (hc : σ₂.calls = σ₁.calls ++ [c])
    (haside : c.isAside = true) : Jotted E σ σ₂ := by
  obtain ⟨ls, hw₁, hls⟩ := h.world
  refine ⟨⟨ls.modify l f, by rw [hw, hw₁], fun l' hl' => ?_⟩, hσ,
    h.turns.trans (.of_call hc haside)⟩
  have hne : l' ≠ l := by
    rintro rfl
    exact hl hl'
  rw [Store.get_modify, if_neg hne, hls l' hl']

/-- It finds that it is of a scripted class. -/
theorem classOf (h : Jotted E σ σ₁) (ho : (σ.world.observers.get o).cls = .scripted)
    {Q : Except Failure ObserverClass → Moment ε κ → Prop}
    (hQ : ∀ σ₂, Jotted E σ σ₂ → Q (.ok .scripted) σ₂) :
    (alone (body F t)).Yields R σ₁ (Walk.classOf o) Q := by
  refine .bind (h.look rfl fun σ₂ _ h₂ => .pure ?_)
  have hcls : (σ₁.world.observers.get o).cls = .scripted := by
    obtain ⟨ls, hw, -⟩ := h.world
    rw [hw]
    exact ho
  rw [hcls]
  exact hQ σ₂ h₂

/-- Something is added to one of its lists. -/
theorem append (h : Jotted E σ σ₁) (hlists : Recorder.SparesLists R) {field : String} {x : Value}
    (hfield : ∃ l : Ref .list, σ.world.ownValue (.observer o) field = .list l ∧ ¬ E l)
    {Q : Except Failure Unit → Moment ε κ → Prop} (hQ : ∀ σ₂, Jotted E σ σ₂ → Q (.ok ()) σ₂) :
    (alone (body F t)).Yields R σ₁ (appendTo (.observer o) field x) Q := by
  obtain ⟨l, hl, hE⟩ := hfield
  exact Recorder.appendTo_yields hlists ((h.ownValue _ _).trans hl) fun σ₂ hw hσ hc =>
    hQ σ₂ (h.modify hE hw hσ hc rfl)

/-- The event that has begun last is closed, if there is one. -/
theorem close (h : Jotted E σ σ₁) (hlists : Recorder.SparesLists R) {field : String}
    (hfield : ∃ l : Ref .list, σ.world.ownValue (.observer o) field = .list l ∧ ¬ E l)
    {Q : Outcome → Moment ε κ → Prop} (hQ : ∀ ended σ₂, Jotted E σ σ₂ → Q (.ok ended) σ₂) :
    (alone (body F t)).Yields R σ₁ (closeEvent o field) Q := by
  obtain ⟨l, hl, hE⟩ := hfield
  refine .bind (h.look (congrArg Except.ok ((h.ownValue _ _).trans hl)) fun σ₂ hw₂ h₂ => ?_)
  refine .bind (h₂.look (r := .ok !(σ₂.world.items l).isEmpty) ?_ fun σ₃ hw₃ h₃ => ?_)
  · simp [World.isTrue, World.items]
  rcases List.eq_nil_or_concat (σ₂.world.items l) with hnil | ⟨xs, x, hlast⟩
  · simp only [hnil, List.isEmpty_nil, Bool.not_true, Bool.false_eq_true, if_false]
    exact .pure (hQ _ σ₃ h₃)
  · rw [List.concat_eq_append] at hlast
    have hne : (!(σ₂.world.items l).isEmpty) = true := by simp [hlast]
    simp only [hne, if_true]
    refine Recorder.list_yields hlists (r := .ok x) (w := σ₃.world.without l xs.length) (by simp)
      rfl rfl rfl rfl ?_ fun σ₄ hw₄ hσ₄ hc₄ => hQ x σ₄ (h₃.modify hE hw₄ hσ₄ hc₄ rfl)
    exact Recorder.ofList_pop_run (by rw [hw₃]; exact hlast)

end Jotted

/-- **An observer of a scripted class notes what it is told, and then runs its code.** -/
theorem script_yields (hlists : Recorder.SparesLists R) (ho : σ.world.Scripted E o)
    (hevents : ∀ e : Event,
      (σ.world.carried (.event e)).get? "_value_" = some (.text e.methodName))
    (hσ : σ.window = .open) (n : Told) {Q : Outcome → Moment ε κ → Prop}
    (hQ : ∀ ended σ', Jotted E σ σ' →
      (alone (body F t)).Yields R σ' (n.script F t o ended) Q) :
    (alone (body F t)).Yields R σ (body F t (n.call o)) Q := by
  have h₀ : Jotted E σ σ := .refl hσ
  cases n with
  | before e args =>
    have hp : σ.world.argumentProblem? (.observer o) .before
        (.event e :: args : List Value).length = none := by
      simp [World.argumentProblem?, World.parametersOf, Parameters.problem?, Parameters.atLeast]
    refine .bind (h₀.look (ho.shows (.inl rfl)) fun σ₁ hw₁ h₁ => ?_)
    refine .bind (h₁.look (r := .ok none) (by rw [hw₁]; exact congrArg Except.ok hp)
      fun σ₂ _ h₂ => ?_)
    refine .bind (h₂.classOf ho.cls fun σ₃ h₃ => ?_)
    refine .bind (h₃.append hlists ho.stack fun σ₄ h₄ => ?_)
    refine .bind (.bind (h₄.look (r := .ok e.methodName) ?_ fun σ₅ _ h₅ => ?_))
    · have hmember := World.member_event (w := σ₄.world) (e := e)
        ((congrArg (·.get? "_value_") (h₄.carried _)).trans (hevents e))
      simp only [Recording.nameOfEvent, World.attrValue, hmember]
      rfl
    · exact h₅.append hlists ho.calls fun σ₆ h₆ => hQ .none σ₆ h₆
  | after =>
    refine .bind (h₀.look (ho.shows (.inr rfl)) fun σ₁ _ h₁ => ?_)
    refine .bind (h₁.look (r := .ok none) rfl fun σ₂ _ h₂ => ?_)
    refine .bind (h₂.classOf ho.cls fun σ₃ h₃ => ?_)
    refine .bind (h₃.close hlists ho.stack fun ended σ₄ h₄ => ?_)
    exact .bind (h₄.append hlists ho.calls fun σ₅ h₅ => hQ ended σ₅ h₅)

end Walk

end GuardedWalk
