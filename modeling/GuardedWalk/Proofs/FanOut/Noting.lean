import GuardedWalk.Proofs.FanOut.Passive
import GuardedWalk.Proofs.Walk.Audience

/-!
# Observers that keep notes

Observers of every class that is notified keep what they are told in lists of their own, and only
scripted ones do more than that. As long as these lists are none of those in which a document keeps
its parts, and the scripts do nothing that a walk relies on, such observers are passive.

## Main definitions

* `GuardedWalk.ObserverClass.noteFields` — where observers of a class keep what they are told.
* `GuardedWalk.World.Equipped` — an observer is notified and can keep what it is told.
* `GuardedWalk.Foreign.Unobtrusive` — scripts of observers that do nothing that shows.

## Main results

* `GuardedWalk.World.Equipped.notes` — what an observer does that is told something.
* `GuardedWalk.Cast.passive_of_equipped` — observers that keep notes are passive.
-/

set_option autoImplicit false

namespace GuardedWalk

variable {ε κ : Type}

/-- The attributes under which observers of a class keep what they are told. -/
def ObserverClass.noteFields : ObserverClass → List String
  | recording | both => [Observer.openField, Observer.notesField]
  | recordingEvent | duck | virtual => [Observer.callsField]
  | scripted => [Observer.stackField, Observer.callsField]
  | plain => []

theorem ObserverClass.noteFields_not_mem_marks (c : ObserverClass) :
    ∀ field ∈ c.noteFields, field ∉ Node.marks := by
  cases c <;> decide

namespace World

variable {E : Ref .list → Prop} {w w' : World ε} {o : Ref .observer}

/-- An observer is notified, and keeps what it is told in lists that are none of some others. -/
structure Equipped (E : Ref .list → Prop) (w : World ε) (o : Ref .observer) : Prop where
  legacy : (w.observers.get o).cls.kind = .legacy
  unhidden : w.Unhidden (.observer o)
  lists : ∀ field ∈ (w.observers.get o).cls.noteFields,
    ∃ l : Ref .list, w.ownValue (.observer o) field = .list l ∧ ¬ E l
  lock : (w.observers.get o).cls.hasLog = true →
    ∃ k, w.ownValue (.observer o) Observer.lockField = .lock k

theorem Equipped.frame {V : Value → Prop} (h : w.Equipped E o) (hf : Frame V w w')
    (hV : V (.observer o)) (hcls : (w'.observers.get o).cls = (w.observers.get o).cls) :
    w'.Equipped E o where
  legacy := by
    rw [hcls]
    exact h.legacy
  unhidden := hf.unhidden hV h.unhidden
  lists field hfield := by
    rw [hcls] at hfield
    rw [hf.ownValue hV (ObserverClass.noteFields_not_mem_marks _ field hfield)]
    exact h.lists field hfield
  lock hlog := by
    rw [hcls] at hlog
    rw [hf.ownValue hV (by decide)]
    exact h.lock hlog

/-- What an observer can keep depends on nothing but itself. -/
theorem Equipped.of_get (h : w.Equipped E o) (hsame : w'.observers.get o = w.observers.get o) :
    w'.Equipped E o := by
  have hcarried : w'.carried (.observer o) = w.carried (.observer o) := by
    show (w'.observers.get o).attributes = (w.observers.get o).attributes
    rw [hsame]
  have hown : w'.ownValue (.observer o) = w.ownValue (.observer o) := by
    funext name
    rw [ownValue_eq, ownValue_eq, hcarried]
  constructor
  · rw [hsame]
    exact h.legacy
  · exact unhidden_of_carried (fun name _ => by rw [hcarried]) h.unhidden
  · rw [hsame, hown]
    exact h.lists
  · rw [hsame, hown]
    exact h.lock

end World

namespace Walk

open Surroundings

variable {F : Foreign ε κ} {t : Thread} {R : Rule ε κ} {E : Ref .list → Prop}
  {σ σ₁ : Moment ε κ} {o : Ref .observer}

/-! ## Steps that go on beside a walk -/

/-- An observer that changes its own lists does so beside a walk. -/
theorem Jotted.strays (h : Jotted E σ σ₁) : Strays E σ σ₁ := ⟨h.beside.1, h.window, h.turns⟩

namespace Strays

/-- An observer finds its own lists where they were. -/
theorem field (h : Strays E σ σ₁) {name : String} (hn : name ∉ Node.marks)
    (hfield : ∃ l : Ref .list, σ.world.ownValue (.observer o) name = .list l ∧ ¬ E l) :
    ∃ l : Ref .list, σ₁.world.ownValue (.observer o) name = .list l ∧ ¬ E l := by
  rw [h.beside.ownValue trivial hn]
  exact hfield

/-- A step that only looks at the world. -/
theorem look {α : Type} (h : Strays E σ σ₁) {f : World ε → Except Failure α}
    {r : Except Failure α} {Q : Except Failure α → Moment ε κ → Prop} (hf : f σ₁.world = r)
    (hQ : ∀ σ₂, σ₂.world = σ₁.world → Strays E σ σ₂ → Q r σ₂) :
    (alone (body F t)).Yields R σ₁ (Routine.examine f) Q :=
  (Jotted.refl (E := E) h.window).look hf fun σ₂ hw h₂ => hQ σ₂ hw (h.trans h₂.strays)

/-- An observer finds out of which class it is. -/
theorem classOf (h : Strays E σ σ₁) {Q : Except Failure ObserverClass → Moment ε κ → Prop}
    (hQ : ∀ σ₂, Strays E σ σ₂ → Q (.ok (σ.world.observers.get o).cls) σ₂) :
    (alone (body F t)).Yields R σ₁ (Walk.classOf o) Q := by
  refine .bind (h.look rfl fun σ₂ _ h₂ => .pure ?_)
  rw [h.beside.observers o]
  exact hQ σ₂ h₂

/-- A recorder takes its lock. -/
theorem lock (h : Strays E σ σ₁)
    (hlock : ∃ k, σ.world.ownValue (.observer o) Observer.lockField = .lock k)
    {Q : Except Failure Unit → Moment ε κ → Prop} (hQ : ∀ σ₂, Strays E σ σ₂ → Q (.ok ()) σ₂) :
    (alone (body F t)).Yields R σ₁ (lockRecorder o) Q := by
  obtain ⟨k, hk⟩ := hlock
  refine .bind (h.look (r := .ok (.lock k)) ?_ fun σ₂ _ h₂ => ?_)
  · exact congrArg Except.ok ((h.beside.ownValue trivial (by decide)).trans hk)
  · exact h₂.look (r := .ok ()) rfl fun σ₃ _ h₃ => hQ σ₃ h₃

/-- A tuple is made. -/
theorem row (h : Strays E σ σ₁) (vs : List Value) {Q : Outcome → Moment ε κ → Prop}
    (hQ : ∀ r σ₂, Strays E σ σ₂ → Q (.ok (.tuple r)) σ₂) :
    (alone (body F t)).Yields R σ₁ (Routine.act (Act.addTuple vs)) Q := by
  have hrow : World.Beside E σ₁.world (σ₁.world.newTuple vs).2 :=
    World.beside_contents (fun _ _ => rfl) (Store.grows_add id ..)
  refine alone_step (r := .ok (.tuple σ₁.world.tuples.next)) rfl (hQ _ _ ⟨?_, ?_, ?_⟩)
  · exact h.beside.trans hrow
  · simp [Moment.stepped, h.window, Window.next]
  · exact h.turns.trans (.of_calls rfl)

/-- Something is added to a list of an observer. -/
theorem append (h : Strays E σ σ₁) (hlists : Recorder.SparesLists R) {name : String} {x : Value}
    (hn : name ∉ Node.marks)
    (hfield : ∃ l : Ref .list, σ.world.ownValue (.observer o) name = .list l ∧ ¬ E l)
    {Q : Except Failure Unit → Moment ε κ → Prop} (hQ : ∀ σ₂, Strays E σ σ₂ → Q (.ok ()) σ₂) :
    (alone (body F t)).Yields R σ₁ (appendTo (.observer o) name x) Q :=
  (Jotted.refl h.window).append hlists (h.field hn hfield) fun σ₂ h₂ => hQ σ₂ (h.trans h₂.strays)

/-- The event that has begun last is closed, if there is one. -/
theorem close (h : Strays E σ σ₁) (hlists : Recorder.SparesLists R) {name : String}
    (hn : name ∉ Node.marks)
    (hfield : ∃ l : Ref .list, σ.world.ownValue (.observer o) name = .list l ∧ ¬ E l)
    {Q : Outcome → Moment ε κ → Prop} (hQ : ∀ ended σ₂, Strays E σ σ₂ → Q (.ok ended) σ₂) :
    (alone (body F t)).Yields R σ₁ (closeEvent o name) Q :=
  (Jotted.refl h.window).close hlists (h.field hn hfield) fun ended σ₂ h₂ =>
    hQ ended σ₂ (h.trans h₂.strays)

/-- An observer notes in one word that an event begins. -/
theorem noteWord (h : Strays E σ σ₁) (hlists : Recorder.SparesLists R) (e : Event)
    (hevents : ∀ e : Event,
      (σ.world.carried (.event e)).get? "_value_" = some (.text e.methodName))
    (hfield : ∃ l : Ref .list,
      σ.world.ownValue (.observer o) Observer.callsField = .list l ∧ ¬ E l)
    {Q : Except Failure Unit → Moment ε κ → Prop} (hQ : ∀ σ₂, Strays E σ σ₂ → Q (.ok ()) σ₂) :
    (alone (body F t)).Yields R σ₁ (Walk.noteWord o (.event e)) Q := by
  refine .bind (h.look (r := .ok e.methodName) ?_ fun σ₂ _ h₂ => ?_)
  · have hmember := World.member_event (w := σ₁.world) (e := e)
      ((h.beside.carried _ trivial "_value_" (by decide)).trans (hevents e))
    simp only [Recording.nameOfEvent, World.attrValue, hmember]
    rfl
  · exact h₂.append hlists (by decide) hfield hQ

end Strays

end Walk

/-! ## What observers do that are told something -/

open Surroundings

/-- The scripts of observers come to an end without a failure, and do nothing that shows. -/
structure Foreign.Unobtrusive (F : Foreign ε κ) (t : Thread) (E : Ref .list → Prop)
    (R : Rule ε κ) : Prop where
  before : ∀ o e args (σ : Moment ε κ), σ.window = .open →
    (alone (Walk.body F t)).Yields R σ (F.before t o e args) fun r σ' =>
      failure? r = none ∧ Walk.Strays E σ σ'
  after : ∀ o ended (σ : Moment ε κ), σ.window = .open →
    (alone (Walk.body F t)).Yields R σ (F.after t o ended) fun r σ' =>
      failure? r = none ∧ Walk.Strays E σ σ'

/-- Scripts that do nothing at all do nothing that shows. -/
theorem Foreign.unobtrusive_silent (f : Failure) (t : Thread) (E : Ref .list → Prop)
    (R : Rule Unit κ) : (Foreign.silent f).Unobtrusive t E R where
  before _ _ _ _ hσ := .pure ⟨rfl, .refl hσ⟩
  after _ _ _ hσ := .pure ⟨rfl, .refl hσ⟩

variable {F : Foreign ε κ} {t : Thread} {R : Rule ε κ} {E : Ref .list → Prop} {σ : Moment ε κ}
  {o : Ref .observer}

/-- What the script of an observer does comes after what the observer does itself. -/
theorem Walk.Strays.andThen {σ₁ : Moment ε κ} (h : Strays E σ σ₁) {p : Walk.Steps ε κ Value}
    (hp : (alone (Walk.body F t)).Yields R σ₁ p fun r σ' =>
      failure? r = none ∧ Walk.Strays E σ₁ σ') :
    (alone (Walk.body F t)).Yields R σ₁ p fun r σ' => failure? r = none ∧ Strays E σ σ' :=
  hp.mono fun _ _ h' => ⟨h'.1, h.trans h'.2⟩

namespace World.Equipped

open Walk (Strays)

/-- What an observer does that is told that an event begins. -/
theorem notes_before (ho : σ.world.Equipped E o) (hlists : Recorder.SparesLists R)
    (hF : F.Unobtrusive t E R)
    (hevents : ∀ e : Event,
      (σ.world.carried (.event e)).get? "_value_" = some (.text e.methodName))
    {σ₁ : Moment ε κ} (h₁ : Strays E σ σ₁) (e : Event) (args : List Value) :
    (alone (Walk.body F t)).Yields R σ₁ (Walk.hearBefore F t o (.event e) args) fun r σ' =>
      failure? r = none ∧ Strays E σ σ' := by
  refine .bind (h₁.classOf fun σ₂ h₂ => ?_)
  have hfields := ho.lists
  have hlock := ho.lock
  have hlegacy := ho.legacy
  cases hcls : (σ.world.observers.get o).cls with
  | recording | both =>
    rw [hcls] at hfields hlock
    refine .bind (h₂.lock (hlock rfl) fun σ₃ h₃ => ?_)
    refine .bind (h₃.append hlists (by decide) (hfields Observer.openField (by decide))
      fun σ₄ h₄ => ?_)
    refine .bind (h₄.row args fun row σ₅ h₅ => ?_)
    refine .bind (h₅.row [Recording.beforeWord, .event e, .tuple row] fun note σ₆ h₆ => ?_)
    refine .bind (h₆.append hlists (by decide) (hfields Observer.notesField (by decide))
      fun σ₇ h₇ => ?_)
    exact .pure ⟨rfl, h₇⟩
  | virtual =>
    rw [hcls] at hfields
    refine .bind (h₂.noteWord hlists e hevents (hfields Observer.callsField (by decide))
      fun σ₃ h₃ => ?_)
    exact .pure ⟨rfl, h₃⟩
  | scripted =>
    rw [hcls] at hfields
    refine .bind (h₂.append hlists (by decide) (hfields Observer.stackField (by decide))
      fun σ₃ h₃ => ?_)
    refine .bind (h₃.noteWord hlists e hevents (hfields Observer.callsField (by decide))
      fun σ₄ h₄ => ?_)
    exact h₄.andThen (hF.before o _ args σ₄ h₄.window)
  | recordingEvent | duck | plain =>
    rw [hcls] at hlegacy
    cases hlegacy

/-- What an observer does that is told that an event ends. -/
theorem notes_after (ho : σ.world.Equipped E o) (hlists : Recorder.SparesLists R)
    (hF : F.Unobtrusive t E R) {σ₁ : Moment ε κ} (h₁ : Strays E σ σ₁) :
    (alone (Walk.body F t)).Yields R σ₁ (Walk.hearAfter F t o) fun r σ' =>
      failure? r = none ∧ Strays E σ σ' := by
  refine .bind (h₁.classOf fun σ₂ h₂ => ?_)
  have hfields := ho.lists
  have hlock := ho.lock
  have hlegacy := ho.legacy
  cases hcls : (σ.world.observers.get o).cls with
  | recording | both =>
    rw [hcls] at hfields hlock
    refine .bind (h₂.lock (hlock rfl) fun σ₃ h₃ => ?_)
    refine .bind (h₃.close hlists (by decide) (hfields Observer.openField (by decide))
      fun ended σ₄ h₄ => ?_)
    refine .bind (h₄.row [Recording.afterWord, ended] fun note σ₅ h₅ => ?_)
    refine .bind (h₅.append hlists (by decide) (hfields Observer.notesField (by decide))
      fun σ₆ h₆ => ?_)
    exact .pure ⟨rfl, h₆⟩
  | virtual =>
    rw [hcls] at hfields
    refine .bind (h₂.append hlists (by decide) (hfields Observer.callsField (by decide))
      fun σ₃ h₃ => ?_)
    exact .pure ⟨rfl, h₃⟩
  | scripted =>
    rw [hcls] at hfields
    refine .bind (h₂.close hlists (by decide) (hfields Observer.stackField (by decide))
      fun ended σ₃ h₃ => ?_)
    refine .bind (h₃.append hlists (by decide) (hfields Observer.callsField (by decide))
      fun σ₄ h₄ => ?_)
    exact h₄.andThen (hF.after o ended σ₄ h₄.window)
  | recordingEvent | duck | plain =>
    rw [hcls] at hlegacy
    cases hlegacy

/-- **An observer that is told something keeps it in its own lists**, and nothing else shows. -/
theorem notes (ho : σ.world.Equipped E o) (hlists : Recorder.SparesLists R)
    (hF : F.Unobtrusive t E R)
    (hevents : ∀ e : Event,
      (σ.world.carried (.event e)).get? "_value_" = some (.text e.methodName))
    (hσ : σ.window = .open) (n : Told) :
    (alone (Walk.body F t)).Yields R σ (Walk.body F t (n.call o)) fun r σ' =>
      failure? r = none ∧ Strays E σ σ' := by
  have h₀ : Strays E σ σ := .refl hσ
  have htakes := ObserverClass.takesNotifications_of_legacy ho.legacy
  cases n with
  | before e args =>
    have hshown : σ.world.member (.observer o) Message.before.name = .ok (.bound .before) :=
      World.member_of_understands (by simp [World.understands, htakes])
        (ho.unhidden .before (by simp))
    have hp : σ.world.argumentProblem? (.observer o) .before
        (.event e :: args : List Value).length = none := by
      simp [World.argumentProblem?, World.parametersOf, Parameters.problem?, Parameters.atLeast]
    refine .bind (h₀.look hshown fun σ₁ hw₁ h₁ => ?_)
    refine .bind (h₁.look (r := .ok none) ?_ fun σ₂ _ h₂ => ?_)
    · rw [hw₁]
      exact congrArg Except.ok hp
    · exact ho.notes_before hlists hF hevents h₂ e args
  | after =>
    have hshown : σ.world.member (.observer o) Message.after.name = .ok (.bound .after) :=
      World.member_of_understands (by simp [World.understands, htakes])
        (ho.unhidden .after (by simp))
    refine .bind (h₀.look hshown fun σ₁ _ h₁ => ?_)
    refine .bind (h₁.look (r := .ok none) rfl fun σ₂ _ h₂ => ?_)
    exact ho.notes_after hlists hF h₂

end World.Equipped

namespace Cast

variable {X : Cast} {D : Ref .list → Prop}

/-- **Observers that keep notes are passive** on a thread that is alone. -/
theorem passive_of_equipped (hF : F.Unobtrusive X.thread D fun c _ => X.Notifies c) :
    X.Passive F D (fun w => ∀ o ∈ X.observers, w.Equipped D o) (alone (Walk.body F X.thread)) where
  body _ _ := rfl
  move σ hmind := ⟨.refl X D σ.world, hmind⟩
  hears σ o n ho hX hmind := by
    have hopen : (σ.calling (n.call o)).window = .open := by cases n <;> rfl
    have hlists : Recorder.SparesLists fun (c : Call κ) (_ : Moment ε κ) => X.Notifies c :=
      fun _ _ _ _ _ hne => absurd rfl hne
    have hequipped : (σ.calling (n.call o)).world.Equipped D o := hmind o ho
    have hheard : X.Notifies (n.call o : Call κ) := fun _ => by simp [heard?_call ho n]
    refine .invoke rfl hheard
      ((hequipped.notes hlists hF hX.events hopen n).mono fun r σ' h => ?_)
    obtain ⟨hr, hstrays⟩ := h
    have hbeside : World.Beside D σ.world σ'.world := hstrays.beside
    refine ⟨hr, hbeside.peaceful (fun _ hl => hl) X, fun o' ho' => ?_, rfl, ?_⟩
    · exact (hmind o' ho').frame hbeside.toFrame trivial (hbeside.observers o')
    · have hcalling : X.occasions (σ.calling (n.call o)).calls =
          X.occasions σ.calls ++ [.told o n] := by
        simp [Moment.calling, occasions, occasion?_call ho n]
      exact (hstrays.turns.occasions X).trans hcalling
  unminded w w' hw hmind o ho := (hmind o ho).frame hw.toFrame rfl (hw.observers o)

end Cast

end GuardedWalk
