import GuardedWalk.Proofs.Document.Agenda
import GuardedWalk.Proofs.Walk.Making
import GuardedWalk.Proofs.Walk.Recorder

/-!
# Collecting what a walk says

A recorder and a walker are made, the walker enters a document, and the notes of the recorder are
read. On a thread alone this comes to an end, and the notes are what the document says, except for
one thing: the walker works out until when competing threads would have to wait before it sees that
there are none, and fails if no clock goes that far, although its configuration was accepted.

## Main definitions

* `GuardedWalk.Walk.collectFrom` — collects what a walk says that enters a node by any event.

## Main results

* `GuardedWalk.Walk.collectFrom_features` — whole documents are entered by `features`.
* `GuardedWalk.Walk.collects_what_document_says` — what is collected, and when nothing is.
-/

set_option autoImplicit false

namespace GuardedWalk

variable {ε κ : Type}

/-! ## Recorders -/

namespace Recorder

/-- The recorder that is made next. -/
def next (w : World ε) : Recorder where
  observer := w.observers.next
  notes := w.lists.next
  opened := (w.lists.add #[]).next
  lock := w.locks.next

/-- The observer that a recorder is in the beginning. -/
def object (R : Recorder) : Observer where
  cls := .recording
  code := 0
  attributes := [(Observer.notesField, .list R.notes), (Observer.openField, .list R.opened),
    (Observer.lockField, .lock R.lock)]

/-- The world after a recorder has been made. -/
def made (w : World ε) : World ε :=
  { w with
    lists := (w.lists.add #[]).add #[]
    locks := w.locks.add default
    observers := w.observers.add (next w).object }

theorem newObserver_run (w : World ε) :
    (Act.newObserver .recording 0).run w = (.ok (.observer (next w).observer), made w) := rfl

theorem get_made (w : World ε) : (made w).observers.get (next w).observer = (next w).object := by
  simp [made, next, Store.get_add]

theorem additions_made (w : World ε) : w.Additions (made w) where
  nodes := rfl
  methods := rfl
  wrappers := rfl
  sessions := rfl
  noted := rfl
  lists := (Store.grows_add id ..).trans (Store.grows_add id ..)
  tuples := .refl _ _
  observers := Store.grows_add id ..
  guards _ hg := hg

theorem next_lt (w : World ε) :
    (next w).observer.index < (made w).observers.cells.size ∧
      (next w).notes.index < (made w).lists.cells.size ∧
      (next w).opened.index < (made w).lists.cells.size := by
  simp only [made, next, Store.next, Store.add, Array.size_push]
  omega

/-- The lists of a recorder that has just been made are new and empty. -/
theorem keeps_made (w : World ε) : (next w).Keeps w.lists.cells.size .blank (made w) := by
  have hcarried : (made w).carried (.observer (next w).observer) = (next w).object.attributes := by
    show ((made w).observers.get _).attributes = _
    rw [get_made]
  refine {
    cls := by rw [get_made]; rfl
    unhidden := World.unhidden_of_names (by rw [hcarried]; rfl)
    notesField := by rw [hcarried]; rfl
    openField := by rw [hcarried]; rfl
    lockField := by rw [hcarried]; rfl
    apart := ?apart, notesApart := ?notesApart, openApart := ?openApart
    opened := ?opened, notes := ⟨[], ?notes, rfl, by simp⟩ }
  case apart => simp [next, Store.next, Store.add]
  case notesApart => simp [next, Store.next]
  case openApart => simp [next, Store.next, Store.add]
  case opened => simp [World.items, made, next, Store.get_add, Record.blank]
  case notes =>
    show (((w.lists.add #[]).add #[]).get w.lists.next).toList = []
    rw [Store.get_add, Store.get_add]
    simp

/-- Nothing that is added changes what a recorder has noted. -/
theorem Keeps.additions {R : Recorder} {D : Ref .list → Prop} {k : Record} {w w' : World ε}
    (hk : R.Keeps D k w) (ha : w.Additions w')
    (ho : R.observer.index < w.observers.cells.size) (hn : R.notes.index < w.lists.cells.size)
    (hp : R.opened.index < w.lists.cells.size) : R.Keeps D k w' := by
  have hobserver : w'.observers.get R.observer = w.observers.get R.observer :=
    ha.observers.2 _ ho
  have hcarried : w'.carried (.observer R.observer) = w.carried (.observer R.observer) := by
    show (w'.observers.get R.observer).attributes = (w.observers.get R.observer).attributes
    rw [hobserver]
  exact hk.rests {
    cls := by rw [hobserver]
    carried := fun name _ => by rw [hcarried]
    notes := congrArg Array.toList (ha.lists.2 _ hn)
    opened := congrArg Array.toList (ha.lists.2 _ hp)
    tuples := ha.tuples }

/-- A recorder that is told what is balanced notes it as it is. -/
theorem after_announced {R : Recorder} {X : Cast} (hX : X.observers = [R.observer])
    {ns : List Notice} (hns : Balanced ns) :
    Record.after (X.announced ns) = ⟨ns.map Notice.note, []⟩ := by
  have hmap : X.announced ns = ns.map fun n => (R.observer, n.told) := by
    rw [List.map_eq_flatMap]
    simp [Cast.announced, Cast.toAll, hX]
  have hfold : Record.after (X.announced ns) = (ns.map Notice.told).foldl Record.hear .blank := by
    rw [hmap, Record.after, List.foldl_map, List.foldl_map]
  rw [hfold, hns.record]
  rfl

/-- A walk with a recorder tells everything or nothing. -/
theorem outcome_setting (R : Recorder) (X : Cast) (D : Ref .list → Prop) (root : Agenda κ) :
    (R.setting X D root : Setting ε κ).outcome [] =
      if X.timeout.outlastsTime then ([], some .numberTooLarge) else (root.occasions X, none) := by
  unfold Setting.outcome
  rw [Setting.tell_of_verdict fun _ => rfl]
  rfl

end Recorder

/-! ## Collecting -/

namespace Walk

open Routine Surroundings

/-- Makes a walker that enters a document by an event. -/
def walkFrom (e : Event) (document : Value) (observers : List Value) (config stepMother : Value) :
    Steps ε κ Value := do
  let walker ← newWalker observers config stepMother
  let _ ← send walker (.entry e) [document]
  return walker

/-- Collects what a walk says that enters a document by an event. -/
def collectFrom (e : Event) (document config : Value) : Steps ε κ (List Value) := do
  let recorder ← act (Act.newObserver .recording 0)
  let _ ← walkFrom e document [recorder] config .none
  let notes ← readAttr recorder Observer.notesField
  examine (·.elementsOf notes)

/-- Whole documents are entered by `features`. -/
theorem collectFrom_features (document config : Value) :
    (collectFrom .features document config : Steps ε κ (List Value)) =
      collectEvents document config := rfl

variable {F : Foreign ε κ} {t : Thread} {w : World ε} {root : Document} {config timeout : Value}
  {e : Event}

/-- A walker is made for a recorder that has just been made, and lets it note what the document
says, unless the walker cannot begin. -/
theorem walkFrom_yields (he : e.entersNode = true) (hroot : root.Fits w.lists.cells.size w)
    (hc : w.Takes config timeout)
    (hevents : ∀ e : Event, (w.carried (.event e)).get? "_value_" = some (.text e.methodName)) :
    (alone (Walk.body F t)).Yields (.free ε κ) ((Moment.start w).stepped (Recorder.made w))
      (walkFrom e root.value [.observer (Recorder.next w).observer] config .none) fun r σ =>
      if timeout.outlastsTime then r = .error .numberTooLarge
      else failure? r = none ∧ (Recorder.next w).Keeps w.lists.cells.size
        ⟨(around e [root.value] root.inside).map Notice.note, []⟩ σ.world := by
  let R := Recorder.next w
  let σ₁ : Moment ε κ := (Moment.start w).stepped (Recorder.made w)
  have hopen : σ₁.window = .open := rfl
  have hc₁ : σ₁.world.Takes config timeout := hc.of_configs rfl
  have hlegacy : ∀ o ∈ [R.observer], (σ₁.world.observers.get o).cls.kind = .legacy := by
    intro o ho
    rw [List.mem_singleton.1 ho]
    exact congrArg (fun x : Observer => x.cls.kind) (Recorder.get_made w)
  have hevents₁ : ∀ e : Event,
      (σ₁.world.carried (.event e)).get? "_value_" = some (.text e.methodName) := hevents
  unfold walkFrom
  refine .bind (newWalker_yields hopen hc₁ hlegacy hevents₁ .none
    fun X r σ₂ hX ht hthread hassembled hheld hadded hσ₂ hcalls => ?_)
  have hkeeps : R.Keeps w.lists.cells.size .blank σ₂.world := by
    obtain ⟨ho, hn, hp⟩ := Recorder.next_lt w
    exact (Recorder.keeps_made w).additions hadded ho hn hp
  have hgoing : (R.setting X w.lists.cells.size (root.entered e)).Going [] .idle [] σ₂ := by
    refine ⟨⟨hassembled, hheld, by simp, ?_⟩, hkeeps, ?_, hσ₂⟩
    · exact (((Recorder.additions_made w).trans hadded).fits hroot fun _ hl => hl).entered he
    · rw [hcalls]
      rfl
  refine .bind (((R.hosts hX hthread (root.isWritten_entered e)).walk
    (R.lasts_setting X _ _) (Event.ne_announce_of_entersNode he) rfl hgoing).mono ?_)
  rintro r σ₃ ⟨hg, hr⟩
  rw [Recorder.outcome_setting, ht] at hg hr
  cases htime : timeout.outlastsTime with
  | true =>
    rw [htime] at hr
    cases r with
    | ok a => cases hr
    | error f =>
      obtain rfl : f = .numberTooLarge := Option.some.inj hr
      simp
  | false =>
    rw [htime] at hg hr
    cases r with
    | error f => cases hr
    | ok a =>
      have hkept : R.Keeps w.lists.cells.size
          (.after (Occasion.callbacks ((root.entered e : Agenda κ).occasions X))) σ₃.world := hg.inv
      rw [Agenda.callbacks_occasions,
        Recorder.after_announced hX (root.entered e : Agenda κ).notices_balanced,
        Document.notices_entered] at hkept
      exact .pure ⟨rfl, hkept⟩

/-- What a recorder has noted is read. -/
theorem readNotes_yields {R : Recorder} {D : Ref .list → Prop} {k : Record} {σ : Moment ε κ}
    (hk : R.Keeps D k σ.world) :
    (alone (Walk.body F t)).Yields (.free ε κ) σ
      (do
        let notes ← readAttr (.observer R.observer) Observer.notesField
        examine (·.elementsOf notes)) fun r σ' =>
      ∃ notes, r = .ok notes ∧ notes.map σ'.world.note? = k.notes.map some := by
  obtain ⟨helements, hnotes⟩ := hk.read
  refine .bind (alone_step (Act.read_run (World.member_of_carried rfl hk.notesField)) ?_)
  exact alone_look helements ⟨_, rfl, hnotes⟩

/-- What is collected on a thread alone. -/
theorem collectFrom_yields (he : e.entersNode = true) (hroot : root.Fits w.lists.cells.size w)
    (hc : w.Takes config timeout)
    (hevents : ∀ e : Event, (w.carried (.event e)).get? "_value_" = some (.text e.methodName)) :
    (alone (Walk.body F t)).Yields (.free ε κ) (.start w)
      (collectFrom e root.value config) fun r σ =>
      if timeout.outlastsTime then r = .error .numberTooLarge
      else ∃ notes, r = .ok notes ∧ notes.map σ.world.note? =
        (around e [root.value] root.inside).map fun n => some n.note := by
  refine .bind (alone_step (Recorder.newObserver_run w) ?_)
  refine .bind ((walkFrom_yields he hroot hc hevents).mono fun r σ hr => ?_)
  cases htime : timeout.outlastsTime with
  | true =>
    rw [htime, if_pos rfl] at hr
    subst hr
    simp
  | false =>
    rw [htime, if_neg Bool.false_ne_true] at hr
    obtain ⟨hfine, hkeeps⟩ := hr
    cases r with
    | error f => cases hfine
    | ok a =>
      refine (readNotes_yields hkeeps).mono ?_
      rintro r σ' ⟨notes, rfl, hnotes⟩
      rw [List.map_map] at hnotes
      rw [if_neg Bool.false_ne_true]
      exact ⟨notes, rfl, hnotes⟩

/-- **A walk says what its document says.** On a thread that has the machine for itself, whatever
the thread is in the middle of, the collection of what a walk says comes to an end. If a clock can
be set to the end of the timeout, then the notes are what the document says, note by note. Otherwise
the walk fails before anything is noted, although the configuration was accepted. -/
theorem collects_what_document_says (he : e.entersNode = true)
    (hroot : root.Fits w.lists.cells.size w) (hc : w.Takes config timeout)
    (hevents : ∀ e : Event, (w.carried (.event e)).get? "_value_" = some (.text e.methodName))
    (next : Except Failure (List Value) → Program ε (Call κ) Outcome)
    (stack : List (Outcome → Program ε (Call κ) Outcome)) (others : List (Task ε (Call κ))) :
    ∃ r w', Machine.Reaches (Walk.body F)
        ⟨w, ⟨t, .running (Program.bind (collectFrom e root.value config) next), stack⟩, others⟩
        ⟨w', ⟨t, .running (next r), stack⟩, others⟩ ∧
      if timeout.outlastsTime then r = .error .numberTooLarge
      else ∃ notes, r = .ok notes ∧ notes.map w'.note? =
        (around e [root.value] root.inside).map fun n => some n.note := by
  obtain ⟨r, σ, hruns, -, hr⟩ := collectFrom_yields (F := F) (t := t) he hroot hc hevents
  exact ⟨r, σ.world, hruns.reaches next stack others, hr⟩

/-! ## A small document -/

namespace Patience

/-- More seconds than any clock counts. -/
def ages : Int := .ofNat (Nat.pow 10 400)

/-- A configuration that makes competing threads wait for ages. -/
def patient : Config :=
  (Config.plain (.dictionary ⟨0⟩)).changed [("ownership_timeout", .int ages)]

/-- The small document with the configuration. -/
def world : World Unit :=
  { Document.loginWorld with configs := ⟨#[patient]⟩, dictionaries := ⟨#[.empty]⟩ }

/-- The thread ends after what is collected has been handed over. -/
def finish (r : Except Failure (List Value)) : Program Unit (Call Empty) Outcome :=
  .done (r.map fun _ => .none)

/-- A thread that has not begun to collect what a walk of the small document says. -/
def begun (given : Value) : Machine Unit (Call Empty) :=
  ⟨world, ⟨default, .running (Program.bind
    (collectFrom .features Document.login.value given) finish), []⟩, []⟩

/-- The thread when it has. -/
def ended (w : World Unit) (r : Except Failure (List Value)) : Machine Unit (Call Empty) :=
  ⟨w, ⟨default, .running (finish r), []⟩, []⟩

theorem fits : Document.login.Fits world.lists.cells.size world := by
  have h : Document.login.Pristine world.lists.cells.size world := by
    constructor <;> decide
  exact h.fits

theorem takes : world.Takes (.config ⟨0⟩) (.int ages) := by
  refine .given ⟨0⟩ ?_ ?_ ?_
  · intro name hn
    have h : ∀ name ∈ Config.settingNames, (patient.attributes.get? name).isSome := by decide
    exact Option.isSome_iff_exists.1 (h name hn)
  · rw [World.problems_eq_nil_iff]
    exact {
      mode := rfl
      parkTimeout := .inl rfl
      ownershipTimeout := ⟨.whole ages, rfl, by decide +kernel⟩
      needsPolicy := fun h => by cases h
      customPolicy := .inl rfl
      options := rfl }
  · exact World.unhidden_of_names (w := world) (v := .config ⟨0⟩) (by decide)

end Patience

open Patience in
/-- The notes about the small document are collected under the configuration that is made when none
is given; under one that makes others wait too long nothing is. -/
theorem collects_small_document :
    (∃ notes w', Machine.Reaches (Walk.body (.silent .numberTooLarge)) (begun .none)
        (ended w' (.ok notes)) ∧
      notes.map w'.note? = (around .features [Document.login.value] Document.login.inside).map
        fun n => some n.note) ∧
    ∃ w', Machine.Reaches (Walk.body (.silent .numberTooLarge)) (begun (.config ⟨0⟩))
      (ended w' (.error .numberTooLarge)) := by
  constructor
  · obtain ⟨r, w', hreaches, hr⟩ := collects_what_document_says
      (F := .silent .numberTooLarge) (t := default) (e := .features) rfl fits .default
      (fun _ => rfl) finish [] []
    rw [if_neg (by decide)] at hr
    obtain ⟨notes, rfl, hnotes⟩ := hr
    exact ⟨notes, w', hreaches, hnotes⟩
  · have hages : (Value.int ages).outlastsTime = true := by decide +kernel
    have h := collects_what_document_says (F := .silent .numberTooLarge) (t := default)
      (e := .features) rfl fits takes (fun _ => rfl) finish [] []
    simp only [hages, if_true] at h
    obtain ⟨r, w', hreaches, rfl⟩ := h
    exact ⟨w', hreaches⟩

end Walk

end GuardedWalk
