import GuardedWalk.Proofs.Document.Agenda
import GuardedWalk.Proofs.Walk.Attending

/-!
# Walks among passive observers

A passive observer that is told something does what it does about it, and comes back. It does not
fail, notifies nobody itself, and leaves nodes alone and whatever the walk relies on. Among such
observers a walk through a document goes on to its end. All that is notified on the way is said by a
log: each of its entries is told to each observer of the walker, one after the other.

## Main definitions

* `GuardedWalk.Call.notified?` — the observer that a call notifies, by one protocol or the other.
* `GuardedWalk.fanOut` — what is called when observers are told a log.
* `GuardedWalk.Document.log` — what is said of a document in a walk.
* `GuardedWalk.Cast.Passive` — surroundings in which the observers of a walker are passive.

## Main results

* `GuardedWalk.filter_fanOut` — what each of the observers is told.
* `GuardedWalk.Cast.Passive.walk` — what a walk among passive observers notifies.
* `GuardedWalk.Cast.Attended.passive` — observers that only answer are passive.
-/

set_option autoImplicit false

namespace GuardedWalk

variable {ε κ : Type}

/-- The observer that a call notifies of something, by the older protocol or by the newer one. -/
def Call.notified? : Call κ → Option (Ref .observer)
  | send (.observer o) .before _ | send (.observer o) .after _ | send (.observer o) .onEvent _ =>
    some o
  | _ => none

/-- What is called when some observers are told a log: each entry is told to one observer after the
other. -/
def fanOut (os : List (Ref .observer)) (log : List Notice) : List (Call κ) :=
  log.flatMap fun n => os.map fun o => n.told.call o

/-- What is said of a document in a walk that enters it by an event; nothing if the walk cannot
begin. -/
def Document.log (root : Document) (e : Event) (timeout : Value) : List Notice :=
  if timeout.outlastsTime then [] else around e [root.value] root.inside

/-! ## What is notified -/

theorem Told.notified?_call (o : Ref .observer) (n : Told) :
    (n.call o : Call κ).notified? = some o := by
  cases n <;> rfl

/-- An observer is told each entry of a log as often as it is among the observers. -/
theorem filter_fanOut (os : List (Ref .observer)) (log : List Notice) (o : Ref .observer) :
    (fanOut os log : List (Call κ)).filter (·.notified? = some o) =
      log.flatMap fun n => List.replicate (os.count o) (n.told.call o) := by
  have hround : ∀ n : Told, (os.map fun o => (n.call o : Call κ)).filter (·.notified? = some o) =
      List.replicate (os.count o) (n.call o) := by
    intro n
    have hsame : ((fun c : Call κ => decide (c.notified? = some o)) ∘ fun o => n.call o) =
        (· == o) := by
      funext o'
      simp only [Function.comp_apply, n.notified?_call, Option.some.injEq]
      rfl
    rw [List.filter_map, hsame, List.filter_beq, List.map_replicate]
  rw [fanOut, List.filter_flatMap]
  exact congrArg log.flatMap (funext fun n => hround n.told)

namespace Cast

variable {X : Cast}

/-- A call notifies nobody, unless it is a callback to an observer of the walker. -/
def Notifies (X : Cast) (c : Call κ) : Prop := c.notified? ≠ none → X.heard? c ≠ none

/-- A walk notifies nobody itself but by callbacks. -/
theorem notified?_of_isOwn {c : Call κ} (hc : X.isOwn c = true) : c.notified? = none := by
  cases c with
  | send v m args =>
    cases m
    case before | after =>
      obtain rfl : v = .adapter X.adapter := of_decide_eq_true hc
      rfl
    case onEvent => cases hc
    all_goals cases v <;> rfl
  | _ => rfl

/-- If nobody else is notified, the callbacks are all that is notified. -/
theorem filter_notified? {calls : List (Call κ)} (h : ∀ c ∈ calls, X.Notifies c) :
    calls.filter (·.notified?.isSome) = (X.heard calls).map fun p => p.2.call p.1 := by
  induction calls with
  | nil => rfl
  | cons c rest ih =>
    have hrest := ih fun c hc => h c (List.mem_cons_of_mem _ hc)
    rw [heard, List.filterMap_cons, ← heard]
    cases hheard : X.heard? c with
    | none =>
      have hquiet : c.notified? = none :=
        Decidable.of_not_not fun hne => h c List.mem_cons_self hne hheard
      rw [List.filter_cons_of_neg (by simp [hquiet]), hrest]
    | some p =>
      have hc : c = p.2.call p.1 := (heard?_eq_some_iff.1 hheard).1
      rw [List.filter_cons_of_pos (by simp [hc, Told.notified?_call]), hrest, List.map_cons, ← hc]

/-- Observers are told what is announced. -/
theorem map_announced (X : Cast) (log : List Notice) :
    (X.announced log).map (fun p => p.2.call p.1) = (fanOut X.observers log : List (Call κ)) := by
  simp [announced, toAll, fanOut, List.map_flatMap, Function.comp_def]

/-! ## Passive observers -/

open World (Peaceful)

/-- Surroundings in which the observers of a walker are passive. An observer that is told something
does what it does without a failure; it notifies nobody itself, asks nobody and leaves nodes alone,
and whatever the walk relies on. Others may act between the steps of the walk, in the same way. What
the observers keep in mind is nothing to the walk. -/
structure Passive (X : Cast) (F : Foreign ε κ) (D : Ref .list → Prop) (mind : World ε → Prop)
    (S : Surroundings ε κ) : Prop where
  body : ∀ c, X.occasion? c = none → S.body c = some (Walk.body F X.thread c)
  move : ∀ σ, mind σ.world → Peaceful X D σ.world (S.move σ) ∧ mind (S.move σ)
  hears : ∀ σ o (n : Told), o ∈ X.observers → X.Assembled σ.world → mind σ.world →
    S.Yields (fun c _ => X.Notifies c) σ (Routine.invoke (n.call o)) fun r σ' =>
      failure? r = none ∧ Peaceful X D σ.world σ'.world ∧ mind σ'.world ∧ σ'.window = .open ∧
        X.occasions σ'.calls = X.occasions σ.calls ++ [.told o n]
  unminded : ∀ w w' : World ε, w.Mild w' → mind w → mind w'

/-- The setting of a walk among passive observers. -/
def amid (X : Cast) (D : Ref .list → Prop) (A : Agenda κ) (mind : World ε → Prop) :
    Setting ε κ where
  cast := X
  strict := false
  lists := D
  root := A
  inv w _ := mind w
  verdict _ := none
  rule c _ := X.Notifies c

variable {F : Foreign ε κ} {D : Ref .list → Prop} {mind : World ε → Prop} {S : Surroundings ε κ}
  {A : Agenda κ} {w : World ε} {root : Document} {e : Event}

/-- Passive observers let a walk go on. -/
theorem Passive.hosts (h : X.Passive F D mind S) (hA : A.IsWritten) :
    (X.amid D A mind).Hosts F S where
  body c hc := h.body c (occasion?_of_isOwn (X := X) hc)
  own c _ hc hne := absurd (notified?_of_isOwn (X := X) hc) hne
  move _ _ σ _ hw hi := ⟨(h.move σ hi).1.scene hw, (h.move σ hi).2⟩
  coded := hA.coded F X.thread _
  onward w w' _ hf hi := h.unminded w w' hf.toMild hi
  guards _ _ _ w _ v hw hv hi := by
    obtain ⟨b, w', hrun, hstill, -⟩ := World.install_run F.obstruct hv.1 hw.assembled.guardOpen
    rw [hrun]
    exact h.unminded w w' hstill.toMild hi
  hears pins s d L σ o n ho _ hg := by
    refine (h.hears σ o n ho hg.scene.assembled hg.inv).mono ?_
    rintro r σ' ⟨hr, hpeace, hmind, hopen, hcalls⟩
    refine ⟨⟨hpeace.scene hg.scene, hmind, ?_, hopen⟩, hr⟩
    have hone : [(.told o n : Occasion κ)].filter Occasion.isCall = [.told o n] := rfl
    rw [List.filter_append, hone]
    exact hcalls.trans (congrArg (· ++ _) hg.heard)
  answers _ _ _ _ c hc := by
    rw [show (X.amid D A mind : Setting ε κ).root.asks = [] from hA.asks] at hc
    cases hc

/-- **A walk among passive observers comes to an end.** Each entry of the log of the document is
told to one observer of the walker after the other, and nothing else is notified. -/
theorem Passive.walk (h : X.Passive F D mind S) (hX : X.Assembled w) (hi : Held w X .idle)
    (hroot : root.Fits D w) (he : e.entersNode = true) (hmind : mind w) :
    ∃ r σ, S.Runs (Walk.send (.walker X.walker) (.entry e) [root.value]) (.start w) r σ ∧
      failure? r = (if X.timeout.outlastsTime then some .numberTooLarge else none) ∧
      σ.calls.filter (·.notified?.isSome) = fanOut X.observers (root.log e X.timeout) := by
  have hwritten : (root.entered e : Agenda κ).IsWritten := root.isWritten_entered e
  have hZ := h.hosts hwritten
  obtain ⟨r, σ, hruns, hrule, hg, hr⟩ := hZ.walk (fun _ _ _ hf hi => h.unminded _ _ hf.toMild hi)
    (Event.ne_announce_of_entersNode he) rfl
    (going_start (Z := X.amid D (root.entered e) mind) ⟨hX, hi, by simp, hroot.entered he⟩ hmind)
  have houtcome : (X.amid D (root.entered e) mind : Setting ε κ).outcome [] =
      if X.timeout.outlastsTime then ([], some .numberTooLarge)
      else ((root.entered e).occasions X, none) := by
    unfold Setting.outcome
    rw [Setting.tell_of_verdict fun _ => rfl]
    rfl
  rw [houtcome] at hg hr
  have hnotified : ∀ c ∈ σ.calls, X.Notifies c := by
    intro c hc
    rcases hruns.calls c hc with hc | ⟨σ₁, hσ₁⟩
    · cases hc
    · exact hrule c σ₁ hσ₁
  have hheard : X.heard σ.calls = X.announced (root.log e X.timeout) := by
    have hcalls : X.occasions σ.calls = _ := hg.heard
    rw [← callbacks_occasions, hcalls, Occasion.callbacks_filter, Document.log]
    split
    · rfl
    · rw [Agenda.callbacks_occasions, Document.notices_entered]
  refine ⟨r, σ, hruns, ?_, ?_⟩
  · rw [hr]
    split <;> rfl
  · rw [filter_notified? hnotified, hheard, map_announced]

/-- Observers are passive of which nothing is known but that their answers are no failures, and that
they leave alone what the walk relies on. -/
theorem Attended.passive (h : X.Attended F D (fun _ => none) S) :
    X.Passive F D (fun _ => True) S where
  body c hc := by
    rw [h.body, hc]
    rfl
  move σ _ := ⟨h.move σ, trivial⟩
  hears σ o n ho _ _ := by
    have hx : X.occasion? (n.call o : Call κ) = some (.told o n) := occasion?_call ho n
    have hbody : S.body (n.call o) = none := by
      rw [h.body, hx]
      rfl
    refine .left hbody (fun _ => by simp [heard?_call ho n]) ⟨h.verdict σ _ _ hx, h.reply σ _,
      trivial, rfl, ?_⟩
    simp [Moment.answered, occasions, hx]
  unminded _ _ _ _ := trivial

end Cast

end GuardedWalk
