import GuardedWalk.Proofs.Parking.Registry
import GuardedWalk.Reports

/-!
# Threads that are parked

Any number of threads are parked by one policy, wait until they are woken or out of time, remove
their entries and go on, while others wake some or all of them, in any order. A step of this system
is one section that runs under the lock of the policy, the end of a wait, or the look at the entry
with which a parked call ends.

## Main definitions

* `GuardedWalk.Parking.Lot` — the world with the parked calls.
* `GuardedWalk.Parking.Lot.Step`, `Runs` — one step, and any number of them.
* `GuardedWalk.Parking.wakesOf` — the wakes that have counted a call.
* `GuardedWalk.Parking.Lot.Sound` — what holds throughout.

## Main results

* `GuardedWalk.Parking.Lot.Sound.step` — every step keeps what holds throughout.
* `GuardedWalk.Parking.Lot.Runs.sound` — so it holds after any run.

## Design

A wait may end by the time being over at any moment here, also when the call has been woken; what
holds of all these runs holds of those in which it does not.
-/

set_option autoImplicit false

namespace GuardedWalk

namespace Parking

open Act

variable {ε : Type}

/-- The calls that a wake of a policy is meant for. -/
def counted (p : Ref .policy) (number : Value) : Act ε (List Value) := do
  lock p
  meant (← registry p) number

/-- The calls that a wake of a policy counts; none if it fails. -/
def countedIn (p : Ref .policy) (number : Value) (w : World ε) : List Value :=
  match ((counted p number).run w).1 with
  | .ok calls => calls
  | .error _ => []

/-- How a parked call ends, given what there is to be told about it and whether its wait was ended
by a wake. -/
def verdict (a : Attempt) (r : Ref .parked) (woken : Bool) : Act ε Value := do
  if ← isCancelled r then throw (.foreignTraversal a .cancelled)
  else if !woken then throw (.foreignTraversal a .timeout)
  else return .none

/-! ## The system -/

/-- How far a parked call has come. -/
inductive Stage where
  /-- The thread waits. -/
  | waiting
  /-- The wait is over, by a wake or because of the time; the entry is still registered. -/
  | ended (woken : Bool)
  /-- The entry has been removed. -/
  | removed (woken : Bool)

namespace Stage

/-- Whether the entry of the call is registered. -/
def isRegistered : Stage → Bool
  | waiting | ended _ => true
  | removed _ => false

/-- Whether the wait has been ended by a wake. -/
def isByWake : Stage → Bool
  | waiting => false
  | ended woken | removed woken => woken

end Stage

/-- A call that a policy has parked. -/
structure Stay where
  /-- The suspended thread. -/
  thread : Thread
  /-- The entry of the call. -/
  entry : Ref .parked
  /-- The node that was to be traversed. -/
  node : Value
  /-- Who was to traverse it. -/
  visitor : Value
  /-- How far the call has come. -/
  stage : Stage

/-- What there is to be told about a call. -/
def Stay.attempt (y : Stay) (w : World ε) : Attempt := w.attempt y.thread y.node y.visitor

/-- The threads that are parked by a policy. -/
structure Lot (ε : Type) where
  /-- The world. -/
  world : World ε
  /-- The parked calls that have not ended, in the order in which they came. -/
  stays : List Stay

/-- What a step is. -/
inductive Label where
  /-- A call is parked. -/
  | park (x : Ref .parked)
  /-- Some calls are woken, by a cancellation or so that they go on. -/
  | wake (cancelled : Bool) (calls : List Value) (r : Except Failure Nat)
  /-- A wait ends, by a wake or because of the time. -/
  | ended (x : Ref .parked) (woken : Bool)
  /-- The entry of a call is removed. -/
  | remove (x : Ref .parked)
  /-- A parked call ends. -/
  | answer (x : Ref .parked) (o : Outcome)
  /-- Something has happened elsewhere. -/
  | elsewhere

/-- The wakes that have counted a call, and whether they were cancellations. -/
def wakesOf (x : Ref .parked) (ls : List Label) : List Bool :=
  ls.filterMap fun
    | .wake cancelled calls _ => if .parked x ∈ calls then some cancelled else none
    | _ => none

/-- Whether a step is a wake. -/
def Label.isWake : Label → Bool
  | wake .. => true
  | _ => false

variable {l : Label} {ls : List Label}

theorem wakesOf_append (x : Ref .parked) (ls ls' : List Label) :
    wakesOf x (ls ++ ls') = wakesOf x ls ++ wakesOf x ls' := List.filterMap_append

theorem wakesOf_of_not_wake (x : Ref .parked) (hl : l.isWake = false) :
    wakesOf x (ls ++ [l]) = wakesOf x ls := by
  rw [wakesOf_append]
  cases l <;> simp [wakesOf, Label.isWake] at hl ⊢

/-- What becomes of the wakes of a call with one more of them. -/
theorem wakesOf_wake (x : Ref .parked) (cancelled : Bool) (calls : List Value)
    (r : Except Failure Nat) :
    wakesOf x (ls ++ [.wake cancelled calls r]) =
      wakesOf x ls ++ if .parked x ∈ calls then [cancelled] else [] := by
  rw [wakesOf_append]
  by_cases h : .parked x ∈ calls <;> simp [wakesOf, h]

/-- The entries of some calls that are still registered. -/
def entriesOf (l : List Stay) : Entries :=
  (l.filter fun y => y.stage.isRegistered).map fun y => (y.thread, y.entry)

theorem entriesOf_append (l l' : List Stay) :
    entriesOf (l ++ l') = entriesOf l ++ entriesOf l' := by
  simp [entriesOf]

theorem entriesOf_cons (y : Stay) (l : List Stay) :
    entriesOf (y :: l) =
      (if y.stage.isRegistered then [(y.thread, y.entry)] else []) ++ entriesOf l := by
  cases h : y.stage.isRegistered <;> simp [entriesOf, h]

theorem mem_entriesOf {l : List Stay} {e : Thread × Ref .parked} (h : e ∈ entriesOf l) :
    ∃ y ∈ l, y.stage.isRegistered = true ∧ (y.thread, y.entry) = e := by
  obtain ⟨y, hy, he⟩ := List.mem_map.1 h
  obtain ⟨hy, hr⟩ := List.mem_filter.1 hy
  exact ⟨y, hy, hr, he⟩

/-- Without the entries of a thread that none of the calls is of, there are as many as before. -/
theorem filter_entriesOf {l : List Stay} {t : Thread} (h : ∀ y ∈ l, y.thread.id ≠ t.id) :
    (entriesOf l).filter (fun e => e.1.id ≠ t.id) = entriesOf l := by
  refine List.filter_eq_self.2 fun e he => ?_
  obtain ⟨y, hy, -, rfl⟩ := mem_entriesOf he
  simpa using h y hy

namespace Lot

/-- The registered calls, in the order in which they came. -/
def registered (s : Lot ε) : Entries := entriesOf s.stays

/-- What happens elsewhere: the policy and its registry are left alone, and the calls that it has
parked. -/
structure Elsewhere (p : Ref .policy) (s : Lot ε) (w' : World ε) : Prop where
  policy : w'.carried (.policy p) = s.world.carried (.policy p)
  registry : ∀ d, s.world.ownValue (.policy p) Policy.registryField = .dictionary d →
    w'.dictionaries.get d = s.world.dictionaries.get d
  stays : ∀ y ∈ s.stays, w'.parked.get y.entry = s.world.parked.get y.entry
  size : s.world.parked.cells.size ≤ w'.parked.cells.size

/-- One step. -/
inductive Step (obstruct : Obstruction ε) (p : Ref .policy) (s : Lot ε) : Label → Lot ε → Prop where
  /-- A thread that is not parked is parked. -/
  | park {t : Thread} {node visitor : Value} {x : Ref .parked} {w' : World ε}
    (ht : ∀ y ∈ s.stays, y.thread.id ≠ t.id)
    (run : (Parking.park t p node visitor).run s.world = (.ok x, w')) :
    Step obstruct p s (.park x) ⟨w', s.stays ++ [⟨t, x, node, visitor, .waiting⟩]⟩
  /-- Calls are woken: all of them, or the one of the thread of a number. -/
  | wake (number : Value) (cancelled : Bool) :
    Step obstruct p s
      (.wake cancelled (countedIn p number s.world)
        ((Parking.wake obstruct p number (.bool cancelled)).run s.world).1)
      { s with world := ((Parking.wake obstruct p number (.bool cancelled)).run s.world).2 }
  /-- A wait ends. -/
  | ended {before after : List Stay} {y : Stay} {woken : Bool} {w' : World ε}
    (hy : s.stays = before ++ y :: after) (waiting : y.stage = .waiting)
    (hw : woken = true → isWoken s.world y.entry = true)
    (run : (leave y.entry).run s.world = (.ok (), w')) :
    Step obstruct p s (.ended y.entry woken)
      ⟨w', before ++ { y with stage := .ended woken } :: after⟩
  /-- A thread whose wait is over removes its entry. -/
  | remove {before after : List Stay} {y : Stay} {woken : Bool} {w' : World ε}
    (hy : s.stays = before ++ y :: after) (isOver : y.stage = .ended woken)
    (run : (unpark y.thread p).run s.world = (.ok (), w')) :
    Step obstruct p s (.remove y.entry)
      ⟨w', before ++ { y with stage := .removed woken } :: after⟩
  /-- A thread whose entry has been removed looks at it and ends the call; what there is to be told
  about the call was found out before. -/
  | answer {before after : List Stay} {y : Stay} {woken : Bool} (w₀ : World ε)
    (hy : s.stays = before ++ y :: after) (isRemoved : y.stage = .removed woken) :
    Step obstruct p s
      (.answer y.entry ((verdict (y.attempt w₀) y.entry woken).run s.world).1)
      ⟨((verdict (y.attempt w₀) y.entry woken).run s.world).2, before ++ after⟩
  /-- Something happens elsewhere. -/
  | elsewhere (w' : World ε) (hw : Elsewhere p s w') :
    Step obstruct p s .elsewhere { s with world := w' }

/-- Any number of steps. -/
inductive Runs (obstruct : Obstruction ε) (p : Ref .policy) : Lot ε → List Label → Lot ε → Prop where
  /-- No step. -/
  | refl (s : Lot ε) : Runs obstruct p s [] s
  /-- Steps and one more. -/
  | snoc {s s' s'' : Lot ε} {ls : List Label} {l : Label} (h : Runs obstruct p s ls s')
      (hl : Step obstruct p s' l s'') : Runs obstruct p s (ls ++ [l]) s''

/-- In the beginning the policy has just been made, with some timeout, and has parked nobody. -/
structure Starts (p : Ref .policy) (s : Lot ε) : Prop where
  fresh : ∃ (timeout : Value) (k : Ref .lock) (d : Ref .dictionary),
    s.world.policies.get p = ⟨.park, Policy.parking timeout (.lock k) (.dictionary d)⟩ ∧
      s.world.dictionaries.get d = .empty
  stays : s.stays = []

/-! ## What holds throughout -/

/-- The entry of a call tells of the wakes that have counted the call, given the steps so far. -/
structure Tells (ls : List Label) (w : World ε) (y : Stay) : Prop where
  stored : y.entry.index < w.parked.cells.size
  /-- A call is woken exactly if some wake has counted it. -/
  woken : isWoken w y.entry = !(wakesOf y.entry ls).isEmpty
  /-- The last wake that has counted a call decides whether it is cancelled. -/
  cancelled : w.ownValue (.parked y.entry) ParkedCall.cancelledField =
    .bool (decide ((wakesOf y.entry ls).getLast? = some true))
  /-- A wait that was ended by a wake was ended by one that has counted the call. -/
  byWake : y.stage.isByWake = true → wakesOf y.entry ls ≠ []

/-- What holds throughout, given the steps so far. -/
structure Sound (p : Ref .policy) (ls : List Label) (s : Lot ε) : Prop where
  /-- The registry holds the calls whose entries have not been removed. -/
  keeps : ∃ d, Keeps s.world p d s.registered
  /-- No thread is parked twice, and no two calls have the same entry. -/
  distinct : s.stays.Pairwise fun y z => y.thread.id ≠ z.thread.id ∧ y.entry ≠ z.entry
  tells : ∀ y ∈ s.stays, Tells ls s.world y
  /-- Only calls that have been parked are counted. -/
  past : ∀ x, wakesOf x ls ≠ [] → x.index < s.world.parked.cells.size

variable {obstruct : Obstruction ε} {p : Ref .policy} {s s' : Lot ε} {w w' : World ε} {y : Stay}

/-- What an entry tells does not change in a step that wakes nobody and leaves it alone. -/
theorem Tells.same (h : Tells ls w y) (hl : l.isWake = false)
    (hsize : w.parked.cells.size ≤ w'.parked.cells.size)
    (hwoken : (w'.parked.get y.entry).woken = (w.parked.get y.entry).woken)
    (hattributes : (w'.parked.get y.entry).attributes = (w.parked.get y.entry).attributes) :
    Tells (ls ++ [l]) w' y where
  stored := Nat.lt_of_lt_of_le h.stored hsize
  woken := by
    rw [wakesOf_of_not_wake _ hl, ← h.woken]
    exact hwoken
  cancelled := by
    rw [wakesOf_of_not_wake _ hl, ← h.cancelled]
    simp only [World.ownValue, World.own?, hattributes]
  byWake hw := by
    rw [wakesOf_of_not_wake _ hl]
    exact h.byWake hw

/-- A call comes further; if its wait is ended by a wake, it has been woken. -/
theorem Tells.comes (h : Tells ls w y) (stage : Stage)
    (hw : stage.isByWake = true → isWoken w y.entry = true) :
    Tells ls w { y with stage := stage } where
  stored := h.stored
  woken := h.woken
  cancelled := h.cancelled
  byWake hs hnil := by
    have := h.woken
    rw [hw hs] at this
    simp [hnil] at this

/-- A call that has just been parked has not been counted by any wake. -/
theorem Sound.wakesOf_next (h : Sound p ls s) : wakesOf s.world.parked.next ls = [] := by
  by_cases hw : wakesOf s.world.parked.next ls = []
  · exact hw
  · exact absurd (h.past _ hw) (Nat.lt_irrefl _)

/-- What becomes of the calls that are counted by a wake. -/
theorem Tells.wake (h : Tells ls w y) (cancelled : Bool) (calls : List (Ref .parked))
    (r : Except Failure Nat) :
    Tells (ls ++ [.wake cancelled (calls.map .parked) r]) (w.woken cancelled calls) y := by
  have hget := World.get_woken w cancelled calls y.entry
  have hcancelled := h.cancelled
  refine ⟨Nat.lt_of_lt_of_le h.stored (World.size_woken _ _ _), ?_, ?_, fun hw => ?_⟩
  · by_cases hy : y.entry ∈ calls
    · simp [wakesOf_wake, isWoken, hget, hy]
    · simpa [wakesOf_wake, isWoken, hget, hy] using h.woken
  · simp only [World.ownValue, World.own?] at hcancelled ⊢
    by_cases hy : y.entry ∈ calls
    · simp [wakesOf_wake, hget, hy, Attributes.value, Attributes.get?_set]
    · simpa [wakesOf_wake, hget, hy] using hcancelled
  · rw [wakesOf_wake]
    simp [h.byWake hw]

/-- What a wake does: it wakes the calls that it counts, which are registered, and says how many
these are. -/
theorem Sound.wake_run (h : Sound p ls s) (obstruct : Obstruction ε) (number : Value)
    (cancelled : Bool) :
    ∃ calls : List (Ref .parked), countedIn p number s.world = calls.map .parked ∧
      calls.Sublist (s.registered.map (·.2)) ∧
      ((Parking.wake obstruct p number (.bool cancelled)).run s.world).2 =
        s.world.woken cancelled calls ∧
      ∀ n, ((Parking.wake obstruct p number (.bool cancelled)).run s.world).1 = .ok n →
        n = calls.length := by
  obtain ⟨d, hd⟩ := h.keeps
  have hrun : (counted p number).run s.world =
      ((meantIn s.world s.registered number).map (List.map .parked), s.world) := by
    simp only [counted, run_bind, lock_run hd, registry_run hd, meant_run hd]
  simp only [Parking.wake_run hd, countedIn, hrun]
  cases hm : meantIn s.world s.registered number with
  | error f => exact ⟨[], rfl, List.nil_sublist _, rfl, by simp⟩
  | ok calls =>
    exact ⟨calls, rfl, sublist_of_meantIn hm, rfl, fun n hn => (Except.ok.inj hn).symm⟩

theorem mem_registered {s : Lot ε} {x : Ref .parked} (h : x ∈ s.registered.map (·.2)) :
    ∃ y ∈ s.stays, y.stage.isRegistered = true ∧ y.entry = x := by
  obtain ⟨e, he, rfl⟩ := List.mem_map.1 h
  obtain ⟨y, hy, hr, rfl⟩ := mem_entriesOf he
  exact ⟨y, hy, hr, rfl⟩

/-! ## Steps -/

/-- In the beginning nothing has been counted. -/
theorem Starts.sound (h : Starts p s) : Sound p [] s := by
  obtain ⟨timeout, k, d, hp, hd⟩ := h.fresh
  refine ⟨⟨d, ⟨k, ?_⟩, ?_, ?_⟩, ?_, ?_, fun x hx => absurd rfl hx⟩
  · simp only [World.ownValue, World.own?, hp]
    rfl
  · simp only [World.ownValue, World.own?, hp]
    rfl
  · rw [hd, registered, h.stays]
    rfl
  · rw [h.stays]
    exact .nil
  · intro y hy
    rw [h.stays] at hy
    cases hy

/-- A thread that is not parked is entered behind all others. -/
theorem Sound.park_run (h : Sound p ls s) {t : Thread} (ht : ∀ y ∈ s.stays, y.thread.id ≠ t.id)
    (node visitor : Value) :
    ∃ w', (Parking.park t p node visitor).run s.world = (.ok s.world.parked.next, w') ∧
      (∃ d, Keeps w' p d (s.registered ++ [(t, s.world.parked.next)])) ∧
      w'.parked = s.world.parked.add (.new t node visitor (.lock s.world.locks.next)) ∧
      w'.policies = s.world.policies := by
  obtain ⟨d, hd⟩ := h.keeps
  have hfree : ∀ e ∈ s.registered, e.1.id ≠ t.id := fun e he => by
    obtain ⟨y, hy, -, rfl⟩ := mem_entriesOf he
    exact ht y hy
  obtain ⟨w', hrun, hkeeps, hparked, hpolicies⟩ := Parking.park_run hd hfree node visitor
  exact ⟨w', hrun, ⟨d, hkeeps⟩, hparked, hpolicies⟩

/-- What has become of the world when a thread has been parked. -/
theorem Sound.parked (h : Sound p ls s) {t : Thread} {node visitor : Value} {x : Ref .parked}
    (ht : ∀ y ∈ s.stays, y.thread.id ≠ t.id)
    (run : (Parking.park t p node visitor).run s.world = (.ok x, w')) :
    x = s.world.parked.next ∧
      (∃ d, Keeps w' p d (s.registered ++ [(t, s.world.parked.next)])) ∧
      w'.parked = s.world.parked.add (.new t node visitor (.lock s.world.locks.next)) ∧
      w'.policies = s.world.policies := by
  obtain ⟨w₁, hrun, hw⟩ := h.park_run ht node visitor
  obtain ⟨hx, rfl⟩ := Prod.mk.inj (run.symm.trans hrun)
  exact ⟨Except.ok.inj hx, hw⟩

/-- What has become of the world when the entry of a thread has been removed. -/
theorem Sound.unparked (h : Sound p ls s) {t : Thread}
    (run : (unpark t p).run s.world = (.ok (), w')) :
    (∃ d, Keeps w' p d (s.registered.filter fun e => e.1.id ≠ t.id)) ∧
      w'.parked = s.world.parked ∧ w'.policies = s.world.policies := by
  obtain ⟨d, hd⟩ := h.keeps
  obtain ⟨w₁, hrun, hkeeps, hw⟩ := unpark_run hd t
  obtain ⟨-, rfl⟩ := Prod.mk.inj (run.symm.trans hrun)
  exact ⟨⟨d, hkeeps⟩, hw⟩

/-- An entry that is new is not the one of any call. -/
theorem Sound.entry_ne_next (h : Sound p ls s) (hy : y ∈ s.stays) :
    y.entry ≠ s.world.parked.next := by
  intro he
  have hstored := (h.tells y hy).stored
  rw [he] at hstored
  exact Nat.lt_irrefl _ hstored

/-- A thread that is not parked is parked. -/
theorem Sound.park (h : Sound p ls s) {t : Thread} {node visitor : Value} {x : Ref .parked}
    (ht : ∀ y ∈ s.stays, y.thread.id ≠ t.id)
    (run : (Parking.park t p node visitor).run s.world = (.ok x, w')) :
    Sound p (ls ++ [.park x]) ⟨w', s.stays ++ [⟨t, x, node, visitor, .waiting⟩]⟩ := by
  obtain ⟨rfl, ⟨d, hkeeps⟩, hparked, -⟩ := h.parked ht run
  have hsize : s.world.parked.cells.size < w'.parked.cells.size := by
    simp [hparked, Store.add]
  have hwakes (y : Ref .parked) :
      wakesOf y (ls ++ [.park s.world.parked.next]) = wakesOf y ls := wakesOf_of_not_wake _ rfl
  refine ⟨⟨d, ?_⟩, ?_, fun y hy => ?_, fun y hy => ?_⟩
  · rw [registered, entriesOf_append]
    exact hkeeps
  · refine List.pairwise_append.2 ⟨h.distinct, List.pairwise_singleton _ _, fun y hy z hz => ?_⟩
    obtain rfl := List.mem_singleton.1 hz
    exact ⟨ht y hy, h.entry_ne_next hy⟩
  · rcases List.mem_append.1 hy with hy | hy
    · have hget : w'.parked.get y.entry = s.world.parked.get y.entry := by
        simp [hparked, Store.get_add, h.entry_ne_next hy]
      exact (h.tells y hy).same rfl (Nat.le_of_lt hsize) (by rw [hget]) (by rw [hget])
    · obtain rfl := List.mem_singleton.1 hy
      refine ⟨hsize, ?_, ?_, fun hw => by simp [Stage.isByWake] at hw⟩
      · simp [hwakes, h.wakesOf_next, isWoken, hparked, Store.get_add, ParkedCall.new]
      · simp only [hwakes, h.wakesOf_next, World.ownValue, World.own?, hparked, Store.get_add,
          if_true]
        rfl
  · rw [hwakes] at hy
    exact Nat.lt_trans (h.past y hy) hsize

/-- Calls are woken. -/
theorem Sound.wake (h : Sound p ls s) (obstruct : Obstruction ε) (number : Value)
    (cancelled : Bool) :
    Sound p
      (ls ++ [.wake cancelled (countedIn p number s.world)
        ((Parking.wake obstruct p number (.bool cancelled)).run s.world).1])
      { s with world := ((Parking.wake obstruct p number (.bool cancelled)).run s.world).2 } := by
  obtain ⟨d, hd⟩ := h.keeps
  obtain ⟨calls, hcalls, hsub, hworld, -⟩ := h.wake_run obstruct number cancelled
  rw [hworld, hcalls]
  refine ⟨⟨d, hd.woken cancelled calls⟩, h.distinct, fun y hy => (h.tells y hy).wake _ _ _,
    fun y hy => Nat.lt_of_lt_of_le ?_ (World.size_woken _ _ _)⟩
  by_cases hw : wakesOf y ls = []
  · have hmem : y ∈ calls := by
      rw [wakesOf_wake, hw] at hy
      simpa using hy
    obtain ⟨z, hz, -, rfl⟩ := mem_registered (hsub.subset hmem)
    exact (h.tells z hz).stored
  · exact h.past y hw

/-- A call comes further, in a step that keeps what is in the entries. -/
theorem Sound.move (h : Sound p ls s) {before after : List Stay} {stage : Stage}
    (hy : s.stays = before ++ y :: after) (hl : l.isWake = false)
    (hkeeps : ∃ d, Keeps w' p d (entriesOf (before ++ { y with stage := stage } :: after)))
    (hsize : s.world.parked.cells.size ≤ w'.parked.cells.size)
    (hget : ∀ x, (w'.parked.get x).woken = (s.world.parked.get x).woken ∧
      (w'.parked.get x).attributes = (s.world.parked.get x).attributes)
    (hstage : stage.isByWake = true → isWoken s.world y.entry = true) :
    Sound p (ls ++ [l]) ⟨w', before ++ { y with stage := stage } :: after⟩ where
  keeps := hkeeps
  distinct := by
    have := h.distinct
    rw [hy] at this
    simpa [List.pairwise_append] using this
  tells z hz := by
    have htells := h.tells
    rw [hy] at htells
    refine Tells.same ?_ hl hsize (hget _).1 (hget _).2
    simp only [List.mem_append, List.mem_cons] at hz
    rcases hz with hz | rfl | hz
    · exact htells z (List.mem_append_left _ hz)
    · exact (htells y (by simp)).comes stage hstage
    · exact htells z (by simp [hz])
  past x hx := by
    rw [wakesOf_of_not_wake _ hl] at hx
    exact Nat.lt_of_lt_of_le (h.past x hx) hsize

/-- A wait ends. -/
theorem Sound.ended (h : Sound p ls s) {before after : List Stay} {woken : Bool}
    (hy : s.stays = before ++ y :: after) (waiting : y.stage = .waiting)
    (hw : woken = true → isWoken s.world y.entry = true)
    (run : (leave y.entry).run s.world = (.ok (), w')) :
    Sound p (ls ++ [.ended y.entry woken])
      ⟨w', before ++ { y with stage := .ended woken } :: after⟩ := by
  obtain ⟨d, hd⟩ := h.keeps
  obtain ⟨-, rfl⟩ := Prod.mk.inj run
  refine h.move hy rfl ⟨d, ?_⟩ (Store.size_modify _ _ _) (fun x => ?_) hw
  · rw [registered, hy, entriesOf_append, entriesOf_cons, waiting] at hd
    rw [entriesOf_append, entriesOf_cons]
    exact hd.of_eq rfl rfl
  · simp only [Store.get_modify]
    by_cases hx : x = y.entry <;> simp [hx]

/-- A thread whose wait is over removes its entry. -/
theorem Sound.remove (h : Sound p ls s) {before after : List Stay} {woken : Bool}
    (hy : s.stays = before ++ y :: after) (isOver : y.stage = .ended woken)
    (run : (unpark y.thread p).run s.world = (.ok (), w')) :
    Sound p (ls ++ [.remove y.entry])
      ⟨w', before ++ { y with stage := .removed woken } :: after⟩ := by
  obtain ⟨⟨d, hkeeps⟩, hparked, -⟩ := h.unparked run
  have htells := h.tells y (by simp [hy])
  refine h.move hy rfl ⟨d, ?_⟩ (Nat.le_of_eq (by rw [hparked]))
    (fun x => by simp [hparked]) (fun hb => ?_)
  · have hdistinct := h.distinct
    rw [hy, List.pairwise_append, List.pairwise_cons] at hdistinct
    obtain ⟨-, ⟨hafter, -⟩, hbefore⟩ := hdistinct
    rw [registered, hy, entriesOf_append, entriesOf_cons, isOver, List.filter_append,
      List.filter_append, filter_entriesOf fun z hz => (hbefore z hz y (by simp)).1,
      filter_entriesOf fun z hz => (hafter z hz).1.symm] at hkeeps
    rw [entriesOf_append, entriesOf_cons]
    simpa [Stage.isRegistered] using hkeeps
  · rw [htells.woken]
    simpa using htells.byWake (by rw [isOver]; exact hb)

/-- The verdict on a call depends on what its entry tells, and changes nothing. -/
theorem Tells.verdict_run (h : Tells ls w y) (a : Attempt) (woken : Bool) :
    (verdict a y.entry woken).run w =
      (if (wakesOf y.entry ls).getLast? = some true then .error (.foreignTraversal a .cancelled)
        else if woken then .ok .none else .error (.foreignTraversal a .timeout), w) := by
  have hrun : (isCancelled y.entry).run w =
      (.ok (decide ((wakesOf y.entry ls).getLast? = some true)), w) := by
    simp only [isCancelled, run_bind, run_own, h.cancelled]
    rfl
  simp only [verdict, run_bind, hrun]
  by_cases hlast : (wakesOf y.entry ls).getLast? = some true <;> cases woken <;>
    simp [hlast]

/-- A parked call ends. -/
theorem Sound.answer (h : Sound p ls s) {before after : List Stay} (o : Outcome)
    (hy : s.stays = before ++ y :: after) (isRemoved : y.stage.isRegistered = false) :
    Sound p (ls ++ [.answer y.entry o]) ⟨s.world, before ++ after⟩ := by
  obtain ⟨d, hd⟩ := h.keeps
  have hsub : (before ++ after).Sublist s.stays := by
    rw [hy]
    exact (List.sublist_cons_self _ _).append_left _
  refine ⟨⟨d, ?_⟩, h.distinct.sublist hsub,
    fun z hz => (h.tells z (hsub.subset hz)).same rfl (Nat.le_refl _) rfl rfl, fun x hx => ?_⟩
  · rw [registered, hy, entriesOf_append, entriesOf_cons, isRemoved] at hd
    rw [registered, entriesOf_append]
    exact hd
  · rw [wakesOf_of_not_wake _ rfl] at hx
    exact h.past x hx

/-- Something happens elsewhere. -/
theorem Sound.elsewhere (h : Sound p ls s) (hw : Elsewhere p s w') :
    Sound p (ls ++ [.elsewhere]) { s with world := w' } := by
  obtain ⟨d, hd⟩ := h.keeps
  refine ⟨⟨d, hd.of_eq hw.policy (by rw [hw.registry d hd.registry])⟩, h.distinct,
    fun y hy => ?_, fun x hx => ?_⟩
  · have hget := hw.stays y hy
    exact (h.tells y hy).same rfl hw.size (by rw [hget]) (by rw [hget])
  · rw [wakesOf_of_not_wake _ rfl] at hx
    exact Nat.lt_of_lt_of_le (h.past x hx) hw.size

/-- **Every step keeps what holds throughout.** -/
theorem Sound.step (h : Sound p ls s) (hl : Step obstruct p s l s') : Sound p (ls ++ [l]) s' := by
  cases hl with
  | park ht run => exact h.park ht run
  | wake number cancelled => exact h.wake obstruct number cancelled
  | ended hy waiting hw run => exact h.ended hy waiting hw run
  | remove hy isOver run => exact h.remove hy isOver run
  | answer w₀ hy isRemoved =>
    rw [(h.tells _ (by simp [hy])).verdict_run]
    exact h.answer _ hy (by rw [isRemoved]; rfl)
  | elsewhere w' hw => exact h.elsewhere hw

/-- What holds throughout holds after any run. -/
theorem Runs.sound (hr : Runs obstruct p s ls s') (h : Starts p s) : Sound p ls s' := by
  induction hr with
  | refl => exact h.sound
  | snoc hr hl ih => exact ih.step hl

end Lot

end Parking

end GuardedWalk
