import GuardedWalk.Proofs.Parking.Showing
import GuardedWalk.Proofs.Parking.Timeout

/-!
# The registry of parked calls is exact

Any number of threads are parked by one policy, are woken or run out of time, or fail to wait at
all, and remove their entries. In between calls are woken, all of them or the one of a thread. At
any time the policy has one entry for each call that has been parked and whose entry has not been
removed, in the order in which the calls came, and no other one. A wait is ended by a wake only if
the wake has counted the call while its entry was there.

## Main definitions

* `GuardedWalk.Parking.parkedIn`, `removedIn`, `present` — what has become of the registry, told by
  the steps so far.
* `GuardedWalk.Parking.Lot.Move`, `Moves` — steps of parked threads, whose waits can fail.
* `GuardedWalk.Parking.Lot.Named`, `Listed` — what holds of the entries throughout.

## Main results

* `GuardedWalk.Parking.Lot.Moves.woken_while_present` — only registered calls are woken.
* `GuardedWalk.Parking.Lot.registry_is_exact` — what the registry holds and tells, and what wakes
  do.
-/

set_option autoImplicit false

namespace GuardedWalk

namespace Parking

open Act

/-! ## What has happened -/

/-- The calls that have been parked, in order. -/
def parkedIn (ls : List Label) : List (Ref .parked) :=
  ls.filterMap fun
    | .park x => some x
    | _ => none

/-- The calls whose entries have been removed. -/
def removedIn (ls : List Label) : List (Ref .parked) :=
  ls.filterMap fun
    | .remove x => some x
    | _ => none

/-- The calls that have been parked and whose entries have not been removed, in order. -/
def present (ls : List Label) : List (Ref .parked) := (parkedIn ls).filter (· ∉ removedIn ls)

/-- Whether a step enters a call in the registry or removes one. -/
def Label.enters : Label → Bool
  | park _ | remove _ => true
  | _ => false

variable {l : Label} {ls : List Label} {x : Ref .parked}

theorem parkedIn_append (ls ls' : List Label) :
    parkedIn (ls ++ ls') = parkedIn ls ++ parkedIn ls' := List.filterMap_append

theorem removedIn_append (ls ls' : List Label) :
    removedIn (ls ++ ls') = removedIn ls ++ removedIn ls' := List.filterMap_append

/-- What enters nothing and removes nothing leaves what has been parked and removed as it is. -/
theorem parked_removed_of_not_enters (hl : l.enters = false) :
    parkedIn (ls ++ [l]) = parkedIn ls ∧ removedIn (ls ++ [l]) = removedIn ls := by
  rw [parkedIn_append, removedIn_append]
  cases l <;> simp [parkedIn, removedIn, Label.enters] at hl ⊢

theorem present_of_not_enters (hl : l.enters = false) : present (ls ++ [l]) = present ls := by
  obtain ⟨hp, hr⟩ := parked_removed_of_not_enters hl
  rw [present, hp, hr, present]

theorem present_park (hx : x ∉ removedIn ls) : present (ls ++ [.park x]) = present ls ++ [x] := by
  simp [present, parkedIn, removedIn, List.filterMap_append] at hx ⊢
  exact hx

theorem present_remove : present (ls ++ [.remove x]) = (present ls).filter (· ≠ x) := by
  simp [present, parkedIn, removedIn, List.filterMap_append, List.filter_filter, and_comm]

namespace Lot

variable {ε : Type} {obstruct : Obstruction ε} {p : Ref .policy} {s₀ s s' : Lot ε}

/-! ## Waits that fail -/

/-- One step of threads whose waits can fail. A call whose wait has failed leaves the wait and
removes its entry as one that is out of time, and ends with the failure. What happens elsewhere
leaves the policy as it is. -/
inductive Move (obstruct : Obstruction ε) (p : Ref .policy) (s : Lot ε) : Label → Lot ε → Prop where
  /-- A step in which no wait fails. -/
  | step {l : Label} {s' : Lot ε} (hl : Step obstruct p s l s')
    (same : l = .elsewhere → s'.world.policies.get p = s.world.policies.get p) :
    Move obstruct p s l s'
  /-- A call ends with the failure of its wait. -/
  | fails {before after : List Stay} {y : Stay} {woken : Bool} (f : Failure)
    (hy : s.stays = before ++ y :: after) (isRemoved : y.stage = .removed woken) :
    Move obstruct p s (.answer y.entry (.error f)) ⟨s.world, before ++ after⟩

/-- Any number of such steps. -/
inductive Moves (obstruct : Obstruction ε) (p : Ref .policy) :
    Lot ε → List Label → Lot ε → Prop where
  /-- No step. -/
  | refl (s : Lot ε) : Moves obstruct p s [] s
  /-- Steps and one more. -/
  | snoc {s s' s'' : Lot ε} {ls : List Label} {l : Label} (h : Moves obstruct p s ls s')
      (hl : Move obstruct p s' l s'') : Moves obstruct p s (ls ++ [l]) s''

theorem Move.sound (hl : Move obstruct p s l s') (h : Sound p ls s) : Sound p (ls ++ [l]) s' := by
  cases hl with
  | step hl => exact h.step hl
  | fails f hy isRemoved => exact h.answer _ hy (by rw [isRemoved]; rfl)

theorem Moves.sound (h : Moves obstruct p s₀ ls s) (h₀ : Starts p s₀) : Sound p ls s := by
  induction h with
  | refl => exact h₀.sound
  | snoc _ hl ih => exact hl.sound ih

/-- Every step of a run has been taken from where the steps before have led. -/
theorem Moves.upTo {ls₁ ls₂ : List Label} (h : Moves obstruct p s₀ ls s)
    (hls : ls = ls₁ ++ l :: ls₂) :
    ∃ s₁ s₂, Moves obstruct p s₀ ls₁ s₁ ∧ Move obstruct p s₁ l s₂ := by
  induction h generalizing ls₂ with
  | refl => simp at hls
  | @snoc s' s'' ls l' h hl ih =>
    rcases List.eq_nil_or_concat ls₂ with rfl | ⟨ls₂, l₂, rfl⟩
    · obtain ⟨rfl, hl'⟩ := List.append_inj' hls rfl
      obtain rfl := List.singleton_inj.1 hl'
      exact ⟨s', s'', h, hl⟩
    · have hsplit : ls ++ [l'] = (ls₁ ++ l :: ls₂) ++ [l₂] := by simpa using hls
      exact ih (List.append_inj' hsplit rfl).1

/-! ## The names of the threads -/

/-- A policy parks callers, and the entries of parked calls name their threads. -/
structure Named (p : Ref .policy) (s : Lot ε) : Prop where
  parks : s.world.Parks p
  names : ∀ y ∈ s.stays, (s.world.carried (.parked y.entry)).get? ParkedCall.threadField =
    some (.text y.thread.name)

theorem Starts.named (h : Starts p s) : Named p s := by
  obtain ⟨timeout, k, d, hp, -⟩ := h.fresh
  refine ⟨⟨timeout, k, d, hp⟩, fun y hy => ?_⟩
  rw [h.stays] at hy
  cases hy

theorem mem_of_mem_others {before after : List Stay} {y z : Stay} (h : z ∈ before ++ after) :
    z ∈ before ++ y :: after :=
  ((List.sublist_cons_self y after).append_left before).subset h

/-- A call that comes further is of the same thread and has the same entry. -/
theorem Named.comes {w : World ε} {before after : List Stay} {y : Stay} (stage : Stage)
    (h : ∀ z ∈ before ++ y :: after, (w.carried (.parked z.entry)).get? ParkedCall.threadField =
      some (.text z.thread.name)) :
    ∀ z ∈ before ++ { y with stage := stage } :: after,
      (w.carried (.parked z.entry)).get? ParkedCall.threadField = some (.text z.thread.name) := by
  intro z hz
  simp only [List.mem_append, List.mem_cons] at hz
  rcases hz with hz | rfl | hz
  · exact h z (by simp [hz])
  · exact h y (by simp)
  · exact h z (by simp [hz])

/-- The names of threads stay if what the entries of calls carry does. -/
theorem names_of_same (hn : ∀ y ∈ s.stays,
      (s.world.carried (.parked y.entry)).get? ParkedCall.threadField =
        some (.text y.thread.name)) {w : World ε}
    (hw : ∀ y ∈ s.stays,
      (w.parked.get y.entry).attributes = (s.world.parked.get y.entry).attributes) :
    ∀ y ∈ s.stays, (w.carried (.parked y.entry)).get? ParkedCall.threadField =
      some (.text y.thread.name) := by
  intro y hy
  rw [← hn y hy]
  exact congrArg (·.get? ParkedCall.threadField) (hw y hy)

/-- The entry of a call that is parked names its thread, and the other ones stay. -/
theorem Sound.names_of_parked (h : Sound p ls s)
    (hn : ∀ y ∈ s.stays, (s.world.carried (.parked y.entry)).get? ParkedCall.threadField =
      some (.text y.thread.name)) {t : Thread} {node visitor : Value} {w : World ε}
    (hparked : w.parked = s.world.parked.add (.new t node visitor (.lock s.world.locks.next))) :
    ∀ y ∈ s.stays ++ [⟨t, s.world.parked.next, node, visitor, .waiting⟩],
      (w.carried (.parked y.entry)).get? ParkedCall.threadField = some (.text y.thread.name) := by
  intro y hy
  rcases List.mem_append.1 hy with hy | hy
  · refine names_of_same hn (fun z hz => ?_) y hy
    rw [hparked, Store.get_add, if_neg (h.entry_ne_next hz)]
  · obtain rfl := List.mem_singleton.1 hy
    have hnew : w.parked.get s.world.parked.next =
        .new t node visitor (.lock s.world.locks.next) := by
      rw [hparked, Store.get_add, if_pos rfl]
    show (w.parked.get s.world.parked.next).attributes.get? _ = _
    rw [hnew]
    rfl

/-- Whether a call is cancelled or not, its entry names its thread. -/
theorem names_of_woken (hn : ∀ y ∈ s.stays,
      (s.world.carried (.parked y.entry)).get? ParkedCall.threadField =
        some (.text y.thread.name)) (cancelled : Bool) (calls : List (Ref .parked)) :
    ∀ y ∈ s.stays, ((s.world.woken cancelled calls).carried (.parked y.entry)).get?
      ParkedCall.threadField = some (.text y.thread.name) := by
  intro y hy
  rw [← hn y hy]
  show ((s.world.woken cancelled calls).parked.get y.entry).attributes.get? _ = _
  rw [World.get_woken]
  split
  · exact (Attributes.get?_set ..).trans (if_neg (by decide))
  · rfl

/-- Every step leaves the names of threads as they are. -/
theorem Step.names (hl : Step obstruct p s l s') (h : Sound p ls s)
    (hn : ∀ y ∈ s.stays, (s.world.carried (.parked y.entry)).get? ParkedCall.threadField =
      some (.text y.thread.name)) :
    ∀ y ∈ s'.stays, (s'.world.carried (.parked y.entry)).get? ParkedCall.threadField =
      some (.text y.thread.name) := by
  cases hl with
  | park ht run =>
    obtain ⟨rfl, -, hparked, -⟩ := h.parked ht run
    exact h.names_of_parked hn hparked
  | wake number cancelled =>
    obtain ⟨calls, -, -, hworld, -⟩ := h.wake_run obstruct number cancelled
    rw [hworld]
    exact names_of_woken hn cancelled calls
  | ended hy waiting hw run =>
    obtain ⟨-, rfl⟩ := Prod.mk.inj run
    refine Named.comes _ (hy ▸ names_of_same hn fun z hz => ?_)
    rw [Store.get_modify]
    split
    · rename_i hz
      rw [hz]
    · rfl
  | remove hy isOver run =>
    obtain ⟨-, hparked, -⟩ := h.unparked run
    exact Named.comes _ (hy ▸ names_of_same hn fun z hz => by rw [hparked])
  | answer w₀ hy isRemoved =>
    rw [(h.tells _ (by simp [hy])).verdict_run]
    exact fun z hz => hn z (hy ▸ mem_of_mem_others hz)
  | elsewhere w' hw => exact names_of_same hn fun z hz => by rw [hw.stays z hz]

theorem Move.named (hl : Move obstruct p s l s') (h : Sound p ls s) (hn : Named p s) :
    Named p s' := by
  cases hl with
  | step hl same =>
    refine ⟨?_, hl.names h hn.names⟩
    obtain ⟨timeout, k, d, hp⟩ := hn.parks
    refine ⟨timeout, k, d, ?_⟩
    rw [← hp]
    by_cases hne : l = .elsewhere
    · exact same hne
    · rw [hl.policies h hne]
  | fails f hy isRemoved =>
    exact ⟨hn.parks, fun z hz => hn.names z (hy ▸ mem_of_mem_others hz)⟩

theorem Moves.named (h : Moves obstruct p s₀ ls s) (h₀ : Starts p s₀) : Named p s := by
  induction h with
  | refl => exact h₀.named
  | snoc hr hl ih => exact hl.named (hr.sound h₀) ih

/-! ## The entries of the calls -/

/-- What the registry holds is what has been parked and not been removed, given the steps so far. -/
structure Listed (ls : List Label) (s : Lot ε) : Prop where
  entries : s.registered.map (·.2) = present ls
  /-- No entry is used twice. -/
  once : (parkedIn ls).Nodup
  stored : ∀ x ∈ parkedIn ls ++ removedIn ls, x.index < s.world.parked.cells.size
  /-- A call that is no longer registered has removed its entry. -/
  gone : ∀ y ∈ s.stays, y.stage.isRegistered = false → y.entry ∈ removedIn ls
  /-- A call that has ended has removed its entry. -/
  ended : ∀ x o, .answer x o ∈ ls → x ∈ removedIn ls

theorem Starts.listed (h : Starts p s) : Listed [] s where
  entries := by rw [registered, h.stays]; rfl
  once := .nil
  stored x hx := by cases hx
  gone y hy := by rw [h.stays] at hy; cases hy
  ended x o hx := by cases hx

/-- A step that enters no call and removes none keeps what is listed. -/
theorem Listed.keeps (h : Listed ls s) (hl : l.enters = false)
    (hsize : s.world.parked.cells.size ≤ s'.world.parked.cells.size)
    (hentries : s'.registered = s.registered)
    (hgone : ∀ y ∈ s'.stays, y.stage.isRegistered = false →
      ∃ z ∈ s.stays, z.entry = y.entry ∧ z.stage.isRegistered = false)
    (hanswer : ∀ x o, l = .answer x o → x ∈ removedIn ls) : Listed (ls ++ [l]) s' := by
  obtain ⟨hp, hr⟩ := parked_removed_of_not_enters hl
  refine ⟨?_, ?_, ?_, ?_, ?_⟩
  · rw [hentries, h.entries, present_of_not_enters hl]
  · rw [hp]
    exact h.once
  · rw [hp, hr]
    exact fun x hx => Nat.lt_of_lt_of_le (h.stored x hx) hsize
  · intro y hy hstage
    obtain ⟨z, hz, he, hs⟩ := hgone y hy hstage
    rw [hr, ← he]
    exact h.gone z hz hs
  · intro x o hx
    rw [hr]
    rcases List.mem_append.1 hx with hx | hx
    · exact h.ended x o hx
    · exact hanswer x o (List.mem_singleton.1 hx).symm

/-- Among the entries of other calls none is left out. -/
theorem filter_entries {l : List Stay} {x : Ref .parked} (h : ∀ z ∈ l, z.entry ≠ x) :
    ((entriesOf l).map (·.2)).filter (· ≠ x) = (entriesOf l).map (·.2) := by
  refine List.filter_eq_self.2 fun x' hx' => ?_
  obtain ⟨e, he, rfl⟩ := List.mem_map.1 hx'
  obtain ⟨z, hz, -, rfl⟩ := mem_entriesOf he
  simpa using h z hz

/-- A call that is not registered any more ends. -/
theorem Listed.answer (h : Listed ls s) {before after : List Stay} {y : Stay} {woken : Bool}
    (o : Outcome) (hy : s.stays = before ++ y :: after) (isRemoved : y.stage = .removed woken) :
    Listed (ls ++ [.answer y.entry o]) ⟨s.world, before ++ after⟩ := by
  have hstage : y.stage.isRegistered = false := by rw [isRemoved]; rfl
  refine h.keeps rfl (Nat.le_refl _) ?_ (fun z hz hs => ?_) fun x o' hx => ?_
  · rw [registered, registered, hy, entriesOf_append, entriesOf_append, entriesOf_cons, hstage]
    rfl
  · exact ⟨z, hy ▸ mem_of_mem_others hz, rfl, hs⟩
  · obtain ⟨rfl, -⟩ := Label.answer.inj hx
    exact h.gone y (by simp [hy]) hstage

/-- A call is entered behind all others. -/
theorem Listed.park (h : Listed ls s) {t : Thread} {node visitor : Value} {w : World ε}
    (hparked : w.parked = s.world.parked.add (.new t node visitor (.lock s.world.locks.next))) :
    Listed (ls ++ [.park s.world.parked.next])
      ⟨w, s.stays ++ [⟨t, s.world.parked.next, node, visitor, .waiting⟩]⟩ := by
  have hnew : s.world.parked.next ∉ parkedIn ls ++ removedIn ls := fun hx =>
    Nat.lt_irrefl _ (h.stored _ hx)
  have hsize : w.parked.cells.size = s.world.parked.cells.size + 1 := by
    simp [hparked, Store.add]
  have hparkedIn : parkedIn (ls ++ [.park s.world.parked.next]) =
      parkedIn ls ++ [s.world.parked.next] := parkedIn_append ..
  have hremovedIn : removedIn (ls ++ [.park s.world.parked.next]) = removedIn ls := by
    simp [removedIn, List.filterMap_append]
  simp only [List.mem_append, not_or] at hnew
  refine ⟨?_, ?_, fun x hx => ?_, fun y hy hstage => ?_, fun x o hx => ?_⟩
  · rw [registered, entriesOf_append, List.map_append, present_park hnew.2, ← h.entries]
    rfl
  · rw [hparkedIn]
    refine List.nodup_append.2 ⟨h.once, List.pairwise_singleton _ _, fun x hx y hy hxy => ?_⟩
    rw [List.mem_singleton.1 hy] at hxy
    exact hnew.1 (hxy ▸ hx)
  · rw [hparkedIn, hremovedIn] at hx
    show x.index < w.parked.cells.size
    rw [hsize]
    by_cases hold : x ∈ parkedIn ls ++ removedIn ls
    · exact Nat.lt_succ_of_lt (h.stored x hold)
    · have hx : x = s.world.parked.next := by grind
      rw [hx]
      exact Nat.lt_succ_self _
  · rw [hremovedIn]
    rcases List.mem_append.1 hy with hy | hy
    · exact h.gone y hy hstage
    · rw [List.mem_singleton.1 hy] at hstage
      cases hstage
  · rw [hremovedIn]
    exact h.ended x o (by simpa using hx)

/-- Among the calls of other threads one that leaves the registry is the only one that does. -/
theorem Sound.present_remove (hs : Sound p ls s) (h : Listed ls s) {before after : List Stay}
    {y : Stay} {woken : Bool} (hy : s.stays = before ++ y :: after)
    (isOver : y.stage = .ended woken) :
    (entriesOf (before ++ { y with stage := .removed woken } :: after)).map (·.2) =
      present (ls ++ [.remove y.entry]) := by
  have hdistinct := hs.distinct
  rw [hy, List.pairwise_append, List.pairwise_cons] at hdistinct
  obtain ⟨-, ⟨hafter, -⟩, hbefore⟩ := hdistinct
  rw [Parking.present_remove, ← h.entries, registered, hy, entriesOf_append, entriesOf_append,
    entriesOf_cons, entriesOf_cons, isOver]
  simp only [Stage.isRegistered, if_true, Bool.false_eq_true, if_false, List.nil_append,
    List.map_append, List.filter_append, filter_entries fun z hz => (hbefore z hz y (by simp)).2,
    filter_entries fun z hz => (hafter z hz).2.symm]
  simp

/-- The entry of a call is removed. -/
theorem Listed.remove (h : Listed ls s) (hs : Sound p ls s) {before after : List Stay} {y : Stay}
    {woken : Bool} {w : World ε} (hy : s.stays = before ++ y :: after)
    (isOver : y.stage = .ended woken) (hparked : w.parked = s.world.parked) :
    Listed (ls ++ [.remove y.entry])
      ⟨w, before ++ { y with stage := .removed woken } :: after⟩ := by
  have hparkedIn : parkedIn (ls ++ [.remove y.entry]) = parkedIn ls := by
    simp [parkedIn, List.filterMap_append]
  have hremovedIn : removedIn (ls ++ [.remove y.entry]) = removedIn ls ++ [y.entry] :=
    removedIn_append ..
  refine ⟨hs.present_remove h hy isOver, ?_, fun x hx => ?_, fun z hz hstage => ?_,
    fun x o hx => ?_⟩
  · rw [hparkedIn]
    exact h.once
  · show x.index < w.parked.cells.size
    rw [hparked]
    rw [hparkedIn, hremovedIn, ← List.append_assoc] at hx
    rcases List.mem_append.1 hx with hx | hx
    · exact h.stored x hx
    · rw [List.mem_singleton.1 hx]
      exact (hs.tells y (by simp [hy])).stored
  · rw [hremovedIn]
    simp only [List.mem_append, List.mem_cons] at hz
    rcases hz with hz | rfl | hz
    · exact List.mem_append_left _ (h.gone z (by simp [hy, hz]) hstage)
    · simp
    · exact List.mem_append_left _ (h.gone z (by simp [hy, hz]) hstage)
  · rw [hremovedIn]
    exact List.mem_append_left _ (h.ended x o (by simpa using hx))

/-- Every step keeps what is listed. -/
theorem Step.listed (hl : Step obstruct p s l s') (hs : Sound p ls s) (h : Listed ls s) :
    Listed (ls ++ [l]) s' := by
  cases hl with
  | park ht run =>
    obtain ⟨rfl, -, hparked, -⟩ := hs.parked ht run
    exact h.park hparked
  | wake number cancelled =>
    obtain ⟨calls, -, -, hworld, -⟩ := hs.wake_run obstruct number cancelled
    refine h.keeps rfl ?_ rfl (fun y hy hstage => ⟨y, hy, rfl, hstage⟩) (by simp)
    rw [hworld]
    exact World.size_woken ..
  | @ended before after y woken w' hy waiting hw run =>
    obtain ⟨-, rfl⟩ := Prod.mk.inj run
    refine h.keeps rfl (Store.size_modify ..) ?_ (fun z hz hstage => ?_) (by simp)
    · rw [registered, registered, hy, entriesOf_append, entriesOf_append, entriesOf_cons,
        entriesOf_cons, waiting]
      rfl
    · simp only [List.mem_append, List.mem_cons] at hz
      rcases hz with hz | rfl | hz
      · exact ⟨z, by simp [hy, hz], rfl, hstage⟩
      · cases hstage
      · exact ⟨z, by simp [hy, hz], rfl, hstage⟩
  | remove hy isOver run => exact h.remove hs hy isOver (hs.unparked run).2.1
  | answer w₀ hy isRemoved =>
    rw [(hs.tells _ (by simp [hy])).verdict_run]
    exact h.answer _ hy isRemoved
  | elsewhere w' hw =>
    exact h.keeps rfl hw.size rfl (fun y hy hstage => ⟨y, hy, rfl, hstage⟩) (by simp)

theorem Moves.listed (h : Moves obstruct p s₀ ls s) (h₀ : Starts p s₀) : Listed ls s := by
  induction h with
  | refl => exact h₀.listed
  | snoc hr hl ih =>
    cases hl with
    | step hl => exact hl.listed (hr.sound h₀) ih
    | fails f hy isRemoved => exact ih.answer _ hy isRemoved

/-! ## Who is woken -/

/-- A call that some wake has counted has been counted by one of the steps. -/
theorem exists_wake (h : wakesOf x ls ≠ []) :
    ∃ l₁ l₂ cancelled calls r, ls = l₁ ++ .wake cancelled calls r :: l₂ ∧ .parked x ∈ calls := by
  obtain ⟨b, hb⟩ := List.exists_mem_of_ne_nil _ h
  obtain ⟨l, hl, hlb⟩ := List.mem_filterMap.1 hb
  obtain ⟨l₁, l₂, rfl⟩ := List.append_of_mem hl
  cases l with
  | wake cancelled calls r =>
    refine ⟨l₁, l₂, cancelled, calls, r, rfl, ?_⟩
    by_cases hx : .parked x ∈ calls
    · exact hx
    · simp [hx] at hlb
  | _ => cases hlb

/-- A wake counts only calls that are registered. -/
theorem Moves.counted_present {l₁ l₂ : List Label} {cancelled : Bool} {calls : List Value}
    {r : Except Failure Nat} (h : Moves obstruct p s₀ ls s) (h₀ : Starts p s₀)
    (hls : ls = l₁ ++ .wake cancelled calls r :: l₂) (hx : .parked x ∈ calls) : x ∈ present l₁ := by
  obtain ⟨s₁, s₂, hr, hl⟩ := h.upTo hls
  cases hl with
  | step hl =>
    cases hl with
    | wake number _ =>
      obtain ⟨calls, hcalls, hsub, -, -⟩ := (hr.sound h₀).wake_run obstruct number cancelled
      rw [hcalls] at hx
      obtain ⟨x', hx', he⟩ := List.mem_map.1 hx
      obtain rfl := Value.parked.inj he
      rw [← (hr.listed h₀).entries]
      exact hsub.subset hx'

/-- **Only registered calls are woken**: a wait is ended by a wake only if a wake before has counted
the call while its entry was in the registry. -/
theorem Moves.woken_while_present {ls₁ ls₂ : List Label} (h : Moves obstruct p s₀ ls s)
    (h₀ : Starts p s₀) (hls : ls = ls₁ ++ .ended x true :: ls₂) :
    ∃ l₁ l₂ cancelled calls r, ls₁ = l₁ ++ .wake cancelled calls r :: l₂ ∧
      .parked x ∈ calls ∧ x ∈ present l₁ := by
  obtain ⟨s₁, s₂, hr, hl⟩ := h.upTo hls
  cases hl with
  | step hl =>
    cases hl with
    | @ended before after y woken w' hy waiting hw run =>
      have hwoken := ((hr.sound h₀).tells y (by simp [hy])).woken
      rw [hw rfl] at hwoken
      have hwakes : wakesOf y.entry ls₁ ≠ [] := by rintro hnil; simp [hnil] at hwoken
      obtain ⟨l₁, l₂, cancelled, calls, r, rfl, hx⟩ := exists_wake hwakes
      exact ⟨l₁, l₂, cancelled, calls, r, rfl, hx, hr.counted_present h₀ rfl hx⟩

/-! ## What the registry holds and tells -/

open Routine (Path)

/-- **The registry is exact**, in any run of any threads, however their waits end.

The policy has one entry for each call that has been parked and whose entry has not been removed, in
the order in which these came, under the number of its thread, and no other entry; no two of them
are of one thread. It tells how many there are, and the names of their threads in that order. When
all calls that have been parked have ended, there is none.

Who resumes or cancels calls learns how many have been woken: all that are registered, or the one of
a thread if it is. These are woken, and nothing else happens. A wait is ended by a wake only if the
wake has counted the call while its entry was there, as all that a wake counts are, and every call
has an entry of its own; so no wake ends a wait that begins later.

And whatever else happens, a thread that is parked does just this: it is entered, waits, leaves the
wait and removes its entry, also if its wait has failed. -/
theorem registry_is_exact {s₀ s : Lot ε} {ls : List Label} (h₀ : Starts p s₀)
    (h : Moves obstruct p s₀ ls s) (κ : Type) :
    ((∃ d, s.world.ownValue (.policy p) Policy.registryField = .dictionary d ∧
        (s.world.dictionaries.get d).pairs =
          s.registered.map fun e => (e.1.number, .parked e.2)) ∧
      s.registered.map (·.2) = present ls ∧ (parkedIn ls).Nodup ∧
      (s.registered.map (·.1.id)).Nodup ∧
      s.world.member (.policy p) "parked_count" = .ok (.value (.int s.registered.length)) ∧
      s.world.member (.policy p) "parked_threads" =
        .ok (.listing (s.registered.map fun e => .text e.1.name)) ∧
      ((∀ x ∈ parkedIn ls, ∃ o, .answer x o ∈ ls) → s.registered = [])) ∧
    (∀ (cancelled : Bool) (ident : Option Int), ∃ calls w',
      calls = sought s.registered ident ∧
      calls.length = (match ident with
        | none => s.registered.length
        | some i => if ∃ e ∈ s.registered, e.1.number = .int i then 1 else 0) ∧
      (Parking.wake obstruct p (ident.elim .none .int) (.bool cancelled)).run s.world =
        (.ok calls.length, w') ∧
      World.Rouses cancelled calls s.world w' ∧
      ∀ (F : Foreign ε κ) (t : Thread) (σ : Moment ε κ), σ.world = s.world →
        (Surroundings.alone (Walk.body F t)).Yields (.free ε κ) σ
          (Walk.send (.policy p) (if cancelled then .cancel else .resume)
            (ident.toList.map .int))
          fun o σ' => o = .ok (.int calls.length) ∧ σ'.world = w') ∧
    (∀ ls₁ ls₂ x, ls = ls₁ ++ .ended x true :: ls₂ →
      ∃ l₁ l₂ cancelled calls r, ls₁ = l₁ ++ .wake cancelled calls r :: l₂ ∧
        .parked x ∈ calls ∧ x ∈ present l₁) ∧
    (∀ l₁ l₂ cancelled calls r x, ls = l₁ ++ .wake cancelled calls r :: l₂ → .parked x ∈ calls →
      x ∈ present l₁) ∧
    ∀ (t : Thread) (node visitor : Value) (l : List (Deed ε (Call κ))) (o : Outcome),
      Path (Walk.suspend t p node visitor : Walk.Steps ε κ Value) l o →
      ∃ w rest, l = .step w ((Parking.park t p node visitor).run w).2 :: rest ∧
        match ((Parking.park t p node visitor).run w).1 with
        | .ok x => Walk.Stays t p x node visitor rest o
        | .error f => rest = [] ∧ o = .error f := by
  have hs := h.sound h₀
  have hn := h.named h₀
  have hl := h.listed h₀
  obtain ⟨d, hd⟩ := hs.keeps
  have hids : (s.registered.map (·.1.id)).Nodup := by
    have hstays : (s.stays.map (·.thread.id)).Nodup :=
      List.pairwise_map.2 (hs.distinct.imp fun hne => hne.1)
    refine hstays.sublist ?_
    simp only [registered, entriesOf, List.map_map]
    exact List.filter_sublist.map _
  have hnames : ∀ e ∈ s.registered, (s.world.carried (.parked e.2)).get? ParkedCall.threadField =
      some (.text e.1.name) := fun e he => by
    obtain ⟨y, hy, -, rfl⟩ := mem_entriesOf he
    exact hn.names y hy
  refine ⟨⟨⟨d, hd.registry, hd.pairs⟩, hl.entries, hl.once, hids, hd.parkedCount hn.parks,
    hd.parkedNames hn.parks hnames, fun hall => ?_⟩, fun cancelled ident => ?_,
    fun _ _ _ => h.woken_while_present h₀, fun _ _ _ _ _ _ => h.counted_present h₀,
    fun _ _ _ _ _ => Walk.path_suspend⟩
  · have hnone : present ls = [] := by
      refine List.filter_eq_nil_iff.2 fun x hx => ?_
      obtain ⟨o, ho⟩ := hall x hx
      simp [hl.ended x o ho]
    exact List.map_eq_nil_iff.1 (hl.entries.trans hnone)
  · refine ⟨_, s.world.woken cancelled (sought s.registered ident), rfl, length_sought hids ident,
      ?_, World.rouses_woken .., fun F t σ hσ => hd.wakes hn.parks hids F t cancelled ident hσ⟩
    rw [Parking.wake_run hd, meantIn_sought hids]

/-! ## Two threads -/

namespace Pair

/-- The policy. -/
def policy : Ref .policy := ⟨0⟩

/-- The first of the threads. -/
def first : Thread := ⟨2, "T1"⟩

/-- The second one. -/
def second : Thread := ⟨3, "T2"⟩

/-- How far the call of the first thread has come. -/
def ahead (stage : Stage) : Stay := ⟨first, ⟨0⟩, .node ⟨0⟩, .none, stage⟩

/-- How far the call of the second thread has come. -/
def behind (stage : Stage) : Stay := ⟨second, ⟨1⟩, .node ⟨0⟩, .none, stage⟩

/-- The world after the policy has been made, without a timeout. -/
def made : World Unit := ((Act.newParkPolicy .none).run (.empty ())).2

/-- The world after the first thread has been parked. -/
def one : World Unit := ((Parking.park first policy (.node ⟨0⟩) .none).run made).2

/-- The world after the second thread has been parked as well. -/
def two : World Unit := ((Parking.park second policy (.node ⟨0⟩) .none).run one).2

/-- The world after the first thread has been woken. -/
def woken : World Unit := two.woken false [⟨0⟩]

/-- The world after the first thread has left its wait. -/
def ended : World Unit := ((leave ⟨0⟩).run woken).2

/-- The world after the first thread has removed its entry. -/
def removed : World Unit := ((unpark first policy).run ended).2

/-- What has happened. -/
def steps : List Label :=
  [.park ⟨0⟩, .park ⟨1⟩, .wake false [.parked ⟨0⟩] (.ok 1), .ended ⟨0⟩ true, .remove ⟨0⟩]

/-- Whatever keeps an attribute from being assigned fails in the same way. -/
def blocked : Obstruction Unit := fun _ w => (.waitCancelled "", w)

theorem begins : Starts policy ⟨made, []⟩ := ⟨⟨.none, ⟨0⟩, ⟨0⟩, rfl, rfl⟩, rfl⟩

theorem moves : Moves blocked policy ⟨made, []⟩ steps
    ⟨removed, [ahead (.removed true), behind .waiting]⟩ := by
  have h₁ : Step blocked policy ⟨made, []⟩ (.park ⟨0⟩) ⟨one, [ahead .waiting]⟩ :=
    .park (by simp) (Prod.ext rfl rfl)
  have h₂ : Step blocked policy ⟨one, [ahead .waiting]⟩ (.park ⟨1⟩)
      ⟨two, [ahead .waiting, behind .waiting]⟩ :=
    .park (by simp [ahead, first, second]) (Prod.ext rfl rfl)
  have h₃ : Step blocked policy ⟨two, [ahead .waiting, behind .waiting]⟩
      (.wake false [.parked ⟨0⟩] (.ok 1)) ⟨woken, [ahead .waiting, behind .waiting]⟩ :=
    .wake first.number false
  have h₄ : Step blocked policy ⟨woken, [ahead .waiting, behind .waiting]⟩ (.ended ⟨0⟩ true)
      ⟨ended, [ahead (.ended true), behind .waiting]⟩ :=
    @Step.ended _ _ _ _ [] [behind .waiting] (ahead .waiting) true _ rfl rfl (fun _ => rfl)
      (Prod.ext rfl rfl)
  have h₅ : Step blocked policy ⟨ended, [ahead (.ended true), behind .waiting]⟩ (.remove ⟨0⟩)
      ⟨removed, [ahead (.removed true), behind .waiting]⟩ :=
    @Step.remove _ _ _ _ [] [behind .waiting] (ahead (.ended true)) true _ rfl rfl
      (Prod.ext rfl rfl)
  exact (((((Moves.refl _).snoc (.step h₁ (by simp))).snoc (.step h₂ (by simp))).snoc
    (.step h₃ (by simp))).snoc (.step h₄ (by simp))).snoc (.step h₅ (by simp))

end Pair

open Lot.Pair in
/-- Of two threads the first is resumed and has removed its entry: the second one is registered, and
whoever resumes the first one again wakes nobody. -/
theorem registry_is_exact_for_pair :
    removed.member (.policy policy) "parked_count" = .ok (.value (.int 1)) ∧
    removed.member (.policy policy) "parked_threads" = .ok (.listing [.text "T2"]) ∧
    ∃ w', (Parking.wake blocked policy first.number (.bool false)).run removed = (.ok 0, w') := by
  obtain ⟨⟨-, -, -, -, hcount, hnames, -⟩, hwakes, -⟩ := registry_is_exact begins moves Empty
  obtain ⟨calls, w', -, hlength, hrun, -⟩ := hwakes false (some 140000000000002)
  have hnobody : calls.length = 0 := by
    rw [hlength]
    refine if_neg ?_
    rintro ⟨e, he, hi⟩
    obtain rfl : e = (second, ⟨1⟩) := List.mem_singleton.1 he
    exact absurd hi (by decide)
  rw [hnobody] at hrun
  exact ⟨hcount, hnames, w', hrun⟩

end Lot

end Parking

end GuardedWalk
