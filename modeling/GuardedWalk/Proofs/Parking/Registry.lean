import GuardedWalk.Parking
import GuardedWalk.Proofs.Ownership.Token
import GuardedWalk.Proofs.World.Frame

/-!
# What the steps on a registry do

The sections that run under the lock of a policy that parks callers enter a call in its registry,
remove one, or wake some of them. Here each of them is described once by what it does to the list of
registered calls and to the calls themselves.

## Main definitions

* `GuardedWalk.Parking.Keeps` — a policy keeps some calls in its registry.
* `GuardedWalk.Parking.meantIn` — the registered calls that a wake is meant for.
* `GuardedWalk.World.woken` — some calls have been woken.

## Main results

* `GuardedWalk.Parking.park_run` — a call is entered.
* `GuardedWalk.Parking.unpark_run` — a call is removed.
* `GuardedWalk.Parking.wake_run` — the calls that a wake is meant for are woken and counted.
-/

set_option autoImplicit false

namespace GuardedWalk

variable {ε : Type}

/-- The threads of parked calls, with the entries of the calls. -/
abbrev Parking.Entries : Type := List (Thread × Ref .parked)

namespace World

/-- Some calls have been woken, and it is noted whether that was a cancellation. -/
def woken (w : World ε) (cancelled : Bool) (calls : List (Ref .parked)) : World ε :=
  calls.foldl
    (fun w r =>
      Parking.rouse (w.setOwn (.parked r) ParkedCall.cancelledField (.bool cancelled)) r) w

variable (w : World ε) (cancelled : Bool) (calls : List (Ref .parked)) (r : Ref .parked)

/-- A wake changes nothing but parked calls. -/
theorem woken_eq : w.woken cancelled calls = { w with
    parked := (w.woken cancelled calls).parked } := by
  induction calls generalizing w with
  | nil => rfl
  | cons c rest ih =>
    rw [woken, List.foldl_cons]
    exact ih _

theorem size_woken : w.parked.cells.size ≤ (w.woken cancelled calls).parked.cells.size := by
  induction calls generalizing w with
  | nil => exact Nat.le_refl _
  | cons c rest ih =>
    let w₁ := Parking.rouse
      (w.setOwn (.parked c) ParkedCall.cancelledField (.bool cancelled)) c
    have hstep : w.parked.cells.size ≤ w₁.parked.cells.size :=
      Nat.le_trans (Store.size_modify _ c _) (Store.size_modify _ c _)
    exact Nat.le_trans hstep (ih w₁)

/-- What a wake makes of one call. -/
theorem get_woken : (w.woken cancelled calls).parked.get r =
    if r ∈ calls then
      { w.parked.get r with
        woken := true
        attributes :=
          (w.parked.get r).attributes.set ParkedCall.cancelledField (.bool cancelled) }
    else w.parked.get r := by
  induction calls generalizing w with
  | nil => rfl
  | cons c rest ih =>
    rw [woken, List.foldl_cons]
    refine (ih _).trans ?_
    by_cases hc : r = c
    · subst hc
      by_cases hr : r ∈ rest <;>
        simp [hr, Parking.rouse, setOwn, modifyOwn, Store.get_modify, Attributes.set_set]
    · simp [hc, Parking.rouse, setOwn, modifyOwn, Store.get_modify]

/-- Numbers of threads are the same exactly if the threads are. -/
theorem same_number (w : World ε) (t u : Thread) :
    w.same t.number u.number = decide (t.id = u.id) := by
  refine (Ownership.equal_int w _ _).trans ?_
  by_cases h : t.id = u.id
  · simp [h]
  · have hne : ((t.id : Nat) : Int) ≠ u.id := by omega
    simp [h, hne]

end World

namespace Parking

open Act

variable {w : World ε} {p : Ref .policy} {d : Ref .dictionary} {l : Entries} {t : Thread}

/-! ## Registries -/

/-- What a registry holds for some calls. -/
def pairsOf (l : Entries) : List (Value × Value) := l.map fun x => (x.1.number, .parked x.2)

/-- A policy keeps some calls in its registry, in order, and nothing stands in the way of its
lock. -/
structure Keeps (w : World ε) (p : Ref .policy) (d : Ref .dictionary) (l : Entries) : Prop where
  lock : ∃ k, w.ownValue (.policy p) Policy.lockField = .lock k
  registry : w.ownValue (.policy p) Policy.registryField = .dictionary d
  pairs : (w.dictionaries.get d).pairs = pairsOf l

theorem Keeps.of_eq {w' : World ε} (h : Keeps w p d l)
    (hp : w'.carried (.policy p) = w.carried (.policy p))
    (hd : (w'.dictionaries.get d).pairs = (w.dictionaries.get d).pairs) : Keeps w' p d l where
  lock := by
    rw [World.ownValue_eq, hp]
    exact h.lock
  registry := by
    rw [World.ownValue_eq, hp]
    exact h.registry
  pairs := hd.trans h.pairs

theorem lock_run (h : Keeps w p d l) : (lock p).run w = (.ok (), w) := by
  obtain ⟨k, hk⟩ := h.lock
  simp [lock, run_bind, hk, checkLock, World.lockProblem?]

theorem registry_run (h : Keeps w p d l) : (registry p).run w = (.ok (.dictionary d), w) := by
  simp [registry, h.registry]

/-- Whether a thread is registered. -/
theorem has_number (h : Keeps w p d l) :
    (w.dictionaries.get d).has w.same t.number = l.any fun x => x.1.id = t.id := by
  simp only [Dictionary.has, Dictionary.find?, h.pairs, pairsOf, List.find?_map, Option.isSome_map,
    Function.comp_def, World.same_number]
  rw [Bool.eq_iff_iff]
  simp

/-! ## A call is entered -/

/-- A thread that is not registered yet is entered behind all others. -/
theorem park_run (h : Keeps w p d l) (ht : ∀ x ∈ l, x.1.id ≠ t.id) (node visitor : Value) :
    ∃ w', (park t p node visitor).run w = (.ok w.parked.next, w') ∧
      Keeps w' p d (l ++ [(t, w.parked.next)]) ∧
      w'.parked = w.parked.add (.new t node visitor (.lock w.locks.next)) ∧
      w'.policies = w.policies := by
  let w₁ : World ε :=
    { w with
      locks := w.locks.add ()
      parked := w.parked.add (.new t node visitor (.lock w.locks.next)) }
  have h₁ : Keeps w₁ p d l := h.of_eq rfl rfl
  have hhas : (w₁.dictionaries.get d).has w₁.same t.number = false := by
    rw [has_number h₁]
    simpa using ht
  refine ⟨w₁.put d t.number (.parked w.parked.next), ?_, ?_, rfl, rfl⟩
  · have hrest : (park t p node visitor).run w = (do
        lock p
        putItem (← registry p) t.number (.parked w.parked.next)
        return w.parked.next : Act ε (Ref .parked)).run w₁ := rfl
    rw [hrest]
    simp only [run_bind, lock_run h₁, registry_run h₁]
    rfl
  · refine ⟨h₁.lock, h₁.registry, ?_⟩
    simp [World.put, Dictionary.pairs_put, hhas, h₁.pairs, pairsOf]

/-! ## A call is removed -/

/-- The entry of a thread is removed, and no other one. -/
theorem unpark_run (h : Keeps w p d l) (t : Thread) :
    ∃ w', (unpark t p).run w = (.ok (), w') ∧
      Keeps w' p d (l.filter fun x => x.1.id ≠ t.id) ∧ w'.parked = w.parked ∧
      w'.policies = w.policies := by
  refine ⟨w.take d t.number, ?_, ⟨h.lock, h.registry, ?_⟩, rfl, rfl⟩
  · simp [unpark, run_bind, lock_run h, registry_run h]
  · simp only [World.take, Store.get_set, if_true, Dictionary.pairs_erase, h.pairs, pairsOf,
      List.filter_map, Function.comp_def, World.same_number]
    congr 2
    funext x
    simp

/-! ## Calls are woken -/

/-- The registered calls that a wake is meant for: all of them, or the one of the thread of a
number. -/
def meantIn (w : World ε) (l : Entries) (number : Value) : Except Failure (List (Ref .parked)) :=
  if number = .none then .ok (l.map (·.2))
  else
    match w.keyProblem? number with
    | some f => .error f
    | none => .ok ((l.find? fun x => w.same x.1.number number).toList.map (·.2))

theorem meant_run (h : Keeps w p d l) (number : Value) :
    (meant (.dictionary d) number).run w =
      ((meantIn w l number).map (List.map .parked), w) := by
  by_cases hn : number = .none
  · subst hn
    simp [meant, meantIn, Dictionary.values, h.pairs, pairsOf, Except.map, Function.comp_def]
  · have hmeant : meant (ε := ε) (.dictionary d) number = (do
        let key ← look (·.asKey number)
        see fun w => (w.lookup d key).toList) := by
      cases number
      case none => exact absurd rfl hn
      all_goals rfl
    rw [hmeant, run_bind, run_look]
    simp only [meantIn, hn, if_false, World.asKey]
    cases w.keyProblem? number with
    | some f => rfl
    | none =>
      simp only [run_see, World.lookup, Dictionary.find?, h.pairs, pairsOf, List.find?_map,
        Function.comp_def, Except.map]
      cases l.find? fun x => w.same x.1.number number <;> rfl

theorem wakeCall_run (obstruct : Obstruction ε) (cancelled : Bool) (r : Ref .parked)
    (w : World ε) :
    (wakeCall obstruct (.bool cancelled) (.parked r)).run w =
      (.ok (), rouse (w.setOwn (.parked r) ParkedCall.cancelledField (.bool cancelled)) r) := rfl

theorem collect_wakeCall_run (obstruct : Obstruction ε) (cancelled : Bool)
    (calls : List (Ref .parked)) (w : World ε) :
    ∃ us, (collect (wakeCall obstruct (.bool cancelled)) (calls.map .parked)).run w =
      (.ok us, w.woken cancelled calls) := by
  induction calls generalizing w with
  | nil => exact ⟨[], rfl⟩
  | cons r rest ih =>
    obtain ⟨us, hus⟩ :=
      ih (rouse (w.setOwn (.parked r) ParkedCall.cancelledField (.bool cancelled)) r)
    refine ⟨() :: us, ?_⟩
    simp only [List.map_cons, collect, run_bind, wakeCall_run, hus, run_pure]
    rfl

/-- **A wake wakes the registered calls that it is meant for, and says how many these are.** -/
theorem wake_run (h : Keeps w p d l) (obstruct : Obstruction ε) (number : Value)
    (cancelled : Bool) :
    (wake obstruct p number (.bool cancelled)).run w =
      match meantIn w l number with
      | .ok calls => (.ok calls.length, w.woken cancelled calls)
      | .error f => (.error f, w) := by
  have hmeant := meant_run h number
  simp only [wake, run_bind, lock_run h, registry_run h, hmeant]
  cases meantIn w l number with
  | error f => rfl
  | ok calls =>
    obtain ⟨us, hus⟩ := collect_wakeCall_run obstruct cancelled calls w
    simp [Except.map, hus]

theorem Keeps.woken (h : Keeps w p d l) (cancelled : Bool) (calls : List (Ref .parked)) :
    Keeps (w.woken cancelled calls) p d l := by
  rw [World.woken_eq]
  exact h.of_eq rfl rfl

/-- Only registered calls are woken, each of them once. -/
theorem sublist_of_meantIn {number : Value} {calls : List (Ref .parked)}
    (h : meantIn w l number = .ok calls) : calls.Sublist (l.map (·.2)) := by
  unfold meantIn at h
  split at h
  · obtain rfl := Except.ok.inj h
    exact List.Sublist.refl _
  · split at h
    · cases h
    · obtain rfl := Except.ok.inj h
      refine List.Sublist.map _ ?_
      cases hfind : l.find? fun x => w.same x.1.number number with
      | none => exact List.nil_sublist _
      | some x => exact List.singleton_sublist.2 (List.mem_of_find?_eq_some hfind)

end Parking

end GuardedWalk
