import GuardedWalk.Proofs.Limit
import GuardedWalk.Proofs.Parking.Waking

/-!
# How parked calls end, given the timeout of their policy

The timeout of a policy is fixed when the policy is made and read by each call that is parked.
Whatever threads do, a parked call goes on, is cancelled or runs out of time, if a wait can last for
the timeout. Otherwise its wait cannot begin, and it fails for the size of the timeout.

## Main definitions

* `GuardedWalk.Parking.Lot.Finds` — a thread finds its call parked.

## Main results

* `GuardedWalk.Parking.Lot.Runs.timed` — the timeout stays.
* `GuardedWalk.Parking.Lot.suspend_ends` — how a thread goes on that is parked.
-/

set_option autoImplicit false

namespace GuardedWalk

namespace Walk

open Routine Deed

variable {ε κ : Type} {l : List (Deed ε (Call κ))} {p : Ref .policy} {x : Ref .parked}

/-- A thread that is parked reads the timeout and works out the limit of its wait; the wait fails if
that does, and ends otherwise. -/
theorem path_awaitWake_limit {o : Except Failure Bool}
    (h : Path (awaitWake p x : Steps ε κ Bool) l o) :
    ∃ w w' : World ε, l = [.step w w, .step w' w'] ∧
      match Limit.ofParking w'.clock (w'.typeName (w.ownValue (.policy p) Policy.timeoutField))
          (w.ownValue (.policy p) Policy.timeoutField) with
      | .error f => o = .error f
      | .ok _ => ∃ held, o = .ok held := by
  obtain ⟨l₁, l₂, r, rfl, h₁, hrest⟩ := Routine.path_bind h
  obtain ⟨w, rfl, rfl⟩ := path_atomically h₁
  obtain ⟨timeout, ht, h₂⟩ | ⟨g, hg, -⟩ := hrest
  case inr => cases hg
  obtain rfl := Except.ok.inj ht
  obtain ⟨l₃, l₄, r, rfl, h₃, hlast⟩ := Routine.path_bind h₂
  obtain ⟨w', rfl, rfl⟩ := path_atomically h₃
  refine ⟨w, w', ?_⟩
  obtain ⟨limit, hlimit, h₄⟩ | ⟨g, hlimit, rfl, rfl⟩ := hlast
  · obtain ⟨held, rfl, rfl⟩ := path_await h₄
    simp only at hlimit
    rw [hlimit]
    exact ⟨rfl, held, rfl⟩
  · simp only at hlimit
    rw [hlimit]
    exact ⟨rfl, rfl⟩

end Walk

namespace Parking

namespace Lot

open Routine (Path)
open Deed

variable {ε : Type} {obstruct : Obstruction ε} {p : Ref .policy} {s₀ s s' : Lot ε} {l : Label}
  {ls : List Label} {v : Value} {t : Thread} {x : Ref .parked} {w : World ε}

/-- No step changes policies, unless it happens elsewhere. -/
theorem Step.policies (hl : Step obstruct p s l s') (h : Sound p ls s) (hne : l ≠ .elsewhere) :
    s'.world.policies = s.world.policies := by
  cases hl with
  | park ht run => exact (h.parked ht run).2.2.2
  | wake number cancelled =>
    obtain ⟨calls, -, -, hworld, -⟩ := h.wake_run obstruct number cancelled
    rw [hworld, World.woken_eq]
  | ended hy waiting hw run =>
    obtain ⟨-, rfl⟩ := Prod.mk.inj run
    rfl
  | remove hy isOver run => exact (h.unparked run).2.2
  | answer w₀ hy isRemoved =>
    rw [(h.tells _ (by simp [hy])).verdict_run]
  | elsewhere w' hw => exact absurd rfl hne

/-- No step changes what the policy carries. -/
theorem Step.policy (hl : Step obstruct p s l s') (h : Sound p ls s) :
    s'.world.carried (.policy p) = s.world.carried (.policy p) := by
  by_cases hne : l = .elsewhere
  · subst hne
    cases hl with
    | elsewhere w' hw => exact hw.policy
  · simp [World.carried, World.own?, hl.policies h hne]

/-- The timeout of a policy stays. -/
theorem Runs.timed (h : Runs obstruct p s ls s') (h₀ : Starts p s)
    (hv : s.world.ownValue (.policy p) Policy.timeoutField = v) :
    s'.world.ownValue (.policy p) Policy.timeoutField = v := by
  induction h with
  | refl => exact hv
  | snoc hr hl ih =>
    rw [World.ownValue_eq, hl.policy (hr.sound h₀), ← World.ownValue_eq]
    exact ih

/-- A thread finds a world to which others and it can have come and in which its call is parked. -/
def Finds (obstruct : Obstruction ε) (p : Ref .policy) (s₀ : Lot ε) (t : Thread)
    (x : Ref .parked) (w : World ε) : Prop :=
  ∃ ls s, Runs obstruct p s₀ ls s ∧ s.world = w ∧ ∃ y ∈ s.stays, y.thread = t ∧ y.entry = x

section Finds

variable (h : Finds obstruct p s₀ t x w) (h₀ : Starts p s₀)
include h h₀

theorem Finds.timeout (hv : s₀.world.ownValue (.policy p) Policy.timeoutField = v) :
    w.ownValue (.policy p) Policy.timeoutField = v := by
  obtain ⟨ls, s, hr, rfl, -⟩ := h
  exact hr.timed h₀ hv

/-- The entry of the call can be removed. -/
theorem Finds.unpark : ((Parking.unpark t p).run w).1 = .ok () := by
  obtain ⟨ls, s, hr, rfl, -⟩ := h
  obtain ⟨d, hd⟩ := (hr.sound h₀).keeps
  obtain ⟨w', hrun, -⟩ := unpark_run hd t
  rw [hrun]

/-- The call goes on, is cancelled or has run out of time. -/
theorem Finds.verdict (a : Attempt) (woken : Bool) :
    ((Parking.verdict a x woken).run w).1 = .ok .none ∨
      ∃ reason, ((Parking.verdict a x woken).run w).1 = .error (.foreignTraversal a reason) := by
  obtain ⟨ls, s, hr, rfl, y, hy, -, rfl⟩ := h
  rw [((hr.sound h₀).tells y hy).verdict_run]
  by_cases hlast : (wakesOf y.entry ls).getLast? = some true
  · exact .inr ⟨.cancelled, by simp [hlast]⟩
  · cases woken with
    | true => exact .inl (by simp [hlast])
    | false => exact .inr ⟨.timeout, by simp [hlast]⟩

end Finds

/-- How the wait of a parked call ends: it can begin if a wait can last for the timeout of the
policy, and fails because of the timeout otherwise. -/
theorem wait_ends {κ : Type} (h₀ : Starts p s₀)
    (hv : s₀.world.ownValue (.policy p) Policy.timeoutField = v) (hwait : v = .none ∨ v.IsWait)
    {wait : List (Deed ε (Call κ))} {r : Except Failure Bool}
    (hpath : Path (Walk.awaitWake p x : Walk.Steps ε κ Bool) wait r)
    (hfound : ∀ w w', .step w w' ∈ wait → Finds obstruct p s₀ t x w) :
    (v.IsBearable ∧ ∃ woken, r = .ok woken) ∨ ¬ v.IsBearable ∧ r = .error .waitTooLong := by
  obtain ⟨wt, wl, rfl, hlimit⟩ := Walk.path_awaitWake_limit hpath
  rw [(hfound wt wt (by simp)).timeout h₀ hv] at hlimit
  rcases Limit.ofParking_cases hwait wl.clock (wl.typeName v) with ⟨hb, limit, hok⟩ | ⟨hb, herror⟩
  · rw [hok] at hlimit
    exact .inl ⟨hb, hlimit⟩
  · rw [herror] at hlimit
    exact .inr ⟨hb, hlimit⟩

/-- How a thread goes on that is parked. It comes when it is not parked yet, and finds its call
parked from then on, whatever else happens. If a wait can last for the timeout of the policy, the
thread goes on without a result, or fails as one whose attempt was refused; otherwise it fails
because of the timeout. -/
theorem suspend_ends {κ : Type} (h₀ : Starts p s₀)
    (hv : s₀.world.ownValue (.policy p) Policy.timeoutField = v) (hwait : v = .none ∨ v.IsWait)
    {node visitor : Value} {w₀ w₁ : World ε} {rest : List (Deed ε (Call κ))} {o : Outcome}
    (hpath : Path (Walk.suspend t p node visitor : Walk.Steps ε κ Value)
      (.step w₀ w₁ :: rest) o)
    (hcomes : ∃ ls s, Runs obstruct p s₀ ls s ∧ s.world = w₀ ∧
      ∀ y ∈ s.stays, y.thread.id ≠ t.id)
    (hfinds : ∀ x, ((Parking.park t p node visitor).run w₀).1 = .ok x →
      ∀ w w', .step w w' ∈ rest → Finds obstruct p s₀ t x w) :
    (v.IsBearable ∧ (o = .ok .none ∨ ∃ a reason, o = .error (.foreignTraversal a reason))) ∨
      ¬ v.IsBearable ∧ o = .error .waitTooLong := by
  obtain ⟨ls, s, hr, rfl, ht⟩ := hcomes
  obtain ⟨w', hrun, -⟩ := (hr.sound h₀).park_run ht node visitor
  obtain ⟨w, rest', hl, hgoes⟩ := Walk.path_suspends hpath
  obtain ⟨hw, rfl⟩ := List.cons.inj hl
  obtain ⟨rfl, -⟩ := Deed.step.inj hw
  have hparked : ((Parking.park t p node visitor).run s.world).1 = .ok s.world.parked.next := by
    rw [hrun]
  have hfound := hfinds _ hparked
  simp only [hparked] at hgoes
  cases hgoes with
  | @ends wait woken said w₁ w₂ w₃ w₄ waits removed =>
    have hwaited := wait_ends h₀ hv hwait waits fun w w' hw => hfound w w' (by simp [hw])
    rcases hwaited with ⟨hb, -⟩ | ⟨-, hr⟩
    · refine .inl ⟨hb, ?_⟩
      let looks := (Parking.verdict (w₃.attempt t node visitor) s.world.parked.next woken).run w₄
      exact ((hfound w₄ looks.2 (by simp [looks])).verdict h₀ (w₃.attempt t node visitor) woken).imp
        id fun ⟨reason, hno⟩ => ⟨_, reason, hno⟩
    · cases hr
  | fails said w₁ w₂ f waits why =>
    have hwaited := wait_ends h₀ hv hwait waits fun w w' hw => hfound w w' (by simp [hw])
    rcases why with hstuck | ⟨-, rfl⟩
    · -- an entry that is there can be removed
      have hin := hfound w₂ ((Parking.unpark t p).run w₂).2 (by simp)
      cases (hin.unpark h₀).symm.trans hstuck
    · rcases hwaited with ⟨-, woken, hr⟩ | ⟨hb, hr⟩
      · cases hr
      · rw [Except.error.inj hr]
        exact .inr ⟨hb, rfl⟩

end Lot

end Parking

end GuardedWalk
