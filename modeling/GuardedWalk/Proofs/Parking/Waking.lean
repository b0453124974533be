import GuardedWalk.Proofs.Parking.Lot
import GuardedWalk.Proofs.Walk.Visit

/-!
# How parked calls end

A call that a policy has parked looks at its entry when the entry has been removed: it is cancelled
if the last wake that has counted the call was a cancellation, and otherwise it goes on or its time
is over, as the wait has ended. The entry can still be counted after the wait has ended, so a call
that was woken to go on can be cancelled, and one whose time is over can have been counted.

## Main definitions

* `GuardedWalk.Walk.Stays` — what a thread does after it has been parked.

## Main results

* `GuardedWalk.Walk.path_suspend` — what a thread does that is parked.
* `GuardedWalk.Parking.Lot.outcome_of_parked_call` — how parked calls end, and what wakes count.
* `GuardedWalk.Parking.Lot.resumed_call_is_cancelled` — a call that was woken to go on can end as a
  cancelled one.
-/

set_option autoImplicit false

namespace GuardedWalk

namespace Walk

open Routine Deed

variable {ε κ : Type} {l : List (Deed ε (Call κ))} {t : Thread} {p : Ref .policy}
  {x : Ref .parked} {node visitor : Value}

/-! ## What a thread does that is parked -/

/-- What a thread does after it has been parked: it notes that, waits, leaves the wait and removes
its entry. If the wait could begin and the entry could be removed, it looks at the entry and ends as
that says. -/
inductive Stays (t : Thread) (p : Ref .policy) (x : Ref .parked) (node visitor : Value) :
    List (Deed ε (Call κ)) → Outcome → Prop where
  | ends {wait : List (Deed ε (Call κ))} (said w₁ w₂ w₃ w₄ : World ε) (woken : Bool)
    (silent : Silent wait) (removed : ((Parking.unpark t p).run w₂).1 = .ok ()) :
    Stays t p x node visitor
      (.step said (said.say .debug .guard
        ("Parking thread " ++ t.name ++ " on " ++ said.className node)) :: wait ++
        [.step w₁ ((Parking.leave x).run w₁).2, .step w₂ ((Parking.unpark t p).run w₂).2,
          .step w₃ w₃,
          .step w₄ ((Parking.verdict (w₃.attempt t node visitor) x woken).run w₄).2])
      ((Parking.verdict (w₃.attempt t node visitor) x woken).run w₄).1
  | fails {wait : List (Deed ε (Call κ))} (said w₁ w₂ : World ε) (f : Failure)
    (silent : Silent wait)
    (why : ((Parking.unpark t p).run w₂).1 = .error f ∨
      ∃ (w : World ε) (timeout : Value),
        Limit.ofParking w.clock (w.typeName timeout) timeout = .error f) :
    Stays t p x node visitor
      (.step said (said.say .debug .guard
        ("Parking thread " ++ t.name ++ " on " ++ said.className node)) :: wait ++
        [.step w₁ ((Parking.leave x).run w₁).2, .step w₂ ((Parking.unpark t p).run w₂).2])
      (.error f)

/-- A thread waits until its call is woken or its time is over; it fails at once if that time is
none. -/
theorem path_awaitWake {o : Except Failure Bool}
    (h : Path (awaitWake p x : Steps ε κ Bool) l o) :
    Silent l ∧ ∀ f, o = .error f → ∃ (w : World ε) (timeout : Value),
      Limit.ofParking w.clock (w.typeName timeout) timeout = .error f := by
  obtain ⟨l₁, l₂, r, rfl, h₁, hrest⟩ := Routine.path_bind h
  obtain ⟨hs, -, w, rfl⟩ := path_own h₁
  obtain ⟨timeout, -, h₂⟩ | ⟨g, hg, -⟩ := hrest
  case inr => cases hg
  obtain ⟨l₃, l₄, r, rfl, h₃, hlast⟩ := Routine.path_bind h₂
  obtain ⟨w', rfl, rfl⟩ := path_atomically h₃
  obtain ⟨limit, -, h₄⟩ | ⟨g, hg, rfl, rfl⟩ := hlast
  · obtain ⟨held, rfl, rfl⟩ := path_await h₄
    exact ⟨by simp [hs], fun f hf => by cases hf⟩
  · exact ⟨by simp [hs], fun f hf => by cases hf; exact ⟨w', timeout, hg⟩⟩

/-- What a parked thread does once its entry has been removed. -/
theorem path_verdict {o : Outcome} {woken : Bool}
    (h : Path (do
      let attempt ← read (·.attempt t node visitor)
      if ← act (Parking.isCancelled x) then throw (.foreignTraversal attempt .cancelled)
      else if !woken then throw (.foreignTraversal attempt .timeout)
      else return .none : Steps ε κ Value) l o) :
    ∃ w₃ w₄ : World ε,
      l = [.step w₃ w₃, .step w₄ ((Parking.verdict (w₃.attempt t node visitor) x woken).run w₄).2] ∧
        o = ((Parking.verdict (w₃.attempt t node visitor) x woken).run w₄).1 := by
  obtain ⟨l₁, l₂, r, rfl, h₁, hrest⟩ := Routine.path_bind h
  obtain ⟨w₃, rfl, rfl⟩ := path_atomically h₁
  obtain ⟨attempt, ha, h₂⟩ | ⟨g, hg, -⟩ := hrest
  case inr => cases hg
  obtain rfl := Except.ok.inj ha
  obtain ⟨l₃, l₄, r, rfl, h₃, hlast⟩ := Routine.path_bind h₂
  obtain ⟨w₄, rfl, rfl⟩ := path_atomically h₃
  refine ⟨w₃, w₄, ?_⟩
  simp only [Parking.verdict, Act.run_bind]
  generalize (Parking.isCancelled x).run w₄ = q at hlast ⊢
  obtain ⟨r, w₅⟩ := q
  obtain ⟨cancelled, hr, h₄⟩ | ⟨g, hr, rfl, rfl⟩ := hlast
  · simp only at hr
    subst hr
    cases cancelled <;> cases woken
    case false.true =>
      obtain ⟨rfl, rfl⟩ := path_pure h₄
      exact ⟨rfl, rfl⟩
    all_goals
      obtain ⟨rfl, rfl⟩ := path_throw h₄
      exact ⟨rfl, rfl⟩
  · simp only at hr
    subst hr
    exact ⟨rfl, rfl⟩

/-- What a thread does after it has been parked: it notes that, waits, leaves the wait and removes
its entry. If all that went well, it looks at the entry and ends as that says. -/
inductive Suspends (t : Thread) (p : Ref .policy) (x : Ref .parked) (node visitor : Value) :
    List (Deed ε (Call κ)) → Outcome → Prop where
  | ends {wait : List (Deed ε (Call κ))} {woken : Bool} (said w₁ w₂ w₃ w₄ : World ε)
    (waits : Path (awaitWake p x : Steps ε κ Bool) wait (.ok woken))
    (removed : ((Parking.unpark t p).run w₂).1 = .ok ()) :
    Suspends t p x node visitor
      (.step said (said.say .debug .guard
        ("Parking thread " ++ t.name ++ " on " ++ said.className node)) :: wait ++
        [.step w₁ ((Parking.leave x).run w₁).2, .step w₂ ((Parking.unpark t p).run w₂).2,
          .step w₃ w₃,
          .step w₄ ((Parking.verdict (w₃.attempt t node visitor) x woken).run w₄).2])
      ((Parking.verdict (w₃.attempt t node visitor) x woken).run w₄).1
  | fails {wait : List (Deed ε (Call κ))} {r : Except Failure Bool} (said w₁ w₂ : World ε)
    (f : Failure) (waits : Path (awaitWake p x : Steps ε κ Bool) wait r)
    (why : ((Parking.unpark t p).run w₂).1 = .error f ∨
      ((Parking.unpark t p).run w₂).1 = .ok () ∧ r = .error f) :
    Suspends t p x node visitor
      (.step said (said.say .debug .guard
        ("Parking thread " ++ t.name ++ " on " ++ said.className node)) :: wait ++
        [.step w₁ ((Parking.leave x).run w₁).2, .step w₂ ((Parking.unpark t p).run w₂).2])
      (.error f)

/-- What a thread does that is parked, step by step. -/
theorem path_suspends {o : Outcome}
    (h : Path (suspend t p node visitor : Steps ε κ Value) l o) :
    ∃ w rest, l = .step w ((Parking.park t p node visitor).run w).2 :: rest ∧
      match ((Parking.park t p node visitor).run w).1 with
      | .ok x => Suspends t p x node visitor rest o
      | .error f => rest = [] ∧ o = .error f := by
  obtain ⟨l₁, rest, r, rfl, h₁, hrest⟩ := Routine.path_bind h
  obtain ⟨w, rfl, rfl⟩ := path_atomically h₁
  refine ⟨w, rest, rfl, ?_⟩
  obtain ⟨x, hx, h₂⟩ | ⟨f, hf, rfl, rfl⟩ := hrest
  case inr => simp [hf]
  simp only [hx]
  obtain ⟨l₂, l₃, r, rfl, h₃, hrest⟩ := Routine.path_bind h₂
  obtain ⟨said, rfl, rfl⟩ := path_atomically h₃
  obtain ⟨-, -, h₄⟩ | ⟨g, hg, -⟩ := hrest
  case inr => cases hg
  obtain ⟨l₄, l₅, r, rfl, h₅, hrest⟩ := Routine.path_bind h₄
  obtain ⟨waited, rfl, h₆⟩ := path_outcome h₅
  obtain ⟨woken, hw, h₇⟩ | ⟨g, hg, -⟩ := hrest
  case inr => cases hg
  obtain rfl := Except.ok.inj hw
  obtain ⟨l₆, l₇, r, rfl, h₈, hrest⟩ := Routine.path_bind h₇
  obtain ⟨w₁, rfl, rfl⟩ := path_atomically h₈
  obtain ⟨-, -, h₉⟩ | ⟨g, hg, -⟩ := hrest
  case inr => cases hg
  obtain ⟨l₈, l₉, r, rfl, h₁₀, hrest⟩ := Routine.path_bind h₉
  obtain ⟨w₂, rfl, rfl⟩ := path_atomically h₁₀
  obtain ⟨⟨⟩, hremoved, h₁₁⟩ | ⟨g, hg, rfl, rfl⟩ := hrest
  case inr => exact .fails said w₁ w₂ g h₆ (.inl hg)
  cases waited with
  | error f =>
    obtain ⟨rfl, rfl⟩ := path_throw h₁₁
    exact .fails said w₁ w₂ f h₆ (.inr ⟨hremoved, rfl⟩)
  | ok woken =>
    obtain ⟨w₃, w₄, rfl, rfl⟩ := path_verdict h₁₁
    exact .ends said w₁ w₂ w₃ w₄ h₆ hremoved

/-- Nothing is changed while the thread waits. -/
theorem Suspends.stays {o : Outcome} (h : Suspends t p x node visitor l o) :
    Stays t p x node visitor l o := by
  cases h with
  | ends said w₁ w₂ w₃ w₄ waits removed =>
    exact .ends said w₁ w₂ w₃ w₄ _ (path_awaitWake waits).1 removed
  | fails said w₁ w₂ f waits why =>
    obtain ⟨hsilent, hfails⟩ := path_awaitWake waits
    exact .fails said w₁ w₂ f hsilent (why.imp id fun hr => hfails f hr.2)

/-- What a thread does that is parked: it is entered in the registry, which can fail. -/
theorem path_suspend {o : Outcome}
    (h : Path (suspend t p node visitor : Steps ε κ Value) l o) :
    ∃ w rest, l = .step w ((Parking.park t p node visitor).run w).2 :: rest ∧
      match ((Parking.park t p node visitor).run w).1 with
      | .ok x => Stays t p x node visitor rest o
      | .error f => rest = [] ∧ o = .error f := by
  obtain ⟨w, rest, rfl, hrest⟩ := path_suspends h
  refine ⟨w, rest, rfl, ?_⟩
  cases hpark : ((Parking.park t p node visitor).run w).1 with
  | ok x => exact (by simpa only [hpark] using hrest : Suspends t p x node visitor rest o).stays
  | error f => simpa only [hpark] using hrest

end Walk

namespace Parking

namespace Lot

open Routine (Path)

variable {ε : Type} {obstruct : Obstruction ε} {p : Ref .policy}

/-! ## What wakes count and how calls end -/

/-- Entries are counted once. -/
theorem Sound.nodup_entries {s : Lot ε} {ls : List Label} (h : Sound p ls s) :
    (s.registered.map (·.2)).Nodup := by
  have hentries : (s.stays.map (·.entry)).Nodup :=
    List.pairwise_map.2 (h.distinct.imp fun hne => hne.2)
  refine hentries.sublist ?_
  simp only [registered, entriesOf, List.map_map]
  exact List.filter_sublist.map _

/-- How parked calls end, in any run of any threads. A wake counts registered calls, each of them
once, and says how many it has counted. A call whose entry has been removed ends as a cancelled one
if the last wake that has counted the call was a cancellation; otherwise it goes on if its wait was
ended by a wake, and its time is over if not. A wait that was ended by a wake was counted by one,
but one that was not can have been counted as well, and a call can be counted more than once. And
whatever else happens, a thread that is parked does just this: it is entered, waits, leaves the
wait, removes its entry and looks at it. -/
theorem outcome_of_parked_call {s₀ s : Lot ε} {ls : List Label} (h₀ : Starts p s₀)
    (h : Runs obstruct p s₀ ls s) (κ : Type) :
    (∀ cancelled calls r s', Step obstruct p s (.wake cancelled calls r) s' →
      (∀ n, r = .ok n → n = calls.length) ∧ calls.Nodup ∧
        ∀ v ∈ calls, ∃ y ∈ s.stays, v = .parked y.entry ∧ y.stage.isRegistered = true) ∧
    (∀ x o s', Step obstruct p s (.answer x o) s' →
      ∃ y ∈ s.stays, y.entry = x ∧ ∃ woken, y.stage = .removed woken ∧
        (woken = true → wakesOf x ls ≠ []) ∧
        ∃ w₀ : World ε, o =
          if (wakesOf x ls).getLast? = some true then
            .error (.foreignTraversal (y.attempt w₀) .cancelled)
          else if woken then .ok .none
          else .error (.foreignTraversal (y.attempt w₀) .timeout)) ∧
    ∀ (t : Thread) (node visitor : Value) (l : List (Deed ε (Call κ))) (o : Outcome),
      Path (Walk.suspend t p node visitor : Walk.Steps ε κ Value) l o →
      ∃ w rest, l = .step w ((Parking.park t p node visitor).run w).2 :: rest ∧
        match ((Parking.park t p node visitor).run w).1 with
        | .ok x => Walk.Stays t p x node visitor rest o
        | .error f => rest = [] ∧ o = .error f := by
  have hs := h.sound h₀
  refine ⟨fun cancelled calls r s' hl => ?_, fun x o s' hl => ?_,
    fun _ _ _ _ _ => Walk.path_suspend⟩
  · cases hl with
    | wake number _ =>
      obtain ⟨calls, hcalls, hsub, -, hn⟩ := hs.wake_run obstruct number cancelled
      rw [hcalls]
      refine ⟨by simpa using hn, ?_, fun v hv => ?_⟩
      · have hdistinct : ∀ x y : Ref .parked, x ≠ y → Value.parked x ≠ Value.parked y :=
          fun x y hxy he => hxy (Value.parked.inj he)
        exact List.Pairwise.map _ hdistinct (hs.nodup_entries.sublist hsub)
      · obtain ⟨x, hx, rfl⟩ := List.mem_map.1 hv
        obtain ⟨y, hy, hr, rfl⟩ := mem_registered (hsub.subset hx)
        exact ⟨y, hy, rfl, hr⟩
  · cases hl with
    | @answer before after y woken w₀ hy isRemoved =>
      have htells := hs.tells y (by simp [hy])
      rw [htells.verdict_run]
      exact ⟨y, by simp [hy], rfl, woken, isRemoved,
        fun hw => htells.byWake (by rw [isRemoved]; exact hw), w₀, rfl⟩

/-! ## A wake that comes too early

A call is woken to go on, and cancelled before its thread has removed the entry. -/

namespace Overlap

/-- The policy. -/
def policy : Ref .policy := ⟨0⟩

/-- The call. -/
def entry : Ref .parked := ⟨0⟩

/-- How far the only call has come. -/
def stay (stage : Stage) : Stay := ⟨⟨2, "T1"⟩, entry, .node ⟨0⟩, .none, stage⟩

/-- The world after the policy has been made, without a timeout. -/
def made : World Unit := ((Act.newParkPolicy .none).run (.empty ())).2

/-- The world after a call has been parked. -/
def parked : World Unit :=
  ((Parking.park (stay .waiting).thread policy (stay .waiting).node .none).run made).2

/-- Nobody is parked yet. -/
def start : Lot Unit := ⟨made, []⟩

/-- The world after the call has been woken to go on and then cancelled. -/
def woken : World Unit := (parked.woken false [entry]).woken true [entry]

/-- The world after the thread has left its wait. -/
def ended : World Unit := ((leave entry).run woken).2

/-- The world after the entry has been removed. -/
def removed : World Unit := ((unpark (stay .waiting).thread policy).run ended).2

/-- The thread is about to look at its entry, which has been removed. -/
def left : Lot Unit := ⟨removed, [stay (.removed true)]⟩

theorem starts : Starts policy start :=
  ⟨⟨.none, ⟨0⟩, ⟨0⟩, rfl, rfl⟩, rfl⟩

/-- What has happened. -/
def steps : List Label :=
  [.park entry, .wake false [.parked entry] (.ok 1), .wake true [.parked entry] (.ok 1),
    .ended entry true, .remove entry]

theorem runs (obstruct : Obstruction Unit) : Runs obstruct policy start steps left := by
  have h₁ : Step obstruct policy start (.park entry) ⟨parked, [stay .waiting]⟩ :=
    .park (by simp [start]) (Prod.ext rfl rfl)
  have h₂ : Step obstruct policy ⟨parked, [stay .waiting]⟩
      (.wake false [.parked entry] (.ok 1)) ⟨parked.woken false [entry], [stay .waiting]⟩ :=
    .wake .none false
  have h₃ : Step obstruct policy ⟨parked.woken false [entry], [stay .waiting]⟩
      (.wake true [.parked entry] (.ok 1)) ⟨woken, [stay .waiting]⟩ :=
    .wake .none true
  have h₄ : Step obstruct policy ⟨woken, [stay .waiting]⟩ (.ended entry true)
      ⟨ended, [stay (.ended true)]⟩ :=
    @Step.ended _ _ _ _ [] [] (stay .waiting) true _ rfl rfl (fun _ => rfl) (Prod.ext rfl rfl)
  have h₅ : Step obstruct policy ⟨ended, [stay (.ended true)]⟩ (.remove entry) left :=
    @Step.remove _ _ _ _ [] [] (stay (.ended true)) true _ rfl rfl (Prod.ext rfl rfl)
  exact (((((Runs.refl start).snoc h₁).snoc h₂).snoc h₃).snoc h₄).snoc h₅

end Overlap

open Overlap in
/-- A call that was woken to go on, and counted, can end as a cancelled one: a later wake has
counted it again. -/
theorem resumed_call_is_cancelled :
    ∃ (obstruct : Obstruction Unit) (p : Ref .policy) (s₀ s s' : Lot Unit) (ls : List Label)
      (x : Ref .parked) (a : Attempt),
      Starts p s₀ ∧ Runs obstruct p s₀ ls s ∧ wakesOf x ls = [false, true] ∧
        Step obstruct p s (.answer x (.error (.foreignTraversal a .cancelled))) s' := by
  let obstruct : Obstruction Unit := fun _ w => (.waitCancelled "", w)
  obtain ⟨o, s', hstep⟩ : ∃ o s', Step obstruct policy left (.answer entry o) s' :=
    ⟨_, _, @Step.answer _ _ _ _ [] [] (stay (.removed true)) true (.empty ()) rfl rfl⟩
  obtain ⟨-, houtcome, -⟩ := outcome_of_parked_call starts (runs obstruct) Empty
  obtain ⟨y, hy, -, woken, -, -, w₀, ho⟩ := houtcome _ _ _ hstep
  have hwakes : wakesOf entry steps = [false, true] := by decide
  rw [hwakes] at ho
  simp only [List.getLast?_cons_cons, List.getLast?_singleton, if_true] at ho
  subst ho
  exact ⟨obstruct, policy, start, left, s', steps, entry, _, starts, runs obstruct, hwakes, hstep⟩

end Lot

end Parking

end GuardedWalk
