import GuardedWalk.Proofs.Ownership.Discipline
import GuardedWalk.Proofs.Ownership.Timeout
import GuardedWalk.Proofs.Parking.Timeout
import GuardedWalk.Proofs.Walk.Making

/-!
# What accepted timeouts promise

The check of a configuration accepts every timeout that is not below zero. An entry to a walker made
of an accepted configuration gets its token, or waits, or fails because it has waited long enough or
because its wait was cancelled; and a call that the policy of the walker has parked goes on or is
refused. All that holds under every order of the steps of any threads, but only if a wait can last
for the timeout. An accepted timeout that is more than the longest wait makes every entry to a busy
walker fail, and every parked call, whatever else happens.

## Main definitions

* `GuardedWalk.Ownership.Contest.Ends` — how an attempt to get a token ends under a timeout.

## Main results

* `GuardedWalk.Walk.acquire_ends`, `GuardedWalk.Walk.awaitToken_ends` — how entries and waits end.
* `GuardedWalk.Walk.waits_under_accepted_timeouts` — what the timeouts of a configuration without
  problems promise.
-/

set_option autoImplicit false

namespace GuardedWalk

open Routine (Path)

variable {ε κ : Type}

/-- How an attempt of a thread to get a token ends under a timeout, and what the thread still does:
it has the token, or waits, or fails because its time is over, because its wait was cancelled, or
because a wait cannot last for the timeout. -/
inductive Ownership.Contest.Ends (k : Ref .token) (timeout : Value) (t : Thread) (w : World ε) :
    List (Deed ε (Call κ)) → Outcome → Prop where
  /-- The thread has the token. -/
  | got {rest : List (Deed ε (Call κ))} (v : Value) (hc : Deed.calls rest = []) :
    Ends k timeout t w rest (.ok v)
  /-- The thread waits, and its attempt ends as the wait does. -/
  | waits (ticket : Ticket) (o : Outcome) (hl : ticket.limit.hasPassed w.clock = false) :
    Ends k timeout t w [.call (.await k ticket) o] o
  /-- The thread has waited long enough for a busy walker. -/
  | busy (owner text : String) : Ends k timeout t w [] (.error (.busy owner t.name text))
  /-- The wait was cancelled. -/
  | cancelled : Ends k timeout t w [] (.error (.waitCancelled t.name))
  /-- A wait cannot last for the timeout. -/
  | overlong (hv : ¬ timeout.IsBearable) : Ends k timeout t w [] (.error (Limit.overlong timeout))

namespace Walk

open Routine Deed Ownership Ownership.Contest

variable {k : Ref .token} {timeout : Value} {t : Thread} {w w' : World ε}
  {rest : List (Deed ε (Call κ))} {o : Outcome} {s₀ s : Contest ε} {ls : List Label}

/-- A thread that has got the token, or has to wait, goes on as it should. -/
theorem settle_ends {entry : Entry} (h : Path (settle t k entry : Steps ε κ Value) rest o)
    (hl : ∀ ticket, entry = .waits ticket → ticket.limit.hasPassed w.clock = false) :
    Ends k timeout t w rest o := by
  have hgot : ∀ {l}, Path (sessionOf k : Steps ε κ Value) l o → calls rest = calls l →
      Ends k timeout t w rest o := fun h hc => by
    obtain ⟨-, hnone, w, rfl⟩ := path_own h
    exact .got _ (hc.trans hnone)
  cases entry with
  | nested => exact hgot h rfl
  | opened =>
    obtain ⟨l₁, l₂, r, rfl, h₁, hrest⟩ := Routine.path_bind h
    obtain ⟨w₁, rfl, rfl⟩ := path_atomically h₁
    obtain ⟨a, -, h₂⟩ | ⟨g, hg, -⟩ := hrest
    · exact hgot h₂ (by simp)
    · cases hg
  | waits ticket =>
    rw [path_invoke h]
    exact .waits ticket o (hl ticket rfl)

/-- A thread goes on as it should after an attempt that ends as it should. -/
theorem act_settle_ends {a : Act ε Entry}
    (h : Path (do settle t k (← act a) : Steps ε κ Value) (.step w w' :: rest) o)
    (hl : ∀ ticket, (a.run w).1 = .ok (.waits ticket) → ticket.limit.hasPassed w.clock = false)
    (hf : ∀ f, (a.run w).1 = .error f → (∃ owner text, f = .busy owner t.name text) ∨
      f = .waitCancelled t.name ∨ ¬ timeout.IsBearable ∧ f = Limit.overlong timeout) :
    Ends k timeout t w rest o := by
  obtain ⟨l₁, l₂, r, hsplit, h₁, hrest⟩ := Routine.path_bind h
  obtain ⟨w₁, rfl, rfl⟩ := path_atomically h₁
  obtain ⟨hstep, rfl⟩ := List.cons.inj hsplit
  obtain ⟨rfl, -⟩ := Deed.step.inj hstep
  obtain ⟨entry, hr, h₂⟩ | ⟨f, hr, rfl, rfl⟩ := hrest
  · exact settle_ends h₂ fun ticket ht => hl ticket (ht ▸ hr)
  · rcases hf f hr with ⟨owner, text, rfl⟩ | rfl | ⟨hv, rfl⟩
    · exact .busy owner text
    · exact .cancelled
    · exact .overlong hv

section Contest

variable (h₀ : Starts k s₀) (h : Runs k s₀ ls s) (hv : timeout.IsWait)
  (htimeout : s₀.world.ownValue (.token k) Token.timeoutField = timeout)
include h₀ h hv htimeout

/-- How an entry ends of a thread that is not inside a wait. -/
theorem acquire_ends (ht : ∀ y ∈ s.waits, y.thread.id ≠ t.id)
    (hpath : Path (acquire t k : Steps ε κ Value) (.step s.world w' :: rest) o) :
    Ends k timeout t s.world rest o := by
  obtain ⟨x, hx, rfl, hwaits⟩ := h.timed h₀ htimeout
  obtain ⟨hl, hf⟩ := attempt_ends hx hwaits hv (Step.enter t none ht) rfl
  exact act_settle_ends hpath hl hf

/-- How a wait ends when the thread looks at the token again. -/
theorem awaitToken_ends {y : Wait} (hy : y ∈ s.waits)
    (hpath : Path (awaitToken y.thread k y.ticket : Steps ε κ Value) (.step s.world w' :: rest) o) :
    Ends k timeout y.thread s.world rest o := by
  obtain ⟨x, hx, rfl, hwaits⟩ := h.timed h₀ htimeout
  obtain ⟨before, after, hsplit⟩ := List.append_of_mem hy
  obtain ⟨hl, hf⟩ := attempt_ends hx hwaits hv (Step.recheck y before after hsplit) rfl
  obtain ⟨l₁, l₂, r, heq, h₁, hrest⟩ := Routine.path_bind hpath
  obtain ⟨held, rfl, rfl⟩ := path_await h₁
  obtain ⟨a, -, h₂⟩ | ⟨g, hg, -⟩ := hrest
  · rw [List.nil_append] at heq
    exact act_settle_ends (heq ▸ h₂) hl hf
  · cases hg

/-- An entry of a thread that finds the walker busy on another one fails if a wait cannot last for
the timeout. -/
theorem acquire_overlong (hlong : ¬ timeout.IsBearable) (hbusy : s.session k ≠ .none)
    (ht : ∀ b ∈ s.blocks, b.thread.id ≠ t.id)
    (hpath : Path (acquire t k : Steps ε κ Value) (.step s.world w' :: rest) o) :
    o = .error (Limit.overlong timeout) := by
  obtain ⟨x, hx, rfl, -⟩ := h.timed h₀ htimeout
  have hfails := overlong_entry_fails hx hv hlong hbusy ht
  obtain ⟨w, rest, hsplit, hgoes⟩ := path_acquire hpath
  obtain ⟨hstep, rfl⟩ := List.cons.inj hsplit
  obtain ⟨rfl, -⟩ := Deed.step.inj hstep
  rw [hfails] at hgoes
  exact hgoes.2

end Contest

/-! ## Walkers that have just been made -/

section Made

variable {r : Ref .config} {observers : List Value} {stepMother : Value} {i : Ref .walker}
  {k : Ref .token} {p : Ref .policy}

/-- The token of a walker that has just been made has the timeout of the configuration, and nobody
holds it or waits for it. -/
theorem made_token_starts (hc : (w.configs.get r).Complete)
    (hp : (w.configs.get r).Consistent)
    (hmade : (Act.assembleWalker observers (.config r) stepMother).run w = (.ok (.walker i), w'))
    (hk : (w'.carried (.walker i)).get? Walker.ownershipField = some (.token k)) :
    Starts k ⟨w', [], [], []⟩ ∧
      w'.ownValue (.token k) Token.timeoutField = (w.configs.get r).ownershipTimeout := by
  obtain ⟨policy, quiet, ps, ks, ds, ls, hrun, -, -⟩ :=
    Act.assembleWalker_eq hc hp.mode observers stepMother
  obtain ⟨hi, rfl⟩ := Prod.mk.inj (hmade.symm.trans hrun)
  obtain rfl : i = w.walkers.next := Value.walker.inj (Except.ok.inj hi)
  rw [Act.carried_assembled_walker] at hk
  obtain rfl : w.tokens.next = k := Value.token.inj (Option.some.inj hk)
  refine ⟨⟨⟨(w.configs.get r).ownershipTimeout, w.conditions.next, w.conditions.next, ?_, ?_⟩,
    rfl, rfl, rfl⟩, ?_⟩
  · simp [Act.assembled, Store.get_add]
  · simp only [Act.assembled, Store.get_add, if_true]
    rfl
  · rw [World.ownValue_eq, Act.carried_assembled_token]
    rfl

/-- The policy of a walker that has just been made, if it suspends callers, has the timeout of the
configuration, and nobody is parked. -/
theorem made_policy_starts (hc : (w.configs.get r).Complete)
    (hp : (w.configs.get r).Consistent) (hmode : (w.configs.get r).foreignTraversal = .mode .park)
    (hmade : (Act.assembleWalker observers (.config r) stepMother).run w = (.ok (.walker i), w'))
    (hpolicy : (w'.carried (.walker i)).get? Walker.policyField = some (.policy p)) :
    Parking.Lot.Starts p ⟨w', []⟩ ∧
      w'.ownValue (.policy p) Policy.timeoutField = (w.configs.get r).parkTimeout := by
  obtain ⟨policy, quiet, ps, ks, ds, ls, hrun, -, hasks⟩ :=
    Act.assembleWalker_eq hc hp.mode observers stepMother
  obtain ⟨hi, rfl⟩ := Prod.mk.inj (hmade.symm.trans hrun)
  obtain rfl : i = w.walkers.next := Value.walker.inj (Except.ok.inj hi)
  rw [Act.carried_assembled_walker] at hpolicy
  obtain rfl : policy = .policy p := Option.some.inj hpolicy
  generalize hpol : Value.policy p = policy at hasks
  cases hasks with
  | park _ p' y d body unused =>
    obtain rfl := Value.policy.inj hpol
    refine ⟨⟨⟨_, y, d, body, unused⟩, rfl⟩, ?_⟩
    simp only [World.ownValue_eq, World.carried, World.own?, body]
    rfl
  | custom mode | reject mode | record mode => exact absurd (mode.symm.trans hmode) (by simp)

end Made

/-- **What the timeouts of a configuration without problems promise.** A walker is made of such a
configuration, and from then on any threads take their steps in any order. An entry ends with the
token, waits with a limit that has not passed, or fails because the thread has waited long enough or
its wait was cancelled, and so does each wait when the thread looks again; only if the timeout is
more than a wait can last it fails for that, and then so does every entry that finds the walker busy
on another thread. A call that is parked, if the configuration says so, goes on or is refused if a
wait can last for the timeout, and otherwise it fails for that. -/
theorem waits_under_accepted_timeouts {w made : World ε} {r : Ref .config} {i : Ref .walker}
    {k : Ref .token} {observers : List Value} {stepMother : Value}
    (hc : (w.configs.get r).Complete) (haccepted : w.problems (w.configs.get r) = .ok [])
    (hmade : (Act.assembleWalker observers (.config r) stepMother).run w =
      (.ok (.walker i), made))
    (hk : (made.carried (.walker i)).get? Walker.ownershipField = some (.token k))
    (obstruct : Obstruction ε) (κ : Type) :
    (∀ ls s, Runs k ⟨made, [], [], []⟩ ls s →
      (∀ (t : Thread) (w' : World ε) (rest : List (Deed ε (Call κ))) (o : Outcome),
        (∀ y ∈ s.waits, y.thread.id ≠ t.id) →
        Path (acquire t k : Steps ε κ Value) (.step s.world w' :: rest) o →
        Ends k (w.configs.get r).ownershipTimeout t s.world rest o ∧
          (¬ (w.configs.get r).ownershipTimeout.IsBearable → s.session k ≠ .none →
            (∀ b ∈ s.blocks, b.thread.id ≠ t.id) →
            o = .error (Limit.overlong (w.configs.get r).ownershipTimeout))) ∧
      ∀ y ∈ s.waits, ∀ (w' : World ε) (rest : List (Deed ε (Call κ))) (o : Outcome),
        Path (awaitToken y.thread k y.ticket : Steps ε κ Value) (.step s.world w' :: rest) o →
        Ends k (w.configs.get r).ownershipTimeout y.thread s.world rest o) ∧
    ((w.configs.get r).foreignTraversal = .mode .park → ∀ p : Ref .policy,
      (made.carried (.walker i)).get? Walker.policyField = some (.policy p) →
      ∀ (t : Thread) (node visitor : Value) (w₀ w₁ : World ε) (rest : List (Deed ε (Call κ)))
        (o : Outcome),
        Path (suspend t p node visitor : Steps ε κ Value) (.step w₀ w₁ :: rest) o →
        (∃ ls s, Parking.Lot.Runs obstruct p ⟨made, []⟩ ls s ∧ s.world = w₀ ∧
          ∀ y ∈ s.stays, y.thread.id ≠ t.id) →
        (∀ x, ((Parking.park t p node visitor).run w₀).1 = .ok x →
          ∀ w w', .step w w' ∈ rest → Parking.Lot.Finds obstruct p ⟨made, []⟩ t x w) →
        ((w.configs.get r).parkTimeout.IsBearable ∧
          (o = .ok .none ∨ ∃ a reason, o = .error (.foreignTraversal a reason))) ∨
        ¬ (w.configs.get r).parkTimeout.IsBearable ∧ o = .error .waitTooLong) := by
  have hp : (w.configs.get r).Consistent := World.problems_eq_nil_iff.1 haccepted
  obtain ⟨hstarts, htimeout⟩ := made_token_starts hc hp hmade hk
  refine ⟨fun ls s hr => ⟨fun t w' rest o ht hpath => ⟨?_, fun hlong hbusy hother => ?_⟩,
    fun y hy w' rest o hpath => ?_⟩, fun hmode p hpolicy t node visitor w₀ w₁ rest o hpath => ?_⟩
  · exact acquire_ends hstarts hr hp.ownershipTimeout htimeout ht hpath
  · exact acquire_overlong hstarts hr hp.ownershipTimeout htimeout hlong hbusy hother hpath
  · exact awaitToken_ends hstarts hr hp.ownershipTimeout htimeout hy hpath
  · obtain ⟨hlot, hpark⟩ := made_policy_starts hc hp hmode hmade hpolicy
    exact Parking.Lot.suspend_ends hlot hpark hp.parkTimeout hpath

/-! ## A walker that can neither be waited for nor park -/

namespace Endless

/-- A configuration whose callers are suspended, with timeouts without end. -/
def config : Config :=
  (Config.plain (.dictionary ⟨0⟩)).changed [("foreign_traversal", .mode .park),
    ("park_timeout", .float (.infinite false)), ("ownership_timeout", .float (.infinite false))]

/-- Where it is. -/
def world : World Unit :=
  { World.empty () with configs := ⟨#[config]⟩, dictionaries := ⟨#[.empty]⟩ }

/-- The world after a walker has been made of it. -/
def made : World Unit := ((Act.assembleWalker [] (.config ⟨0⟩) .none).run world).2

/-- The token of the walker. -/
def token : Ref .token := ⟨0⟩

/-- The policy of the walker. -/
def policy : Ref .policy := ⟨0⟩

/-- The thread that comes first, and gets the token. -/
def first : Thread := ⟨1, "A"⟩

/-- The thread that comes second. -/
def second : Thread := ⟨2, "B"⟩

/-- The world after the first thread has entered. -/
def taken : World Unit := ((Ownership.enter first token).run made).2

/-- The first thread holds the token. -/
def busy : Contest Unit := ⟨taken, [⟨first, .session ⟨0⟩, none⟩], [], [.session ⟨0⟩]⟩

theorem runs : ∃ ls, Runs token ⟨made, [], [], []⟩ ls busy := by
  have run : (Ownership.enter first token).run made = (.ok .opened, taken) := Prod.ext rfl rfl
  have h : Step token ⟨made, [], [], []⟩ (.enter first none (.ok .opened)) busy := by
    have h := Step.enter (k := token) (s := ⟨made, [], [], []⟩) first none (by simp)
    rwa [run] at h
  exact ⟨_, (Runs.refl _).snoc h⟩

theorem complete : (world.configs.get ⟨0⟩).Complete := by
  have hall : ∀ name ∈ Config.settingNames,
      ((world.configs.get ⟨0⟩).attributes.get? name).isSome := by decide
  exact fun name hn => Option.isSome_iff_exists.1 (hall name hn)

/-- The entry of the call that the second thread makes, and how far it has come. -/
def stay (stage : Parking.Stage) : Parking.Stay :=
  ⟨second, ⟨0⟩, .node ⟨0⟩, .none, stage⟩

/-- The world after the call has been parked. -/
def parked : World Unit := ((Parking.park second policy (.node ⟨0⟩) .none).run made).2

/-- The world after the thread has left its wait, which did not begin. -/
def ended : World Unit := ((Parking.leave ⟨0⟩).run parked).2

/-- What the thread does after the call has been parked: it says so, reads the timeout, works out
its limit, and removes what it has entered. -/
def doings : List (Deed Unit (Call Empty)) :=
  [.step parked (parked.say .debug .guard ("Parking thread B on " ++ parked.className (.node ⟨0⟩))),
    .step parked parked, .step parked parked, .step parked ended,
    .step ended ((Parking.unpark second policy).run ended).2]

theorem path : ∃ o, Path (suspend second policy (.node ⟨0⟩) .none : Steps Unit Empty Value)
    (.step made parked :: doings) o :=
  ⟨_, .step made (.step parked (.step parked (.step parked (.step parked (.step ended
    (.done _))))))⟩

theorem lot_runs (obstruct : Obstruction Unit) (w w' : World Unit) (h : .step w w' ∈ doings) :
    Parking.Lot.Finds obstruct policy ⟨made, []⟩ second ⟨0⟩ w := by
  have h₁ : Parking.Lot.Step obstruct policy ⟨made, []⟩ (.park ⟨0⟩) ⟨parked, [stay .waiting]⟩ :=
    .park (by simp) (Prod.ext rfl rfl)
  have h₂ : Parking.Lot.Step obstruct policy ⟨parked, [stay .waiting]⟩ (.ended ⟨0⟩ false)
      ⟨ended, [stay (.ended false)]⟩ :=
    @Parking.Lot.Step.ended _ _ _ _ [] [] (stay .waiting) false _ rfl rfl nofun (Prod.ext rfl rfl)
  have hparked : Parking.Lot.Finds obstruct policy ⟨made, []⟩ second ⟨0⟩ parked :=
    ⟨_, _, (Parking.Lot.Runs.refl _).snoc h₁, rfl, stay .waiting, by simp, rfl, rfl⟩
  have hended : Parking.Lot.Finds obstruct policy ⟨made, []⟩ second ⟨0⟩ ended :=
    ⟨_, _, ((Parking.Lot.Runs.refl _).snoc h₁).snoc h₂, rfl, stay (.ended false), by simp, rfl, rfl⟩
  simp only [doings, List.mem_cons, Deed.step.injEq, List.not_mem_nil, or_false] at h
  rcases h with ⟨rfl, -⟩ | ⟨rfl, -⟩ | ⟨rfl, -⟩ | ⟨rfl, -⟩ | ⟨rfl, -⟩
  all_goals first | exact hparked | exact hended

theorem not_isBearable : ¬ (Value.float (.infinite false)).IsBearable := by
  rw [Limit.isBearable_iff rfl]
  exact Limit.ofNumber_eq_excessive_iff.1 (rfl : Limit.ofNumber 0 _ = .excessive)

end Endless

open Endless in
/-- A configuration without problems can have timeouts without end. An entry to a busy walker that
is made of it fails because a wait cannot last so long, and so does a parked call. -/
theorem endless_waits_fail :
    world.problems (world.configs.get ⟨0⟩) = .ok [] ∧
    (∃ w', Path (acquire second token : Steps Unit Empty Value) [.step busy.world w']
      (.error .waitTooLong)) ∧
    Path (suspend second policy (.node ⟨0⟩) .none : Steps Unit Empty Value)
      (.step made parked :: doings) (.error .waitTooLong) := by
  have haccepted : world.problems (world.configs.get ⟨0⟩) = .ok [] := rfl
  obtain ⟨hentries, hparks⟩ := @waits_under_accepted_timeouts Unit world made ⟨0⟩ ⟨0⟩ token [] .none
    complete haccepted (Prod.ext rfl rfl) rfl (fun _ w => (.waitTooLong, w)) Empty
  refine ⟨haccepted, ?_, ?_⟩
  · obtain ⟨ls, hruns⟩ := runs
    obtain ⟨o, hpath⟩ : ∃ o, Path (acquire second token : Steps Unit Empty Value)
      [.step busy.world ((Ownership.enter second token).run taken).2] o := ⟨_, .step taken (.done _)⟩
    have hsession : busy.session token ≠ .none := show Value.session ⟨0⟩ ≠ .none from nofun
    have hfails := ((hentries ls busy hruns).1 second _ _ o (by simp [busy]) hpath).2
      not_isBearable hsession (by simp [busy, first, second])
    exact ⟨_, hfails ▸ hpath⟩
  · obtain ⟨o, hpath⟩ := path
    rcases hparks rfl policy rfl _ _ _ _ _ _ o hpath ⟨_, _, .refl _, rfl, by simp⟩
      (fun x hx w w' h => by
        obtain rfl : (⟨0⟩ : Ref .parked) = x := Except.ok.inj hx
        exact lot_runs _ w w' h) with ⟨hb, -⟩ | ⟨-, rfl⟩
    · exact absurd hb not_isBearable
    · exact hpath

end Walk

end GuardedWalk
