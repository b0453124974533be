import GuardedWalk.Proofs.Limit
import GuardedWalk.Proofs.Ownership.Contest

/-!
# How attempts to get a token end

A timeout is fixed when a token is made and read again by each thread that comes. Whatever threads
do, an attempt to get the token that neither gets it nor waits fails because its time is over or its
wait was cancelled, if a wait can last for the timeout. Otherwise nobody ever waits, and whoever
finds another thread in possession fails for the size of the timeout.

## Main definitions

* `GuardedWalk.Ownership.Contest.Unhurried` — nobody waits for longer than a wait can last.

## Main results

* `GuardedWalk.Ownership.Contest.Runs.timed` — the timeout stays and nobody waits too long.
* `GuardedWalk.Ownership.Contest.attempt_ends` — how attempts end.
* `GuardedWalk.Ownership.Contest.overlong_entry_fails` — entries with a timeout that is too much.
-/

set_option autoImplicit false

namespace GuardedWalk

namespace Ownership

variable {ε : Type}

/-- Why a look at a token fails. -/
theorem Contends.fails {t : Thread} {g : Int} {limit : Limit} {w w' : World ε} {x x' : View}
    {f : Failure} (h : Contends t g limit w x (.error f) w' x') :
    (∃ owner text, f = .busy owner t.name text) ∨ f = .waitCancelled t.name ∨
      limit = .excessive ∧ f = .waitTooLong := by
  cases h with
  | cancelled => exact .inr (.inl rfl)
  | late text => exact .inl ⟨_, text, rfl⟩
  | tooLong _ _ hl => exact .inr (.inr ⟨hl, rfl⟩)

/-- Whoever begins to wait has a limit that has not passed and is not too late. -/
theorem Contends.waits {t : Thread} {g : Int} {limit : Limit} {w w' : World ε} {x x' : View}
    {ticket : Ticket} (h : Contends t g limit w x (.ok (.waits ticket)) w' x') :
    ticket.limit = limit ∧ limit.hasPassed w.clock = false ∧ limit ≠ .excessive := by
  cases h with
  | sleeps _ _ hl _ he => exact ⟨rfl, hl, he⟩

namespace Contest

variable {k : Ref .token} {s s' : Contest ε} {x x' : View} {l : Label} {ls : List Label}
  {v : Value} {t : Thread}

/-- Nobody waits for longer than a wait can last. -/
def Unhurried (s : Contest ε) : Prop := ∀ y ∈ s.waits, y.ticket.limit ≠ .excessive

/-- No step changes the timeout. -/
theorem Turns.timeout {w w' : World ε} (h : Turns k w x l w' x') : x'.timeout = x.timeout := by
  cases h with
  | enter he => exact he.fixed.2.2
  | recheck _ _ hc => exact hc.fixed.2.2
  | _ => rfl

/-- Whoever waits after an attempt does so with a limit that had not passed and is not too late. -/
theorem Turns.waits {w w' : World ε} {ticket : Ticket} (h : Turns k w x l w' x')
    (hl : l.attempt? = some (t, .ok (.waits ticket))) :
    ticket.limit.hasPassed w.clock = false ∧ ticket.limit ≠ .excessive := by
  cases h with
  | enter he =>
    obtain ⟨-, rfl⟩ := Prod.mk.inj (Option.some.inj hl)
    cases he with
    | looks _ _ hc =>
      obtain ⟨hlimit, hpassed⟩ := hc.waits
      rwa [hlimit]
  | recheck _ h₁ hc =>
    obtain ⟨-, rfl⟩ := Prod.mk.inj (Option.some.inj hl)
    obtain ⟨hlimit, hpassed⟩ := hc.waits
    rwa [hlimit, ← h₁.2]
  | _ => cases hl

/-- Nobody begins to wait for longer than a wait can last. -/
theorem Unhurried.step (hs : Unhurried s) (h : Sound k s x) (hl : Step k s l s') :
    Unhurried s' := by
  obtain ⟨x', hturns, -⟩ := h.step hl
  intro y hy
  rcases h.mem_waits hl hy with ⟨hy, -⟩ | hnew
  · exact hs y hy
  · exact (hturns.waits hnew).2

/-- **The timeout of a token stays, and nobody waits for longer than a wait can last.** -/
theorem Runs.timed (h : Runs k s ls s') (h₀ : Starts k s)
    (hv : s.world.ownValue (.token k) Token.timeoutField = v) :
    ∃ x, Sound k s' x ∧ x.timeout = v ∧ Unhurried s' := by
  induction h with
  | refl =>
    obtain ⟨x, hx⟩ := h₀.sound
    refine ⟨x, hx, hx.shows.timeout.symm.trans hv, ?_⟩
    simp [Unhurried, h₀.waits]
  | snoc _ hl ih =>
    obtain ⟨x, hx, htimeout, hwaits⟩ := ih
    obtain ⟨x', hturns, hx'⟩ := hx.step hl
    exact ⟨x', hx', hturns.timeout.trans htimeout, hwaits.step hx hl⟩

/-- Why an attempt to get the token fails in a step. -/
theorem Turns.fails {w w' : World ε} {f : Failure} (h : Turns k w x l w' x')
    (hv : x.timeout.IsWait)
    (hwait : ∀ y r, l = .recheck y r → y.ticket.limit ≠ .excessive)
    (ha : l.attempt? = some (t, .error f)) :
    (∃ owner text, f = .busy owner t.name text) ∨ f = .waitCancelled t.name ∨
      ¬ x.timeout.IsBearable ∧ f = Limit.overlong x.timeout := by
  cases h with
  | enter he =>
    obtain ⟨rfl, rfl⟩ := Prod.mk.inj (Option.some.inj ha)
    have hcases := Limit.ofOwnership_cases hv w.clock (w.typeName x.timeout)
    cases he with
    | untimed hx hf =>
      rw [hf] at hcases
      rcases hcases with ⟨-, limit, hlimit, -⟩ | ⟨hb, hlimit | ⟨hlimit, -⟩⟩
      · cases hlimit
      · exact .inr (.inr ⟨hb, Except.error.inj hlimit⟩)
      · cases hlimit
    | looks hx hlimit hc =>
      rw [hlimit] at hcases
      rcases hc.fails with hbusy | hcancelled | ⟨rfl, rfl⟩
      · exact .inl hbusy
      · exact .inr (.inl hcancelled)
      · rcases hcases with ⟨-, limit, hl, hne⟩ | ⟨hb, hl | ⟨-, hlong⟩⟩
        · exact absurd (Except.ok.inj hl).symm hne
        · cases hl
        · exact .inr (.inr ⟨hb, hlong.symm⟩)
  | recheck hticket _ hc =>
    obtain ⟨rfl, rfl⟩ := Prod.mk.inj (Option.some.inj ha)
    rcases hc.fails with hbusy | hcancelled | ⟨rfl, -⟩
    · exact .inl hbusy
    · exact .inr (.inl hcancelled)
    · exact absurd (by rw [hticket]) (hwait _ _ rfl)
  | _ => cases ha

/-- How an attempt to get a token ends that does not get it: the thread waits and its limit has not
passed, or it fails, because it has waited long enough, because its wait was cancelled, or because
the timeout is more than a wait can last. -/
theorem attempt_ends (h : Sound k s x) (hwaits : Unhurried s) (hv : x.timeout.IsWait)
    (hl : Step k s l s') {r : Except Failure Entry} (ha : l.attempt? = some (t, r)) :
    (∀ ticket, r = .ok (.waits ticket) → ticket.limit.hasPassed s.world.clock = false) ∧
    ∀ f, r = .error f → (∃ owner text, f = .busy owner t.name text) ∨ f = .waitCancelled t.name ∨
      ¬ x.timeout.IsBearable ∧ f = Limit.overlong x.timeout := by
  obtain ⟨x', hturns, -⟩ := h.step hl
  refine ⟨fun ticket hr => (hturns.waits (hr ▸ ha)).1, fun f hf => ?_⟩
  refine hturns.fails hv (fun y r' hy => ?_) (hf ▸ ha)
  subst hy
  cases hl with
  | recheck _ before after hy => exact hwaits y (by simp [hy])

/-- Whoever enters while another thread holds the token fails if the timeout is more than a wait
can last. -/
theorem overlong_entry_fails (h : Sound k s x) (hv : x.timeout.IsWait)
    (hlong : ¬ x.timeout.IsBearable) (hsession : s.session k ≠ .none)
    (ht : ∀ b ∈ s.blocks, b.thread.id ≠ t.id) :
    ((Ownership.enter t k).run s.world).1 = .error (Limit.overlong x.timeout) := by
  obtain ⟨r, w', x', hrun, he, -, -⟩ := enter_run t h.shows
  rw [hrun]
  show r = _
  have howner : x.owner ≠ none := by
    intro ho
    exact hsession (h.shows.session.trans (by rw [ho]; rfl))
  have hcases := Limit.ofOwnership_cases hv s.world.clock (s.world.typeName x.timeout)
  cases he with
  | nests hx hu =>
    -- the owner has a block open, and that is of the thread that enters
    obtain ⟨b, hb⟩ := List.exists_mem_of_ne_nil _ (h.owned.1 (by simp [hx]))
    obtain ⟨r, u, hx', -, hbu⟩ := h.blocks b hb
    obtain ⟨-, rfl⟩ := Prod.mk.inj (Option.some.inj (hx.symm.trans hx'))
    exact absurd (hbu.trans hu) (ht b hb)
  | untimed hx hf =>
    rw [hf] at hcases
    rcases hcases with ⟨hb, -⟩ | ⟨-, hlimit | ⟨hlimit, -⟩⟩
    · exact absurd hb hlong
    · rw [Except.error.inj hlimit]
    · cases hlimit
  | looks hx hlimit hc =>
    rw [hlimit] at hcases
    rcases hcases with ⟨hb, -⟩ | ⟨-, hl | ⟨hl, hover⟩⟩
    · exact absurd hb hlong
    · cases hl
    · obtain rfl := Except.ok.inj hl
      rw [hover]
      cases hc with
      | opens hx => exact absurd hx howner
      | cancelled _ hg => exact absurd rfl hg
      | late _ _ _ hpassed => cases hpassed
      | tooLong => rfl
      | sleeps _ _ _ _ he => exact absurd rfl he

end Contest

end Ownership

end GuardedWalk
