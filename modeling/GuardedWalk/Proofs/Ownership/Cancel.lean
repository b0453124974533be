import GuardedWalk.Proofs.Ownership.Contest

/-!
# Cancelled waits

A cancellation wakes every thread that waits, and none of them sleeps again: it looks at the token
once more. The token is looked at before the count of cancellations, so a thread that finds the
token idle takes it, although its wait was cancelled; any other gives up. A thread that comes after
the last cancellation never gives up for that reason.

## Main definitions

* `GuardedWalk.Ownership.Contest.IsAwake` — a wait is over.
* `GuardedWalk.Ownership.Contest.Label.TellsCancelled` — an entry call of a thread ends because its
  wait was cancelled.

## Main results

* `GuardedWalk.Ownership.Contest.outcome_of_cancelled_wait` — how the entry calls end that wait when
  all waits are cancelled, and how those do that wait later.
* `GuardedWalk.Ownership.Contest.cancelled_wait_takes_idle_token` — a wait that was cancelled can
  still end with the token.
-/

set_option autoImplicit false

namespace GuardedWalk

namespace Ownership

namespace Contest

variable {ε : Type} {k : Ref .token}

/-- A thread that waits has been woken. -/
def IsAwake (s : Contest ε) (y : Wait) : Prop :=
  y.thread ∉ (s.world.conditions.get y.ticket.condition).asleep

/-- An entry call of a thread ends because its wait was cancelled. -/
def Label.TellsCancelled (t : Thread) : Label → Prop
  | .enter u _ r => u.id = t.id ∧ ∃ name, r = .error (.waitCancelled name)
  | .recheck y r => y.thread.id = t.id ∧ ∃ name, r = .error (.waitCancelled name)
  | _ => False

/-! ## Waits that were cancelled -/

/-- A wait was cancelled: there have been cancellations since it began, and as long as it lasts its
thread does not sleep. -/
structure Cancelled (s : Contest ε) (x : View) (y : Wait) : Prop where
  before : ∃ g limit, y.ticket = ⟨.int g, limit, x.condition⟩ ∧ g < x.generation
  awake : y ∈ s.waits → y.thread ∉ x.asleep

section Cancelled

variable {s s' : Contest ε} {x x' : View} {l : Label} {y : Wait}

/-- After a cancellation all waits were cancelled. -/
theorem Sound.cancelled {r : Except Failure Unit} (h : Sound k s x) (hy : y ∈ s.waits)
    (ht : Turns k s.world x (.cancel r) s'.world x') : Cancelled s' x' y := by
  obtain ⟨-, g, limit, hticket, hg⟩ := h.waits y hy
  cases ht with
  | cancel ha => exact ⟨⟨g, limit, hticket, by simp only; omega⟩, by simp⟩

/-- What was cancelled stays so, and its thread does not fall asleep again: a thread that did would
have come after the cancellation. -/
theorem Cancelled.step (hc : Cancelled s x y) (h : Sound k s x) (hl : Step k s l s')
    (ht : Turns k s.world x l s'.world x') : Cancelled s' x' y := by
  obtain ⟨g, limit, hticket, hg⟩ := hc.before
  have hlt : g < x'.generation := Int.lt_of_lt_of_le hg ht.generation.1
  refine ⟨⟨g, limit, by rw [ht.condition]; exact hticket, hlt⟩, fun hy hs => ?_⟩
  rcases h.mem_waits hl hy with ⟨hy, hother⟩ | hnew
  · rcases ht.mem_asleep hs with hs | ⟨ticket, hticket⟩
    · exact hc.awake hy hs
    · exact hother _ hticket rfl
  · have := ht.ticket_generation hnew
    rw [hticket] at this
    simp only [Value.int.injEq] at this
    omega

/-- What was cancelled stays so throughout a run. -/
theorem Cancelled.runs {ls : List Label} (hr : Runs k s ls s') (h : Sound k s x)
    (hc : Cancelled s x y) : ∃ x', Sound k s' x' ∧ Cancelled s' x' y := by
  induction hr with
  | refl => exact ⟨x, h, hc⟩
  | snoc hr hl ih =>
    obtain ⟨x₁, h₁, hc₁⟩ := ih
    obtain ⟨x₂, ht, h₂⟩ := h₁.step hl
    exact ⟨x₂, h₂, hc₁.step h₁ hl ht⟩

theorem Cancelled.isAwake (hc : Cancelled s x y) (h : Sound k s x) (hy : y ∈ s.waits) :
    IsAwake s y := by
  obtain ⟨g, limit, hticket, -⟩ := hc.before
  simp only [IsAwake, hticket, h.shows.asleep]
  exact hc.awake hy

/-- A thread whose wait was cancelled takes the token if nobody owns it when it looks again, and
gives up otherwise. -/
theorem Cancelled.recheck {r : Except Failure Entry} (hc : Cancelled s x y) (h : Sound k s x)
    (hl : Step k s (.recheck y r) s') :
    r = if s.session k = .none then .ok .opened else .error (.waitCancelled y.thread.name) := by
  obtain ⟨x', ht, -⟩ := h.step hl
  obtain ⟨g, limit, hticket, hg⟩ := hc.before
  have hsession : s.session k = sessionOf x.owner := h.shows.session
  cases ht with
  | recheck hy h₁ hcon ha =>
    rw [hticket, Ticket.mk.injEq] at hy
    simp only [Value.int.injEq] at hy
    obtain ⟨rfl, -⟩ := hy
    cases hcon with
    | opens hx hn =>
      simp only at hx
      simp [hsession, hx, sessionOf]
    | cancelled hx hne =>
      obtain ⟨o, ho⟩ := Option.ne_none_iff_exists'.1 hx
      simp only at ho
      simp [hsession, ho, sessionOf]
    | late text hx hge hlim | tooLong hx hge hlim hs | sleeps hx hge hlim hs =>
      simp only at hge
      omega

end Cancelled

/-! ## Waits that begin later -/

/-- All waits of a thread began after the latest cancellation. -/
def Recent (t : Thread) (s : Contest ε) (x : View) : Prop :=
  ∀ y ∈ s.waits, y.thread.id = t.id → y.ticket.generation = .int x.generation

section Recent

variable {s s' : Contest ε} {x x' : View} {l : Label} {t : Thread}

/-- While nothing is cancelled, the waits of a thread stay recent, and it is not told that its wait
was cancelled. -/
theorem Recent.step (hr : Recent t s x) (h : Sound k s x) (hl : Step k s l s')
    (ht : Turns k s.world x l s'.world x') (hn : ∀ r, l ≠ .cancel r) :
    Recent t s' x' ∧ ¬ l.TellsCancelled t := by
  refine ⟨fun y hy hid => ?_, fun htells => ?_⟩
  · rcases h.mem_waits hl hy with ⟨hy, -⟩ | hnew
    · rw [ht.generation.2 hn]
      exact hr y hy hid
    · exact ht.ticket_generation hnew
  · have hatt : ∃ u name, u.id = t.id ∧ l.attempt? = some (u, .error (.waitCancelled name)) := by
      cases l with
      | enter u e? r =>
        obtain ⟨hid, name, rfl⟩ := htells
        exact ⟨u, name, hid, rfl⟩
      | recheck y r =>
        obtain ⟨hid, name, rfl⟩ := htells
        exact ⟨y.thread, name, hid, rfl⟩
      | release | cancel | elsewhere => exact htells.elim
    obtain ⟨u, name, hid, hatt⟩ := hatt
    obtain ⟨y, r, rfl, hg⟩ := ht.of_cancelled hatt
    simp only [Label.attempt?, Option.some.injEq, Prod.mk.injEq] at hatt
    obtain ⟨rfl, -⟩ := hatt
    cases hl with
    | recheck _ before after hy => exact hg (hr y (by simp [hy]) hid)

/-- The same throughout a run. -/
theorem Recent.runs {ls : List Label} (hruns : Runs k s ls s') (h : Sound k s x)
    (hr : Recent t s x) (hn : ∀ l ∈ ls, ∀ r, l ≠ .cancel r) :
    ∃ x', Sound k s' x' ∧ Recent t s' x' ∧ ∀ l ∈ ls, ¬ l.TellsCancelled t := by
  induction hruns with
  | refl => exact ⟨x, h, hr, by simp⟩
  | @snoc s₁ s₂ ls l hruns hl ih =>
    obtain ⟨x₁, h₁, hr₁, htells⟩ := ih fun l hl => hn l (List.mem_append_left _ hl)
    obtain ⟨x₂, ht, h₂⟩ := h₁.step hl
    obtain ⟨hr₂, hlast⟩ := hr₁.step h₁ hl ht (hn l (by simp))
    refine ⟨x₂, h₂, hr₂, fun l' hl' => ?_⟩
    rcases List.mem_append.1 hl' with hl' | hl'
    · exact htells l' hl'
    · obtain rfl := List.mem_singleton.1 hl'
      exact hlast

end Recent

/-- How entry calls end whose waits are cancelled, in any state that threads can reach. A thread
that waits when all waits are cancelled is awake from then on. When it looks at the token again it
takes it, if nobody owns it at that moment, and fails otherwise; it never waits again and never
takes its time to be over. A thread that does not wait yet is not told of a cancelled wait until
there is a further cancellation. -/
theorem outcome_of_cancelled_wait {s₀ s : Contest ε} {ls : List Label} (h₀ : Starts k s₀)
    (h : Runs k s₀ ls s) :
    (∀ y ∈ s.waits, ∀ r s₁, Step k s (.cancel r) s₁ → ∀ ls₁ s₂, Runs k s₁ ls₁ s₂ →
      y ∈ s₂.waits →
        IsAwake s₂ y ∧ (∃ r s₃, Step k s₂ (.recheck y r) s₃) ∧
          ∀ r s₃, Step k s₂ (.recheck y r) s₃ →
            r = if s₂.session k = .none then .ok .opened
              else .error (.waitCancelled y.thread.name)) ∧
    ∀ t : Thread, (∀ y ∈ s.waits, y.thread.id ≠ t.id) → ∀ ls₁ s₁, Runs k s ls₁ s₁ →
      (∀ l ∈ ls₁, ∀ r, l ≠ .cancel r) → ∀ l ∈ ls₁, ¬ l.TellsCancelled t := by
  obtain ⟨x, hx⟩ := h.sound h₀
  refine ⟨fun y hy r s₁ hcancel ls₁ s₂ hruns hy₂ => ?_, fun t ht ls₁ s₁ hruns hn => ?_⟩
  · obtain ⟨x₁, hturns, hx₁⟩ := hx.step hcancel
    obtain ⟨x₂, hx₂, hc⟩ := Cancelled.runs hruns hx₁ (hx.cancelled hy hturns)
    obtain ⟨before, after, hsplit⟩ := List.append_of_mem hy₂
    exact ⟨hc.isAwake hx₂ hy₂, ⟨_, _, .recheck y before after hsplit⟩,
      fun r s₃ hl => hc.recheck hx₂ hl⟩
  · have hr : Recent t s x := fun y hy hid => absurd hid (ht y hy)
    obtain ⟨-, -, -, htells⟩ := hr.runs hruns hx hn
    exact htells

/-! ## A race between a cancellation and the end of a walk -/

namespace Race

/-- The world after all waits have been cancelled. -/
def cancelled : World Unit := ((Ownership.cancel token).run contended).2

/-- The world after the first thread has left its block. -/
def idle : World Unit := ((Ownership.release token).run cancelled).2

end Race

open Race in
/-- A thread whose wait was cancelled can take the token from that wait: it does if the owner has
left before it looks again. -/
theorem cancelled_wait_takes_idle_token :
    ∃ (k : Ref .token) (s₀ s s₁ s₂ s₃ : Contest Unit) (ls ls₁ : List Label) (y : Wait),
      Starts k s₀ ∧ Runs k s₀ ls s ∧ y ∈ s.waits ∧ Step k s (.cancel (.ok ())) s₁ ∧
        Runs k s₁ ls₁ s₂ ∧ y ∈ s₂.waits ∧ Step k s₂ (.recheck y (.ok .opened)) s₃ := by
  obtain ⟨ls, hr⟩ := runs
  let s₁ : Contest Unit := { crowded with world := cancelled }
  let s₂ : Contest Unit := { crowded with world := idle, blocks := [] }
  have run : (Ownership.cancel token).run contended = (.ok (), cancelled) := Prod.ext rfl rfl
  have h₁ : Step token crowded (.cancel (.ok ())) s₁ := by
    have h := Step.cancel (k := token) (s := crowded)
    rwa [show crowded.world = contended from rfl, run] at h
  have h₂ : Step token s₁ _ s₂ := .release block [] [] rfl (by simp)
  have hr' := (Runs.refl (k := token) s₁).snoc h₂
  have hy : wait ∈ [wait] := List.mem_singleton_self wait
  obtain ⟨-, ⟨r, s₃, h₃⟩, hlast⟩ :=
    (outcome_of_cancelled_wait starts hr).1 wait hy _ s₁ h₁ _ s₂ hr' hy
  have hidle : s₂.session token = .none := rfl
  have hopened := hlast r s₃ h₃
  rw [if_pos hidle] at hopened
  subst hopened
  exact ⟨token, start, crowded, s₁, s₂, s₃, ls, _, wait, starts, hr, hy, h₁, hr', hy, h₃⟩

end Contest

end Ownership

end GuardedWalk
