import GuardedWalk.Proofs.Ownership.Contest
import GuardedWalk.Proofs.Walk.Visit

/-!
# The discipline of a token

Whatever threads do and in whatever order, a token counts the open blocks and the waiting threads,
all open blocks belong to one thread and share one session, and no session comes twice. An attempt
to get the token that fails changes nothing about that, and an entry method whose attempt fails
neither notifies anyone nor puts a guard on anything.

## Main definitions

* `GuardedWalk.Ownership.Contest.Disciplined` — what a token and the blocks that hold it agree on.

## Main results

* `GuardedWalk.Ownership.Contest.token_discipline` — the discipline is kept in every run.
-/

set_option autoImplicit false

namespace GuardedWalk

namespace Ownership

namespace Contest

open Walk Deed
open Routine (Path)

variable {ε : Type} {k : Ref .token}

/-- What a token and the blocks that hold it agree on. -/
structure Disciplined (k : Ref .token) (s : Contest ε) : Prop where
  /-- There is a session exactly while the token counts open blocks. -/
  present : s.session k ≠ .none ↔ ∃ d : Int, s.depth k = .int d ∧ 1 ≤ d
  /-- The token counts the open blocks. -/
  depth : s.depth k = .int s.blocks.length
  /-- All open blocks share the session in flight and belong to its thread. -/
  owner : ∀ b ∈ s.blocks, b.session = s.session k ∧
    s.world.ownValue b.session Session.threadField = b.thread.number
  /-- No two walks have the same session. -/
  distinct : s.sessions.Nodup ∧ (s.session k ≠ .none → s.sessions.head? = some (s.session k))
  /-- The token counts the threads that are inside a wait, each of them once. -/
  waiting : s.waiting k = .int s.waits.length ∧
    s.waits.Pairwise fun y z => y.thread.id ≠ z.thread.id
  /-- Only the thread of the session in flight is inside a block in which an event is broadcast. -/
  broadcasting : ∀ b ∈ s.blocks, ∀ e, b.event? = some e →
    s.session k ≠ .none ∧ s.world.ownValue (s.session k) Session.threadField = b.thread.number

theorem Sound.disciplined {s : Contest ε} {x : View} (h : Sound k s x) : s.Disciplined k := by
  have hsession : s.session k = sessionOf x.owner := h.shows.session
  have hdepth : s.depth k = .int s.blocks.length := by
    rw [← h.depth]
    exact h.shows.depth
  have hsome : s.session k ≠ .none ↔ x.owner.isSome := by
    rw [hsession]
    rcases x.owner with _ | ⟨r, u⟩ <;> simp [sessionOf]
  have howner : ∀ b ∈ s.blocks, b.session = s.session k ∧
      s.world.ownValue b.session Session.threadField = b.thread.number := by
    intro b hb
    obtain ⟨r, u, hx, hr, hu⟩ := h.blocks b hb
    refine ⟨by rw [hr, hsession, hx]; rfl, ?_⟩
    rw [hr, World.ownValue_eq, Attributes.value, (h.shows.runs r u hx).number]
    simp [Thread.number, hu]
  refine
    { present := ?_
      depth := hdepth
      owner := howner
      distinct := ⟨h.sessions, fun hs => ?_⟩
      waiting := ⟨by rw [← h.waiting]; exact h.shows.waiting, h.once⟩
      broadcasting := ?_ }
  · rw [hsome, h.owned, hdepth]
    cases s.blocks with
    | nil => simp
    | cons b rest =>
      refine ⟨fun _ => ⟨_, rfl, ?_⟩, fun _ => List.cons_ne_nil b rest⟩
      rw [List.length_cons]
      omega
  · obtain ⟨⟨r, u⟩, ho⟩ := Option.isSome_iff_exists.1 (hsome.1 hs)
    rw [h.latest r u ho, hsession, ho]
    rfl
  · intro b hb e he
    obtain ⟨hsess, hnumber⟩ := howner b hb
    obtain ⟨r, u, hx, -, -⟩ := h.blocks b hb
    exact ⟨hsome.2 (by simp [hx]), hsess ▸ hnumber⟩

/-- An attempt that does not get the token opens no block and no session. -/
theorem Step.missed {s s' : Contest ε} {l : Label} {t : Thread} {r : Except Failure Entry}
    (hl : Step k s l s') (ha : l.attempt? = some (t, r)) (hr : gets r = false) :
    s'.blocks = s.blocks ∧ s'.sessions = s.sessions := by
  cases hl with
  | enter u e? hw =>
    generalize (Ownership.enter u k).run s.world = p at ha ⊢
    obtain ⟨r', w'⟩ := p
    simp only [Label.attempt?, Option.some.injEq, Prod.mk.injEq] at ha
    obtain ⟨-, rfl⟩ := ha
    rcases r' with f | (_ | _ | ticket) <;> simp_all [gets, settled]
  | recheck y before after hy =>
    generalize (Ownership.recheck y.thread k y.ticket).run s.world = p at ha ⊢
    obtain ⟨r', w'⟩ := p
    simp only [Label.attempt?, Option.some.injEq, Prod.mk.injEq] at ha
    obtain ⟨-, rfl⟩ := ha
    rcases r' with f | (_ | _ | ticket) <;> simp_all [gets, settled]
  | release | cancel | elsewhere => simp [Label.attempt?] at ha

/-- An attempt that does not get the token leaves the walk in flight as it is, and all sessions. -/
theorem Turns.missed {w w' : World ε} {x x' : View} {l : Label} {t : Thread}
    {r : Except Failure Entry} (h : Turns k w x l w' x') (ha : l.attempt? = some (t, r))
    (hr : gets r = false) :
    x'.owner = x.owner ∧ x'.depth = x.depth ∧
      w' = { w with tokens := w'.tokens, conditions := w'.conditions } := by
  cases h with
  | enter he haside =>
    simp only [Label.attempt?, Option.some.injEq, Prod.mk.injEq] at ha
    obtain ⟨-, rfl⟩ := ha
    obtain ⟨ho, hd, hs⟩ := he.missed hr
    have hrest := haside.rest
    rw [hs] at hrest
    exact ⟨ho, hd, hrest⟩
  | recheck hy h₁ hc haside =>
    simp only [Label.attempt?, Option.some.injEq, Prod.mk.injEq] at ha
    obtain ⟨-, rfl⟩ := ha
    obtain ⟨ho, hd, hs⟩ := hc.missed hr
    have hrest := haside.rest
    rw [hs, h₁.1] at hrest
    exact ⟨ho, hd, hrest⟩
  | _ => simp [Label.attempt?] at ha

/-- In every run of any threads, a token and the blocks that hold it agree. An attempt to get the
token that does not get it, because it fails or has to wait, leaves the session in flight, the count
of open blocks, the open blocks and all objects but tokens and conditions as they are. And whatever
else happens: an entry method other than an announcement makes a single visit and fails if that
does. A visit broadcasts nothing unless the token `j` that it holds was got, and gives the token
back after the broadcast; if the token could not be got, it only looks at the world and fails. A
thread that tries to get a token does nothing but enter, wait and look again, and fails with the
first attempt that fails. -/
theorem token_discipline {s₀ s : Contest ε} {ls : List Label} (h₀ : Starts k s₀)
    (h : Runs k s₀ ls s) (κ : Type) :
    s.Disciplined k ∧
    (∀ l s' t r, Step k s l s' → l.attempt? = some (t, r) → gets r = false →
      s'.session k = s.session k ∧ s'.depth k = s.depth k ∧ s'.blocks = s.blocks ∧
        s'.sessions = s.sessions ∧
        s'.world = { s.world with
          tokens := s'.world.tokens, conditions := s'.world.conditions }) ∧
    (∀ (i : Ref .walker) (e : Event) (args : List Value) (l : List (Deed ε (Call κ)))
      (o : Outcome), e ≠ .announce → Path (walkerEntry i e args : Steps ε κ Value) l o →
      ∃ w given v, l = [.step w (w.storeTuple args).2, .call (.send (.walker i) .visit given) v] ∧
        ∀ f, v = .error f → o = .error f) ∧
    (∀ (self e row block : Value) (l : List (Deed ε (Call κ))) (o : Outcome),
      Path (visit self e row block : Steps ε κ Value) l o →
      Silent l ∧ ∃ ownership m rest, calls l = (.send ownership .hold [], m) :: rest ∧
        ∀ j, m = .ok (.holding j) →
          (∃ g g', rest = [(.send (.token j) .acquire [], .error g)] ∧ o = .error g' ∧
            (g.cls ≠ .stopIteration → (∀ x, g ≠ .raised x) → g' = g)) ∨
          ∃ v b r, rest = [(.send (.token j) .acquire [], .ok v),
            (.send self .broadcast [e, row, block], b), (.send (.token j) .release [], r)]) ∧
    (∀ (t : Thread) (j : Ref .token) (l : List (Deed ε (Call κ))) (o : Outcome),
      Path (acquire t j : Steps ε κ Value) l o →
      ∃ w rest, l = .step w ((Ownership.enter t j).run w).2 :: rest ∧
        GoesOn j rest o ((Ownership.enter t j).run w).1) ∧
    ∀ (t : Thread) (j : Ref .token) (ticket : Ticket) (l : List (Deed ε (Call κ))) (o : Outcome),
      Path (awaitToken t j ticket : Steps ε κ Value) l o →
      ∃ w rest, l = .step w ((Ownership.recheck t j ticket).run w).2 :: rest ∧
        GoesOn j rest o ((Ownership.recheck t j ticket).run w).1 := by
  obtain ⟨x, hx⟩ := h.sound h₀
  refine ⟨hx.disciplined, fun l s' t r hl ha hr => ?_, fun _ _ _ _ _ => path_walkerEntry,
    fun _ _ _ _ _ _ => path_visit, fun _ _ _ _ => path_acquire, fun _ _ _ _ _ => path_awaitToken⟩
  obtain ⟨x', hturns, hx'⟩ := hx.step hl
  obtain ⟨ho, hd, hw⟩ := hturns.missed ha hr
  obtain ⟨hblocks, hsessions⟩ := hl.missed ha hr
  refine ⟨?_, ?_, hblocks, hsessions, hw⟩
  · exact hx'.shows.session.trans (ho ▸ hx.shows.session.symm)
  · exact hx'.shows.depth.trans (hd ▸ hx.shows.depth.symm)

/-- One thread holds the token and another one waits for it. -/
theorem token_discipline_of_two : Race.crowded.Disciplined Race.token := by
  obtain ⟨ls, hr⟩ := Race.runs
  exact (token_discipline Race.starts hr Empty).1

end Contest

end Ownership

end GuardedWalk
