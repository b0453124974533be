import GuardedWalk.Proofs.Program.Path
import GuardedWalk.Walk

/-!
# What a visit calls

Between its notifications a walker holds its token. The broadcast of an event is called after the
token was got and before it is given back, and not at all if it could not be got; a thread that
cannot get the token does nothing but look at it and wait.

## Main definitions

* `GuardedWalk.Walk.Silent` — what is done only looks at the world.
* `GuardedWalk.Walk.GoesOn` — how a call goes on after an attempt to get a token.

## Main results

* `GuardedWalk.Walk.path_walkerEntry`, `path_visit` — what an entry method and a visit call, and
  when.
* `GuardedWalk.Walk.path_acquire`, `path_awaitToken` — what a thread does to get a token.
-/

set_option autoImplicit false

namespace GuardedWalk

namespace Walk

open Routine Deed

variable {ε κ : Type} {l l' : List (Deed ε (Call κ))}

/-! ## Looking at the world -/

/-- What is done only looks at the world. -/
def Silent (l : List (Deed ε (Call κ))) : Prop := ∀ w w', .step w w' ∈ l → w' = w

@[simp] theorem silent_nil : Silent ([] : List (Deed ε (Call κ))) := by simp [Silent]

@[simp] theorem silent_append : Silent (l ++ l') ↔ Silent l ∧ Silent l' := by
  simp only [Silent, List.mem_append]
  exact ⟨fun h => ⟨fun w w' hw => h w w' (.inl hw), fun w w' hw => h w w' (.inr hw)⟩,
    fun h w w' hw => hw.elim (h.1 w w') (h.2 w w')⟩

@[simp] theorem silent_step (w : World ε) : Silent (.step w w :: l) ↔ Silent l := by
  simp only [Silent, List.mem_cons, Deed.step.injEq]
  exact ⟨fun h w w' hw => h w w' (.inr hw),
    fun h u u' hu => hu.elim (fun hu => hu.2.trans hu.1.symm) (h u u')⟩

@[simp] theorem silent_call (c : Call κ) (o : Outcome) : Silent (.call c o :: l) ↔ Silent l := by
  simp [Silent]

theorem path_read {α : Type} {f : World ε → α} {o : Except Failure α}
    (h : Path (Routine.read f : Steps ε κ α) l o) :
    Silent l ∧ calls l = [] ∧ ∃ w, o = .ok (f w) := by
  obtain ⟨w, rfl, rfl⟩ := path_atomically h
  exact ⟨by simp, rfl, w, rfl⟩

theorem path_own {v : Value} {name : String} {o : Outcome}
    (h : Path (own v name : Steps ε κ Value) l o) :
    Silent l ∧ calls l = [] ∧ ∃ w : World ε, o = .ok (w.ownValue v name) := by
  obtain ⟨w, rfl, rfl⟩ := path_atomically h
  exact ⟨by simp, rfl, w, rfl⟩

/-- A failure that is passed on is the same, unless it is a signal that ends an iteration. -/
theorem path_unlessStop {f : Failure} {o : Except Failure Failure}
    (h : Path (unlessStop f : Steps ε κ Failure) l o) :
    Silent l ∧ calls l = [] ∧
      ∃ g, o = .ok g ∧ (f.cls ≠ .stopIteration → (∀ e, f ≠ .raised e) → g = f) := by
  obtain ⟨l₁, l₂, r, rfl, h₁, hrest⟩ := Routine.path_bind h
  obtain ⟨hs, hc, w, rfl⟩ := path_read h₁
  obtain ⟨c, hcls, h₂⟩ | ⟨g, hg, -⟩ := hrest
  case inr => cases hg
  cases hcls
  by_cases hstop : w.failureClass f = .stopIteration
  · rw [if_pos hstop] at h₂
    obtain ⟨rfl, rfl⟩ := path_pure h₂
    refine ⟨by simp [hs], by simp [hc], _, rfl, fun hcls hraised => ?_⟩
    cases f with
    | raised e => exact absurd rfl (hraised e)
    | _ => exact absurd hstop hcls
  · rw [if_neg hstop] at h₂
    obtain ⟨rfl, rfl⟩ := path_pure h₂
    exact ⟨by simp [hs], by simp [hc], _, rfl, fun _ _ => rfl⟩

/-- The failure that is passed on is thrown. -/
theorem path_throw_unlessStop {α : Type} {f : Failure} {o : Except Failure α}
    (h : Path (do throw (← unlessStop f) : Steps ε κ α) l o) :
    Silent l ∧ calls l = [] ∧
      ∃ g, o = .error g ∧ (f.cls ≠ .stopIteration → (∀ e, f ≠ .raised e) → g = f) := by
  obtain ⟨l₁, l₂, r, rfl, h₁, hrest⟩ := Routine.path_bind h
  obtain ⟨hs, hc, g, rfl, hsame⟩ := path_unlessStop h₁
  obtain ⟨g', hg, h₂⟩ | ⟨g', hg, -⟩ := hrest
  · cases hg
    obtain ⟨rfl, rfl⟩ := path_throw h₂
    exact ⟨by simp [hs], by simp [hc], g, rfl, hsame⟩
  · cases hg

/-- How a block ends is found out by looking at the world. -/
theorem path_conclude {α : Type} {block : Except Failure α} {last : Outcome} {o : Except Failure α}
    (h : Path (conclude block last : Steps ε κ α) l o) : Silent l ∧ calls l = [] := by
  rcases block with f | a <;> rcases last with g | v
  case error.error =>
    by_cases hfg : f = g
    · simp only [conclude, hfg, if_true] at h
      obtain ⟨rfl, -⟩ := path_throw h
      simp
    · simp only [conclude, hfg, if_false] at h
      obtain ⟨hs, hc, -⟩ := path_throw_unlessStop h
      exact ⟨hs, hc⟩
  case error.ok =>
    obtain ⟨rfl, -⟩ := path_throw h
    simp
  case ok.error =>
    obtain ⟨hs, hc, -⟩ := path_throw_unlessStop h
    exact ⟨hs, hc⟩
  case ok.ok =>
    obtain ⟨rfl, -⟩ := path_pure h
    simp

/-! ## The calls of a visit -/

/-- A block that is to hold a token begins by getting it. -/
theorem path_beginBlock {o : Outcome} {manager : Value}
    (h : Path (beginBlock manager : Steps ε κ Value) l o) :
    Silent l ∧ ∀ k, manager = .holding k →
      ∃ r, calls l = [(.send (.token k) .acquire [], r)] ∧
        ((∃ s, r = .ok s ∧ o = .ok s) ∨
          ∃ g g', r = .error g ∧ o = .error g' ∧
            (g.cls ≠ .stopIteration → (∀ e, g ≠ .raised e) → g' = g)) := by
  unfold beginBlock at h
  split at h
  · obtain ⟨rfl, -⟩ := path_pure h
    simp
  · obtain ⟨rfl, -⟩ := path_pure h
    simp
  · obtain ⟨l₁, l₂, r, rfl, h₁, hrest⟩ := Routine.path_bind h
    obtain ⟨r, rfl, hcall⟩ := path_outcome h₁
    obtain rfl := path_invoke hcall
    obtain ⟨a, ha, h₂⟩ | ⟨g, hg, -⟩ := hrest
    case inr => cases hg
    cases ha
    cases r with
    | ok s =>
      obtain ⟨rfl, rfl⟩ := path_pure h₂
      refine ⟨by simp, fun k hk => ?_⟩
      cases hk
      exact ⟨_, rfl, .inl ⟨s, rfl, rfl⟩⟩
    | error g =>
      obtain ⟨hs, hc, g', rfl, hsame⟩ := path_throw_unlessStop h₂
      refine ⟨by simp [hs], fun k hk => ?_⟩
      cases hk
      exact ⟨_, by simp [hc], .inr ⟨g, g', rfl, rfl, hsame⟩⟩
  · rename_i v hlock hcondition hholding
    obtain ⟨l₁, l₂, r, rfl, h₁, hrest⟩ := Routine.path_bind h
    obtain ⟨hs, hc, w, rfl⟩ := path_read h₁
    obtain ⟨a, ha, h₂⟩ | ⟨g, hg, -⟩ := hrest
    case inr => cases hg
    obtain ⟨rfl, -⟩ := path_throw h₂
    exact ⟨by simp [hs], fun k hk => absurd hk (hholding k)⟩

/-- A block that has held a token ends by giving it back. -/
theorem path_endBlock {α : Type} {manager : Value} {block o : Except Failure α}
    (h : Path (endBlock manager block : Steps ε κ α) l o) :
    Silent l ∧ ∀ k, manager = .holding k →
      ∃ r, calls l = [(.send (.token k) .release [], r)] := by
  unfold endBlock at h
  split at h
  · obtain ⟨l₁, l₂, r, rfl, h₁, hrest⟩ := Routine.path_bind h
    obtain ⟨r, rfl, hcall⟩ := path_outcome h₁
    obtain rfl := path_invoke hcall
    obtain ⟨a, ha, h₂⟩ | ⟨g, hg, -⟩ := hrest
    case inr => cases hg
    obtain ⟨hs, hc⟩ := path_conclude h₂
    refine ⟨by simp [hs], fun k hk => ?_⟩
    cases hk
    exact ⟨r, by simp [hc]⟩
  · rename_i hholding
    obtain ⟨hs, -⟩ := path_conclude h
    exact ⟨hs, fun k hk => absurd hk (hholding k)⟩

/-- What a block does that holds an object and calls something inside. -/
theorem path_hold {ownership : Value} {c : Call κ} {o : Outcome}
    (h : Path (hold ownership (invoke c) : Steps ε κ Value) l o) :
    Silent l ∧ ∃ m rest, calls l = (.send ownership .hold [], m) :: rest ∧
      ∀ k, m = .ok (.holding k) →
        (∃ g g', rest = [(.send (.token k) .acquire [], .error g)] ∧ o = .error g' ∧
          (g.cls ≠ .stopIteration → (∀ x, g ≠ .raised x) → g' = g)) ∨
        ∃ s b r, rest = [(.send (.token k) .acquire [], .ok s), (c, b),
          (.send (.token k) .release [], r)] := by
  obtain ⟨l₁, l₂, m, rfl, h₁, hm⟩ := Routine.path_bind h
  obtain rfl := path_invoke h₁
  obtain ⟨manager, rfl, h₂⟩ | ⟨g, rfl, rfl, -⟩ := hm
  case inr => exact ⟨by simp, _, _, rfl, fun k hk => by cases hk⟩
  obtain ⟨l₃, l₄, r, rfl, h₃, hbegun⟩ := Routine.path_bind h₂
  obtain ⟨hs₃, hbegin⟩ := path_beginBlock h₃
  obtain ⟨s, rfl, h₄⟩ | ⟨g, rfl, rfl, rfl⟩ := hbegun
  · obtain ⟨l₅, l₆, r, rfl, h₅, hrest⟩ := Routine.path_bind h₄
    obtain ⟨b, rfl, hcall⟩ := path_outcome h₅
    obtain rfl := path_invoke hcall
    obtain ⟨b', hb, h₆⟩ | ⟨g, hg, -⟩ := hrest
    case inr => cases hg
    obtain ⟨hs₆, hend⟩ := path_endBlock h₆
    refine ⟨by simp [hs₃, hs₆], .ok manager, calls l₃ ++ (c, b) :: calls l₆, by simp,
      fun k hk => ?_⟩
    cases hk
    obtain ⟨r, hc₃, ⟨s', rfl, -⟩ | ⟨g, g', -, hg, -⟩⟩ := hbegin k rfl
    · obtain ⟨r', hc₆⟩ := hend k rfl
      exact .inr ⟨s', b, r', by simp [hc₃, hc₆]⟩
    · cases hg
  · refine ⟨by simp [hs₃], .ok manager, calls l₃, by simp, fun k hk => ?_⟩
    cases hk
    obtain ⟨r, hc₃, ⟨s', -, hs⟩ | ⟨g₁, g', rfl, hg, hsame⟩⟩ := hbegin k rfl
    · cases hs
    · cases hg
      exact .inl ⟨g₁, g, by simp [hc₃], rfl, hsame⟩

/-- What a visit does itself, whatever else happens: it only looks at the world, asks the token of
the walker to be held, and if a token `k` is to be held, gets it. When that fails, so does the
visit, with nothing more being called; otherwise the event is broadcast, and then the token is given
back, however the broadcast has ended. -/
theorem path_visit {self e row block : Value} {o : Outcome}
    (h : Path (visit self e row block : Steps ε κ Value) l o) :
    Silent l ∧ ∃ ownership m rest, calls l = (.send ownership .hold [], m) :: rest ∧
      ∀ k, m = .ok (.holding k) →
        (∃ g g', rest = [(.send (.token k) .acquire [], .error g)] ∧ o = .error g' ∧
          (g.cls ≠ .stopIteration → (∀ x, g ≠ .raised x) → g' = g)) ∨
        ∃ s b r, rest = [(.send (.token k) .acquire [], .ok s),
          (.send self .broadcast [e, row, block], b), (.send (.token k) .release [], r)] := by
  obtain ⟨l₁, l₂, r₁, rfl, h₁, hrest⟩ := Routine.path_bind h
  obtain ⟨hs₁, hc₁, w, rfl⟩ := path_own h₁
  obtain ⟨ownership, hown, h₂⟩ | ⟨g, hg, -⟩ := hrest
  case inr => cases hg
  obtain ⟨l₃, l₄, r₃, rfl, h₃, hend⟩ := Routine.path_bind h₂
  obtain ⟨hs₃, m, rest, hc₃, hrest⟩ := path_hold h₃
  -- nothing happens after the block, so the visit fails as the block does
  have hlast : l₄ = [] ∧ ∀ g, r₃ = .error g → o = .error g := by
    obtain ⟨a, rfl, h₄⟩ | ⟨g, rfl, rfl, rfl⟩ := hend
    · exact ⟨(path_pure h₄).1, fun g hg => by cases hg⟩
    · exact ⟨rfl, fun g' hg => by cases hg; rfl⟩
  obtain ⟨rfl, hfail⟩ := hlast
  refine ⟨by simp [hs₁, hs₃], ownership, m, rest, by simp [hc₁, hc₃], fun k hk => ?_⟩
  obtain ⟨g, g', hg, hr, hsame⟩ | hheld := hrest k hk
  · exact .inl ⟨g, g', hg, hfail g' hr, hsame⟩
  · exact .inr hheld

/-- An entry method other than an announcement makes a single visit. -/
theorem path_walkerEntry {r : Ref .walker} {e : Event} {args : List Value} {o : Outcome}
    (he : e ≠ .announce) (h : Path (walkerEntry r e args : Steps ε κ Value) l o) :
    ∃ w given v, l = [.step w (w.storeTuple args).2, .call (.send (.walker r) .visit given) v] ∧
      ∀ f, v = .error f → o = .error f := by
  obtain ⟨l₁, l₂, row, rfl, h₁, hrest⟩ := Routine.path_bind h
  obtain ⟨w, rfl, rfl⟩ := path_atomically h₁
  obtain ⟨row, hrow, h₂⟩ | ⟨g, hg, -⟩ := hrest
  case inr => cases hg
  cases hrow
  have hvisit : ∃ given, Path (do
      let _ ← send (.walker r) .visit given
      return .none : Steps ε κ Value) l₂ o := by
    simp only [he, if_false] at h₂
    split at h₂
    · exact ⟨_, h₂⟩
    · exact ⟨_, h₂⟩
  obtain ⟨given, h₂⟩ := hvisit
  obtain ⟨l₃, l₄, v, rfl, h₃, hlast⟩ := Routine.path_bind h₂
  obtain rfl := path_invoke h₃
  obtain ⟨a, rfl, h₄⟩ | ⟨g, rfl, rfl, rfl⟩ := hlast
  · obtain ⟨rfl, rfl⟩ := path_pure h₄
    exact ⟨w, given, _, rfl, fun f hf => by cases hf⟩
  · exact ⟨w, given, _, rfl, fun f hf => by cases hf; rfl⟩

/-! ## The calls of an attempt to get a token -/

/-- How a call goes on after an attempt to get a token: it fails if the attempt has failed, and
nothing more happens; it waits, and ends as the wait does; or it looks at the token that it has
got. -/
def GoesOn (k : Ref .token) (l : List (Deed ε (Call κ))) (o : Outcome) :
    Except Failure Entry → Prop
  | .error f => l = [] ∧ o = .error f
  | .ok (.waits ticket) => l = [.call (.await k ticket) o]
  | .ok .nested | .ok .opened => calls l = []

theorem path_settle {t : Thread} {k : Ref .token} {entry : Entry} {o : Outcome}
    (h : Path (settle t k entry : Steps ε κ Value) l o) : GoesOn k l o (.ok entry) := by
  cases entry with
  | nested => exact (path_own h).2.1
  | opened =>
    obtain ⟨l₁, l₂, r, rfl, h₁, hrest⟩ := Routine.path_bind h
    obtain ⟨w, rfl, rfl⟩ := path_atomically h₁
    obtain ⟨a, -, h₂⟩ | ⟨g, hg, -⟩ := hrest
    · obtain ⟨-, hc, -⟩ := path_own h₂
      simp [GoesOn, hc]
    · cases hg
  | waits ticket => exact path_invoke h

theorem path_act_settle {t : Thread} {k : Ref .token} {a : Act ε Entry} {o : Outcome}
    (h : Path (do settle t k (← act a) : Steps ε κ Value) l o) :
    ∃ w rest, l = .step w (a.run w).2 :: rest ∧ GoesOn k rest o (a.run w).1 := by
  obtain ⟨l₁, l₂, r, rfl, h₁, hrest⟩ := Routine.path_bind h
  obtain ⟨w, rfl, rfl⟩ := path_atomically h₁
  refine ⟨w, l₂, rfl, ?_⟩
  obtain ⟨entry, hr, h₂⟩ | ⟨g, hr, rfl, rfl⟩ := hrest
  · rw [hr]
    exact path_settle h₂
  · rw [hr]
    exact ⟨rfl, rfl⟩

/-- A thread that gets a token enters, and goes on as that turns out. -/
theorem path_acquire {t : Thread} {k : Ref .token} {o : Outcome}
    (h : Path (acquire t k : Steps ε κ Value) l o) :
    ∃ w rest, l = .step w ((Ownership.enter t k).run w).2 :: rest ∧
      GoesOn k rest o ((Ownership.enter t k).run w).1 := path_act_settle h

/-- A thread that waits for a token looks again when its wait is over, and goes on as that turns
out. -/
theorem path_awaitToken {t : Thread} {k : Ref .token} {ticket : Ticket} {o : Outcome}
    (h : Path (awaitToken t k ticket : Steps ε κ Value) l o) :
    ∃ w rest, l = .step w ((Ownership.recheck t k ticket).run w).2 :: rest ∧
      GoesOn k rest o ((Ownership.recheck t k ticket).run w).1 := by
  obtain ⟨l₁, l₂, r, rfl, h₁, hrest⟩ := Routine.path_bind h
  obtain ⟨held, rfl, rfl⟩ := path_await h₁
  obtain ⟨a, -, h₂⟩ | ⟨g, hg, -⟩ := hrest
  · exact path_act_settle h₂
  · cases hg

end Walk

end GuardedWalk
