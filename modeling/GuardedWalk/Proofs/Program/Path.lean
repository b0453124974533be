import GuardedWalk.Program

/-!
# What a program can do

Between two steps of a thread others may change the world at will, and a call may be answered in any
way. A path of a program is what it does itself under such conditions: its steps, each with the
world before and after it, and its calls with their answers. What holds on all paths holds whatever
else happens.

## Main definitions

* `GuardedWalk.Deed` — a step or a call.
* `GuardedWalk.Program.Path` — what a program can do, and how it can end.
* `GuardedWalk.Deed.callOf?` — the calls among what is done.

## Main results

* `GuardedWalk.Routine.path_bind` — the paths of one routine after another.
-/

set_option autoImplicit false

namespace GuardedWalk

/-- What a thread does. -/
inductive Deed (ε κ : Type) where
  /-- A step, with the world before and after it. -/
  | step (w w' : World ε)
  /-- A call with its answer. -/
  | call (c : κ) (o : Outcome)

/-- The call that is made, with its answer. -/
def Deed.callOf? {ε κ : Type} : Deed ε κ → Option (κ × Outcome)
  | step _ _ => none
  | call c o => some (c, o)

/-- The calls among what is done. -/
def Deed.calls {ε κ : Type} (l : List (Deed ε κ)) : List (κ × Outcome) := l.filterMap callOf?

/-- What a program can do, and how it can end. -/
inductive Program.Path {ε κ α : Type} : Program ε κ α → List (Deed ε κ) → α → Prop where
  | done (a : α) : Path (.done a) [] a
  | step {β : Type} {change : World ε → β × World ε} {next : β → Program ε κ α}
      {l : List (Deed ε κ)} {a : α} (w : World ε) (h : Path (next (change w).1) l a) :
    Path (.step change next) (.step w (change w).2 :: l) a
  | call {c : κ} {next : Outcome → Program ε κ α} {l : List (Deed ε κ)} {a : α} (o : Outcome)
      (h : Path (next o) l a) : Path (.call c next) (.call c o :: l) a
  | wait {ready : World ε → Bool} {until? : Option Nat} {next : Bool → Program ε κ α}
      {l : List (Deed ε κ)} {a : α} (held : Bool) (h : Path (next held) l a) :
    Path (.wait ready until? next) l a
  | start {t : Thread} {c : κ} {next : Program ε κ α} {l : List (Deed ε κ)} {a : α}
      (h : Path next l a) : Path (.start t c next) l a

namespace Deed

variable {ε κ : Type}

@[simp] theorem calls_nil : calls ([] : List (Deed ε κ)) = [] := rfl

@[simp] theorem calls_append (l l' : List (Deed ε κ)) : calls (l ++ l') = calls l ++ calls l' :=
  List.filterMap_append

@[simp] theorem calls_step (w w' : World ε) (l : List (Deed ε κ)) :
    calls (.step w w' :: l) = calls l := rfl

@[simp] theorem calls_call (c : κ) (o : Outcome) (l : List (Deed ε κ)) :
    calls (.call c o :: l) = (c, o) :: calls l := rfl

end Deed

namespace Program

variable {ε κ α β : Type} {l : List (Deed ε κ)}

theorem path_done {a b : α} (h : Path (.done a : Program ε κ α) l b) : l = [] ∧ b = a := by
  cases h
  exact ⟨rfl, rfl⟩

/-- The paths of one program after another. -/
theorem path_bind {p : Program ε κ α} {f : α → Program ε κ β} {b : β}
    (h : Path (p.bind f) l b) : ∃ l₁ l₂ a, l = l₁ ++ l₂ ∧ Path p l₁ a ∧ Path (f a) l₂ b := by
  induction p generalizing l with
  | done a => exact ⟨[], l, a, rfl, .done a, h⟩
  | step change next ih =>
    cases h with
    | step w h =>
      obtain ⟨l₁, l₂, a, rfl, h₁, h₂⟩ := ih _ h
      exact ⟨_ :: l₁, l₂, a, rfl, .step w h₁, h₂⟩
  | call c next ih =>
    cases h with
    | call o h =>
      obtain ⟨l₁, l₂, a, rfl, h₁, h₂⟩ := ih _ h
      exact ⟨_ :: l₁, l₂, a, rfl, .call o h₁, h₂⟩
  | wait ready until? next ih =>
    cases h with
    | wait held h =>
      obtain ⟨l₁, l₂, a, rfl, h₁, h₂⟩ := ih _ h
      exact ⟨l₁, l₂, a, rfl, .wait held h₁, h₂⟩
  | start t c next ih =>
    cases h with
    | start h =>
      obtain ⟨l₁, l₂, a, rfl, h₁, h₂⟩ := ih h
      exact ⟨l₁, l₂, a, rfl, .start h₁, h₂⟩

end Program

namespace Routine

open Program (path_done)

variable {ε κ α β : Type} {l : List (Deed ε κ)}

/-- What a routine can do, and how it can end. -/
abbrev Path (p : Routine ε κ α) (l : List (Deed ε κ)) (o : Except Failure α) : Prop :=
  @Program.Path ε κ (Except Failure α) p l o

/-- The paths of one routine after another: a failure of the first one ends both. -/
theorem path_bind {p : Routine ε κ α} {f : α → Routine ε κ β} {o : Except Failure β}
    (h : Path (p >>= f) l o) :
    ∃ l₁ l₂ r, l = l₁ ++ l₂ ∧ Path p l₁ r ∧
      ((∃ a, r = .ok a ∧ Path (f a) l₂ o) ∨
        ∃ g, r = .error g ∧ l₂ = [] ∧ o = .error g) := by
  obtain ⟨l₁, l₂, r, rfl, h₁, h₂⟩ := Program.path_bind h
  refine ⟨l₁, l₂, r, rfl, h₁, ?_⟩
  cases r with
  | ok a => exact .inl ⟨a, rfl, h₂⟩
  | error g => exact .inr ⟨g, rfl, path_done h₂⟩

theorem path_pure {a : α} {o : Except Failure α}
    (h : Path (pure a) l o) : l = [] ∧ o = .ok a := path_done h

theorem path_throw {f : Failure} {o : Except Failure α}
    (h : Path (throw f : Routine ε κ α) l o) : l = [] ∧ o = .error f := path_done h

theorem path_atomically {f : World ε → Except Failure α × World ε} {o : Except Failure α}
    (h : Path (atomically f : Routine ε κ α) l o) :
    ∃ w, l = [.step w (f w).2] ∧ o = (f w).1 := by
  cases h with
  | step w h =>
    obtain ⟨rfl, rfl⟩ := path_done h
    exact ⟨w, rfl, rfl⟩

theorem path_invoke {c : κ} {o : Outcome} (h : Path (invoke c : Routine ε κ Value) l o) :
    l = [.call c o] := by
  cases h with
  | call o h =>
    obtain ⟨rfl, rfl⟩ := path_done h
    rfl

theorem path_await {ready : World ε → Bool} {until? : Option Nat} {o : Except Failure Bool}
    (h : Path (await ready until? : Routine ε κ Bool) l o) : ∃ held, l = [] ∧ o = .ok held := by
  cases h with
  | wait held h =>
    obtain ⟨rfl, rfl⟩ := path_done h
    exact ⟨held, rfl, rfl⟩

theorem path_outcome {p : Routine ε κ α} {o : Except Failure (Except Failure α)}
    (h : Path (outcome p) l o) :
    ∃ r, o = .ok r ∧ Path p l r := by
  obtain ⟨l₁, l₂, r, rfl, h₁, h₂⟩ := Program.path_bind h
  obtain ⟨rfl, rfl⟩ := path_done h₂
  exact ⟨r, rfl, by simpa using h₁⟩

end Routine

end GuardedWalk
