import GuardedWalk.Config

/-!
# Configurations that have no problems

The check of a configuration lists what is wrong with it and looks at the world only for the texts
of its list. So whether a configuration has no problems depends on its settings alone.

## Main definitions

* `GuardedWalk.Config.Consistent` — the settings of a configuration go together.
* `GuardedWalk.Config.Complete` — a configuration has all its settings.

## Main results

* `GuardedWalk.World.problems_eq_nil_iff` — a configuration has no problems exactly if its settings
  go together.
* `GuardedWalk.Config.consistent_plain` — what stands for settings that are left out goes together.
-/

set_option autoImplicit false

namespace GuardedWalk

namespace Value

/-- A number that is not below zero; what is not a number counts as one. -/
def IsWait (v : Value) : Prop := ∃ n, v.number? = some n ∧ n.isNegative = false

end Value

namespace Config

/-- A configuration has all its settings. -/
def Complete (c : Config) : Prop := ∀ name ∈ settingNames, ∃ v, c.attributes.get? name = some v

/-- The settings of a configuration go together. -/
structure Consistent (c : Config) : Prop where
  mode : World.isMode c.foreignTraversal = true
  parkTimeout : c.parkTimeout = .none ∨ c.parkTimeout.IsWait
  ownershipTimeout : c.ownershipTimeout.IsWait
  needsPolicy : c.foreignTraversal = .mode .custom → c.customPolicy ≠ .none
  customPolicy : c.customPolicy = .none ∨ World.isPolicy c.customPolicy = true
  options : World.isDictionary c.options = true

end Config

namespace World

variable {ε : Type} {w : World ε}

theorem bind_eq_ok {α β : Type} {x : Except Failure α} {k : α → Except Failure β} {b : β} :
    (x >>= k) = .ok b ↔ ∃ a, x = .ok a ∧ k a = .ok b := by
  cases x with
  | ok a =>
    constructor
    · intro h
      exact ⟨a, rfl, h⟩
    · rintro ⟨a', ha, h⟩
      obtain rfl := Except.ok.inj ha
      exact h
  | error f =>
    constructor
    · intro h
      cases h
    · rintro ⟨a', ha, -⟩
      cases ha

/-- A mode is no problem, and nothing else goes without one. -/
theorem modeProblems_eq_nil_iff {v : Value} : w.modeProblems v = .ok [] ↔ isMode v = true := by
  unfold modeProblems
  by_cases hm : isMode v = true
  · simp [hm]
  · rw [if_neg hm, bind_eq_ok]
    refine ⟨?_, fun h => absurd h hm⟩
    rintro ⟨text, -, htext⟩
    cases htext

theorem isBelowZero_eq_false_iff {v : Value} : w.isBelowZero v = .ok false ↔ v.IsWait := by
  unfold isBelowZero Value.IsWait
  cases v.number? with
  | none => simp
  | some n => simp

/-- Whether a timeout is below zero, or none at all and that is a problem. -/
def isMissingOrBelowZero (w : World ε) (missing : Bool) (timeout : Value) : Except Failure Bool :=
  if timeout = .none then .ok missing else w.isBelowZero timeout

/-- The problems of a configuration, with those of its timeouts found first. -/
theorem problems_eq (w : World ε) (c : Config) :
    w.problems c = (w.modeProblems c.foreignTraversal >>= fun mode =>
      w.isMissingOrBelowZero false c.parkTimeout >>= fun parkBelow =>
      w.isMissingOrBelowZero true c.ownershipTimeout >>= fun waitBelow =>
      .ok (mode ++ problemIf parkBelow "park_timeout cannot be negative" ++
        problemIf waitBelow "ownership_timeout must be zero or positive" ++
        problemIf (c.foreignTraversal = .mode .custom && c.customPolicy = .none)
          "custom_policy required when foreign_traversal is CUSTOM" ++
        problemIf (c.customPolicy ≠ .none && !isPolicy c.customPolicy)
          "custom_policy must be a ForeignTraversalPolicy" ++
        problemIf (!isDictionary c.options) "options must be a dict")) := by
  unfold problems isMissingOrBelowZero
  congr 1
  funext mode
  by_cases hp : c.parkTimeout = .none <;> by_cases ho : c.ownershipTimeout = .none <;>
    simp only [hp, ho, if_true, if_false] <;> rfl

theorem isMissingOrBelowZero_iff {missing : Bool} {v : Value} :
    w.isMissingOrBelowZero missing v = .ok false ↔ v = .none ∧ missing = false ∨ v.IsWait := by
  unfold isMissingOrBelowZero
  split
  · rename_i hv
    subst hv
    simp [Value.IsWait, Value.number?]
  · rename_i hv
    rw [isBelowZero_eq_false_iff]
    simp [hv]

/-- **A configuration has no problems exactly if its settings go together.** -/
theorem problems_eq_nil_iff {c : Config} : w.problems c = .ok [] ↔ c.Consistent := by
  rw [problems_eq]
  constructor
  · intro h
    obtain ⟨mode, hmode, h⟩ := bind_eq_ok.1 h
    obtain ⟨park, hpark, h⟩ := bind_eq_ok.1 h
    obtain ⟨wait, hwait, h⟩ := bind_eq_ok.1 h
    have hnil := Except.ok.inj h
    simp only [List.append_eq_nil_iff, problemIf_eq_nil] at hnil
    obtain ⟨⟨⟨⟨⟨rfl, rfl⟩, rfl⟩, hneeds⟩, hpolicy⟩, hoptions⟩ := hnil
    exact {
      mode := modeProblems_eq_nil_iff.1 hmode
      parkTimeout := by simpa using isMissingOrBelowZero_iff.1 hpark
      ownershipTimeout := by simpa using isMissingOrBelowZero_iff.1 hwait
      needsPolicy := by simpa using hneeds
      customPolicy := by
        by_cases hn : c.customPolicy = .none
        · exact .inl hn
        · right
          simpa [hn] using hpolicy
      options := by simpa using hoptions }
  · intro h
    refine bind_eq_ok.2 ⟨[], modeProblems_eq_nil_iff.2 h.mode, ?_⟩
    refine bind_eq_ok.2 ⟨false, isMissingOrBelowZero_iff.2 (by simpa using h.parkTimeout), ?_⟩
    refine bind_eq_ok.2 ⟨false, isMissingOrBelowZero_iff.2 (.inr h.ownershipTimeout), ?_⟩
    have hneeds : (decide (c.foreignTraversal = .mode .custom) &&
        decide (c.customPolicy = .none)) = false := by simpa using h.needsPolicy
    have hpolicy : (decide (c.customPolicy ≠ .none) && !isPolicy c.customPolicy) = false := by
      rcases h.customPolicy with hn | hn <;> simp [hn]
    rw [hneeds, hpolicy, h.options]
    rfl

end World

namespace Config

/-- What stands for settings that are left out goes together. -/
theorem consistent_plain (r : Ref .dictionary) : (plain (.dictionary r)).Consistent where
  mode := rfl
  parkTimeout := .inl rfl
  ownershipTimeout := ⟨_, rfl, rfl⟩
  needsPolicy h := by cases h
  customPolicy := .inl rfl
  options := rfl

theorem complete_plain (options : Value) : (plain options).Complete := by
  intro name hn
  simp only [settingNames, List.mem_cons, List.not_mem_nil, or_false] at hn
  rcases hn with rfl | rfl | rfl | rfl | rfl | rfl | rfl <;> exact ⟨_, rfl⟩

end Config

end GuardedWalk
