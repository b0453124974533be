import GuardedWalk.Proofs.Configuring
import GuardedWalk.Proofs.Walk.Scene

/-!
# Timeouts that a wait can last for

The check of a configuration looks at the sign of a timeout only. What becomes of it when someone
waits depends on its size: a wait can name points of time up to the longest wait from now on, so a
number of seconds beyond that is too much for it, an infinite one is, and a whole number beyond the
range of floating-point numbers cannot even be added to a time. What is not a number is not too
much: a wait for a walker then never is too long, and a parked call is over at once.

## Main definitions

* `GuardedWalk.Value.IsBearable` — a wait can last for a timeout.
* `GuardedWalk.Limit.overlong` — how a wait for a walker fails for which it is too much.

## Main results

* `GuardedWalk.Limit.ofNumber_eq_excessive_iff` — the limit that a number of seconds sets.
* `GuardedWalk.Limit.ofOwnership_cases`, `ofParking_cases` — the limit that a timeout sets to a wait
  for a walker and to a parked call.
-/

set_option autoImplicit false

namespace GuardedWalk

namespace Value

/-- So many seconds are no more than the longest wait, or what is not a number. -/
def Number.IsBearable (n : Number) : Prop :=
  match n.fraction? with
  | some (num, den) => num * 1000000000 ≤ (Limit.longest : Int) * den
  | Option.none => n.rank ≤ 0

/-- A wait can last for a timeout: there is none, or it is no more than the longest wait. -/
def IsBearable (v : Value) : Prop := v = .none ∨ ∃ n, v.number? = some n ∧ n.IsBearable

end Value

namespace Limit

open Value (Number)

/-- A number of seconds is too much exactly if it is more than the longest wait. -/
theorem ofSeconds_eq_excessive_iff {now num den : Nat} (hd : 0 < den) :
    ofSeconds now num den = .excessive ↔ longest * den < num * 1000000000 := by
  have hceil : (num * 1000000000 + den - 1) / den ≤ longest ↔
      num * 1000000000 ≤ longest * den := by
    rw [Nat.div_le_iff_le_mul_add_pred hd, Nat.mul_comm den]
    omega
  unfold ofSeconds
  by_cases h : longest < (num * 1000000000 + den - 1) / den
  · simp only [h, if_true, true_iff]
    omega
  · simp only [h, if_false, reduceCtorEq, false_iff]
    omega

/-- The limit that a number of seconds sets is too late exactly if a wait cannot last so long. -/
theorem ofNumber_eq_excessive_iff {now : Nat} {n : Number} :
    ofNumber now n = .excessive ↔ ¬ n.IsBearable := by
  have hlongest : (0 : Int) ≤ longest := Int.natCast_nonneg _
  rcases n with i | (_ | negative | ⟨negative, m, e⟩)
  · by_cases hi : i ≤ 0
    · simp only [ofNumber, hi, if_true, reduceCtorEq, Number.IsBearable, Number.fraction?,
        false_iff, Classical.not_not]
      omega
    · rw [ofNumber, if_neg hi, ofSeconds_eq_excessive_iff Nat.one_pos]
      simp only [Number.IsBearable, Number.fraction?]
      omega
  · simp [ofNumber, Number.IsBearable, Number.fraction?, Number.rank]
  · cases negative <;> simp [ofNumber, Number.IsBearable, Number.fraction?, Number.rank]
  · have hd : 0 < Nat.pow 2 (-e).toNat := Nat.pow_pos (by decide)
    have hright : (0 : Int) ≤ longest * (Nat.pow 2 (-e).toNat : Nat) :=
      Int.mul_nonneg hlongest (Int.natCast_nonneg _)
    by_cases hm : (negative || m == 0) = true
    · simp only [ofNumber, hm, if_true, reduceCtorEq, Number.IsBearable, Number.fraction?,
        false_iff, Classical.not_not]
      rcases negative with _ | _
      · obtain rfl : m = 0 := by simpa using hm
        simpa only [Bool.false_eq_true, if_false, Int.natCast_zero, Int.zero_mul] using hright
      · have hleft : (0 : Int) ≤ m * (Nat.pow 2 e.toNat : Nat) :=
          Int.mul_nonneg (Int.natCast_nonneg _) (Int.natCast_nonneg _)
        simp only [if_true]
        omega
    · rw [ofNumber, if_neg hm, ofSeconds_eq_excessive_iff hd]
      obtain ⟨rfl, -⟩ : negative = false ∧ m ≠ 0 := by simpa using hm
      simp only [Number.IsBearable, Number.fraction?, Bool.false_eq_true, if_false]
      generalize longest = longest, Nat.pow 2 e.toNat = num, Nat.pow 2 (-e).toNat = den
      rw [Int.not_le, ← Int.ofNat_lt]
      simp only [Int.natCast_mul]
      rfl

/-- A number that is rounded to infinity is a large one. -/
theorem log2_of_infinite {i : Int} {negative : Bool} (h : Binary64.ofInt i = .infinite negative) :
    1023 ≤ i.natAbs.log2 := by
  unfold Binary64.ofInt Binary64.ofRatio at h
  split at h
  · cases h
  · have hexponent : 971 ≤ Binary64.exponentFor i.natAbs 1 := by
      dsimp only at h
      -- whether the mantissa has been rounded up to the next power of two
      split at h <;> dsimp only at h <;> split at h
      all_goals first | omega | cases h
    have hone : Nat.log2 1 = 0 := by decide
    simp only [Binary64.exponentFor, hone] at hexponent
    split at hexponent <;> omega

/-- A whole number beyond the range of floating-point numbers is more than the longest wait. -/
theorem not_isBearable_of_infinite {i : Int} {negative : Bool} (hi : 0 ≤ i)
    (h : Binary64.ofInt i = .infinite negative) : ¬ Number.IsBearable (.whole i) := by
  have hlog := log2_of_infinite h
  have hzero : i.natAbs ≠ 0 := by
    intro hzero
    rw [hzero] at hlog
    exact absurd hlog (by decide)
  have hpow : 2 ^ 63 ≤ i.natAbs := calc
    2 ^ 63 ≤ 2 ^ i.natAbs.log2 := Nat.pow_le_pow_right (by decide) (by omega)
    _ ≤ i.natAbs := Nat.log2_self_le hzero
  have hlongest : longest = 2 ^ 63 - 1 := rfl
  simp only [Number.IsBearable, Number.fraction?, hlongest]
  omega

/-- How a wait for a walker fails for which a timeout is too much. -/
def overlong (timeout : Value) : Failure :=
  if timeout.outlastsTime then .numberTooLarge else .waitTooLong

theorem isBearable_iff {v : Value} {n : Number} (hn : v.number? = some n) :
    v.IsBearable ↔ n.IsBearable := by
  have hv : v ≠ .none := by
    rintro rfl
    cases hn
  simp [Value.IsBearable, hn, hv]

/-- The limit that a timeout which is not below zero sets to a wait for a walker. -/
theorem ofOwnership_cases {v : Value} (hv : v.IsWait) (now : Nat) (typeName : String) :
    (v.IsBearable ∧ ∃ limit, ofOwnership now typeName v = .ok limit ∧ limit ≠ .excessive) ∨
    ¬ v.IsBearable ∧ (ofOwnership now typeName v = .error (overlong v) ∨
      ofOwnership now typeName v = .ok .excessive ∧ overlong v = .waitTooLong) := by
  obtain ⟨n, hn, hneg⟩ := hv
  rw [isBearable_iff hn]
  cases hlong : v.outlastsTime with
  | true =>
    refine .inr ⟨?_, .inl ?_⟩
    · unfold Value.outlastsTime at hlong
      rw [hn] at hlong
      cases n with
      | float x => cases hlong
      | whole i =>
        cases hi : Binary64.ofInt i with
        | infinite negative =>
          have hpos : 0 ≤ i := by simpa [Number.isNegative] using hneg
          exact not_isBearable_of_infinite hpos hi
        | nan | finite => simp [hi] at hlong
    · rw [Value.ofOwnership_of_outlastsTime hlong, overlong, hlong, if_pos rfl]
  | false =>
    have hlimit : ofOwnership now typeName v = .ok (ofNumber now n) :=
      Value.ofOwnership_of_number hn hlong now typeName
    rw [hlimit]
    by_cases hb : n.IsBearable
    · exact .inl ⟨hb, _, rfl, fun hx => ofNumber_eq_excessive_iff.1 hx hb⟩
    · rw [ofNumber_eq_excessive_iff.2 hb]
      exact .inr ⟨hb, .inr ⟨rfl, by simp [overlong, hlong]⟩⟩

/-- A number that is not above zero is no more than the longest wait. -/
theorem isBearable_of_not_isPositive {n : Number} (hn : n.isPositive = false) :
    n.IsBearable := by
  refine Classical.not_not.1 fun hb => ?_
  have hx : ofNumber 0 n = .excessive := ofNumber_eq_excessive_iff.2 hb
  rcases n with i | (_ | negative | ⟨negative, m, e⟩)
  · have hi : i ≤ 0 := by simpa [Number.isPositive] using hn
    simp [ofNumber, hi] at hx
  · cases hx
  · have hnegative : negative = true := by simpa [Number.isPositive, Binary64.isPositive] using hn
    simp [ofNumber, hnegative] at hx
  · have hm : (negative || m == 0) = true := by
      cases negative with
      | true => rfl
      | false => simpa [Number.isPositive, Binary64.isPositive] using hn
    simp [ofNumber, hm] at hx

/-- The limit that a timeout sets to a parked call, if it is none or a number. -/
theorem ofParking_cases {v : Value} (hv : v = .none ∨ v.IsWait) (now : Nat) (typeName : String) :
    (v.IsBearable ∧ ∃ limit, ofParking now typeName v = .ok limit) ∨
    ¬ v.IsBearable ∧ ofParking now typeName v = .error .waitTooLong := by
  rcases hv with rfl | ⟨n, hn, -⟩
  · exact .inl ⟨.inl rfl, .never, rfl⟩
  rw [isBearable_iff hn]
  have hne : v ≠ .none := by
    rintro rfl
    cases hn
  cases hpos : n.isPositive with
  | false =>
    refine .inl ⟨isBearable_of_not_isPositive hpos, .at now, ?_⟩
    simp [ofParking, hn, hpos]
  | true =>
    cases hlimit : ofNumber now n with
    | excessive =>
      refine .inr ⟨ofNumber_eq_excessive_iff.1 hlimit, ?_⟩
      simp [ofParking, hn, hpos, hlimit]
    | _ =>
      have hb : n.IsBearable := Classical.not_not.1 fun hb => by
        rw [ofNumber_eq_excessive_iff.2 hb] at hlimit
        cases hlimit
      refine .inl ⟨hb, ofNumber now n, ?_⟩
      simp [ofParking, hn, hpos, hlimit]

end Limit

end GuardedWalk
