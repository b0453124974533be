/-!
# Binary floating-point numbers

A number of the 64-bit binary format, kept as what it stands for: not a number, an infinity,
or plus or minus `mantissa * 2 ^ exponent` with the mantissa below `2 ^ 53` and the exponent
from `-1074` to `971`. The mantissa is at least `2 ^ 52` unless the exponent is the least one, so
each number has one form, apart from the sign of zero.

## Main definitions

* `GuardedWalk.Binary64` — the numbers.
* `GuardedWalk.Binary64.ofRatio` — the nearest number to a quotient, a tie going to the even
  mantissa.
* `GuardedWalk.Binary64.isNegative`, `isPositive`, `isZero` — comparisons with zero; all are
  false of what is not a number.

## Main results

* `GuardedWalk.Binary64.sign_cases` — a number is negative, zero, positive or not a number.
-/

set_option autoImplicit false

namespace GuardedWalk

/-- A floating-point number by its value. -/
inductive Binary64 where
  /-- What is not a number. -/
  | nan
  /-- An infinity. -/
  | infinite (negative : Bool)
  /-- Plus or minus `mantissa * 2 ^ exponent`. -/
  | finite (negative : Bool) (mantissa : Nat) (exponent : Int)
deriving DecidableEq, Repr

namespace Binary64

/-- Zero. -/
def zero : Binary64 := .finite false 0 (-1074)

instance : Inhabited Binary64 := ⟨zero⟩

/-- Whether a number is below zero; zero of either sign is not. -/
def isNegative : Binary64 → Bool
  | nan => false
  | infinite negative => negative
  | finite negative mantissa _ => negative && mantissa != 0

/-- Whether a number is above zero. -/
def isPositive : Binary64 → Bool
  | nan => false
  | infinite negative => !negative
  | finite negative mantissa _ => !negative && mantissa != 0

/-- Whether a number is zero, of either sign. -/
def isZero : Binary64 → Bool
  | finite _ mantissa _ => mantissa == 0
  | _ => false

/-- A number lies on one side of zero, is zero, or is not a number. -/
theorem sign_cases (x : Binary64) :
    x.isNegative = true ∨ x.isZero = true ∨ x.isPositive = true ∨ x = nan := by
  rcases x with _ | (_ | _) | ⟨_ | _, m, e⟩
  · simp
  · simp [isPositive]
  · simp [isNegative]
  · by_cases h : m = 0 <;> simp [isZero, isPositive, h]
  · by_cases h : m = 0 <;> simp [isZero, isNegative, h]

/-- The quotient rounded to a whole number, a tie going to the even one. -/
def divRoundEven (num den : Nat) : Nat :=
  let q := num / den
  let r := num % den
  if 2 * r < den then q
  else if den < 2 * r then q + 1
  else if q % 2 = 0 then q else q + 1

/-- Numerator and denominator of `num / den / 2 ^ e`. -/
def scaled (num den : Nat) (e : Int) : Nat × Nat :=
  (num * Nat.pow 2 (-e).toNat, den * Nat.pow 2 e.toNat)

/-- The least exponent for which the mantissa of `num / den` stays below `2 ^ 53`, not below the
least exponent of the format. -/
def exponentFor (num den : Nat) : Int :=
  let guess : Int := (num.log2 : Int) - (den.log2 : Int) - 52
  let (n, d) := scaled num den guess
  max (-1074) (if n / d < Nat.pow 2 52 then guess - 1 else guess)

/-- The number nearest to `num / den`, with the given sign; a tie goes to the even mantissa and
what lies beyond the largest number is infinite. -/
def ofRatio (negative : Bool) (num den : Nat) : Binary64 :=
  if num = 0 then .finite negative 0 (-1074)
  else
    let e := exponentFor num den
    let (n, d) := scaled num den e
    let m := divRoundEven n d
    let (m, e) := if m = Nat.pow 2 53 then (Nat.pow 2 52, e + 1) else (m, e)
    if 971 < e then .infinite negative else .finite negative m e

/-- The number nearest to a whole number. -/
def ofInt (i : Int) : Binary64 := ofRatio (decide (i < 0)) i.natAbs 1

end Binary64

end GuardedWalk
