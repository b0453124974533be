import GuardedWalk.Number.Binary64
import GuardedWalk.Text.DecimalDigit

/-!
# Decimal texts of floating-point numbers

A number is written with the fewest significant digits that read back as the same number and,
among those, with the digits nearest to it. Values from `10 ^ (-4)` up to `10 ^ 16` are written
positionally with at least one digit on each side of the point, all others with a signed
exponent of at least two digits. A text is read as the nearest number.

## Main definitions

* `GuardedWalk.Decimal.shortest` — the significant digits of a positive number and the power of
  ten that they are multiplied by.
* `GuardedWalk.Binary64.text` — a number written out.
* `GuardedWalk.Binary64.ofText?` — a text read as a number.
-/

set_option autoImplicit false

namespace GuardedWalk

namespace Decimal

/-- The number of decimal digits of a positive number. -/
def length (n : Nat) : Nat := (Nat.toDigits 10 n).length

/-- The place of the decimal point of the positive quotient `num / den`: the least `p` with
`num / den < 10 ^ p`. -/
def point (num den : Nat) : Int :=
  if den ≤ num then (length (num / den) : Int)
  else 1 - (length ((den + num - 1) / num - 1) : Int)

/-- A decimal: `digits * 10 ^ exponent`. -/
structure Digits where
  /-- The significant digits, read as one number. -/
  digits : Nat
  /-- The power of ten of the last digit. -/
  exponent : Int
deriving DecidableEq, Repr

/-- The reals that round to a number: numerators over a common denominator, with the ends counted
in exactly if the mantissa is even. -/
structure Interval where
  /-- The lower end. -/
  low : Nat
  /-- The number itself. -/
  value : Nat
  /-- The upper end. -/
  high : Nat
  /-- The common denominator. -/
  den : Nat
  /-- Whether the ends round to the number. -/
  closed : Bool

/-- The reals that round to `mantissa * 2 ^ exponent`; below a power of two the next number is
half as far away. -/
def Interval.around (mantissa : Nat) (exponent : Int) : Interval :=
  let up := Nat.pow 2 exponent.toNat
  let below := if mantissa = Nat.pow 2 52 ∧ -1074 < exponent then 1 else 2
  { low := (4 * mantissa - below) * up
    value := 4 * mantissa * up
    high := (4 * mantissa + 2) * up
    den := 4 * Nat.pow 2 (-exponent).toNat
    closed := mantissa % 2 = 0 }

/-- Whether the quotient `n / d` lies in the interval. -/
def Interval.holds (i : Interval) (n d : Nat) : Bool :=
  if i.closed then i.low * d ≤ n * i.den && n * i.den ≤ i.high * d
  else i.low * d < n * i.den && n * i.den < i.high * d

/-- The decimal of `count` significant digits nearest to the number whose last digit stands at the
power `exponent`, if it reads back as the number. -/
def Interval.candidate? (i : Interval) (exponent : Int) : Option Digits :=
  let up := Nat.pow 10 exponent.toNat
  let down := Nat.pow 10 (-exponent).toNat
  -- in units of the last digit the number is `(value * down) / (den * up)`
  let q := (i.value * down) / (i.den * up)
  let r := (i.value * down) % (i.den * up)
  let lower := i.holds (q * up) down
  let upper := i.holds ((q + 1) * up) down
  if lower && upper then
    if 2 * r < i.den * up || (2 * r = i.den * up && q % 2 = 0) then some ⟨q, exponent⟩
    else some ⟨q + 1, exponent⟩
  else if lower then some ⟨q, exponent⟩
  else if upper then some ⟨q + 1, exponent⟩
  else none

/-- Drops zeros at the end of the digits; at most `fuel` of them. -/
def Digits.trim : Nat → Digits → Digits
  | 0, d => d
  | fuel + 1, d =>
    if d.digits ≠ 0 ∧ d.digits % 10 = 0 then Digits.trim fuel ⟨d.digits / 10, d.exponent + 1⟩
    else d

/-- The fewest digits that read back as `mantissa * 2 ^ exponent`, and the nearest of those. -/
def shortest (mantissa : Nat) (exponent : Int) : Digits :=
  let i := Interval.around mantissa exponent
  let p := point i.value i.den
  let found := (List.range 17).findSome? fun k => i.candidate? (p - (k + 1 : Nat))
  (found.getD ⟨mantissa, exponent⟩).trim 18

/-- How numbers are laid out. -/
structure Layout where
  /-- The least place of the point that is written positionally. -/
  least : Int
  /-- The greatest place of the point that is written positionally. -/
  greatest : Int
  /-- The least number of digits of an exponent. -/
  exponentDigits : Nat

/-- Values from `0.0001` up to `10 ^ 16` are written positionally, and an exponent has two digits
at least. -/
def Layout.plain : Layout := ⟨-3, 16, 2⟩

/-- Writes digits in a layout. -/
def Digits.write (layout : Layout) (d : Digits) : String :=
  let ds := Nat.toDigits 10 d.digits
  let n : Int := ds.length
  let place := n + d.exponent
  let chars : List Char :=
    if layout.least ≤ place ∧ place ≤ layout.greatest then
      if place ≤ 0 then '0' :: '.' :: List.replicate (-place).toNat '0' ++ ds
      else if n ≤ place then ds ++ List.replicate (place - n).toNat '0' ++ ['.', '0']
      else ds.take place.toNat ++ '.' :: ds.drop place.toNat
    else
      let e := place - 1
      let digits := Nat.toDigits 10 e.natAbs
      let pad := List.replicate (layout.exponentDigits - digits.length) '0'
      let tail := 'e' :: (if e < 0 then '-' else '+') :: pad ++ digits
      match ds with
      | [] => tail
      | [c] => c :: tail
      | c :: cs => c :: '.' :: cs ++ tail
  String.ofList chars

end Decimal

namespace Binary64

/-- A number written with the fewest digits that read back as it. -/
def text : Binary64 → String
  | nan => "nan"
  | infinite negative => if negative then "-inf" else "inf"
  | finite negative mantissa exponent =>
    let sign := if negative then "-" else ""
    if mantissa = 0 then sign ++ "0.0"
    else sign ++ (Decimal.shortest mantissa exponent).write .plain

/-- The number `± digits * 10 ^ exponent`, rounded to nearest. -/
def ofDecimal (negative : Bool) (digits : Nat) (exponent : Int) : Binary64 :=
  let place := (Decimal.length digits : Int) + exponent
  if digits = 0 then .finite negative 0 (-1074)
  else if 400 < place then .infinite negative
  else if place < -400 then .finite negative 0 (-1074)
  else ofRatio negative (digits * Nat.pow 10 exponent.toNat) (Nat.pow 10 (-exponent).toNat)

/-- Splits off the decimal digits at the start of a text, where `inside` says whether a digit stands
before it; one underscore may stand between two digits. -/
def splitDigits : Bool → List Char → List Char × List Char
  | _, [] => ([], [])
  | inside, '_' :: c :: rest =>
    if inside && c.isDigit then
      let (ds, r) := splitDigits true rest
      (c :: ds, r)
    else ([], '_' :: c :: rest)
  | _, c :: rest =>
    if c.isDigit then
      let (ds, r) := splitDigits true rest
      (c :: ds, r)
    else ([], c :: rest)

/-- Splits off the decimal digits at the start of a text. -/
def takeDigits (cs : List Char) : List Char × List Char := splitDigits false cs

/-- The number that decimal digits spell. -/
def digitsValue (ds : List Char) : Nat :=
  ds.foldl (fun n c => 10 * n + (c.toNat - '0'.toNat)) 0

/-- Reads the exponent that follows the digits, up to the end of the text. -/
def readExponent? : List Char → Option Int
  | [] => some 0
  | e :: rest =>
    if e = 'e' ∨ e = 'E' then
      let (negative, rest) := match rest with
        | '-' :: r => (true, r)
        | '+' :: r => (false, r)
        | r => (false, r)
      match takeDigits rest with
      | ([], _) => none
      | (ds, []) => some (if negative then -(digitsValue ds : Int) else digitsValue ds)
      | _ => none
    else none

/-- Reads a number without sign. -/
def readUnsigned? (negative : Bool) (cs : List Char) : Option Binary64 :=
  let lower := cs.map Char.toLower
  if lower = "inf".toList ∨ lower = "infinity".toList then some (.infinite negative)
  else if lower = "nan".toList then some .nan
  else
    let (whole, rest) := takeDigits cs
    let (part, rest) := match rest with
      | '.' :: r => takeDigits r
      | r => ([], r)
    if whole.isEmpty && part.isEmpty then none
    else
      (readExponent? rest).map fun e =>
        ofDecimal negative (digitsValue (whole ++ part)) (e - (part.length : Int))

/-- A character as it stands for reading: digits of all scripts are told by their value, and blanks
of all scripts are spaces. -/
def plainChar (c : Char) : Char :=
  if c.toNat < 0x80 then c
  else if Text.isBlank c then ' '
  else
    match Text.digit? c with
    | some d => Char.ofNat ('0'.toNat + d)
    | none => c

/-- Whether a character may stand before and after a number. -/
def isPadding (c : Char) : Bool := c = ' ' || (9 ≤ c.toNat && c.toNat ≤ 13)

/-- A text without what may stand before and after a number. -/
def trimmed (cs : List Char) : List Char :=
  ((cs.dropWhile isPadding).reverse.dropWhile isPadding).reverse

/-- Reads a text as the nearest number: an optional sign, then digits with an optional point and
an optional exponent, or the name of an infinity or of what is not a number. -/
def ofText? (s : String) : Option Binary64 :=
  match trimmed (s.toList.map plainChar) with
  | '-' :: cs => readUnsigned? true cs
  | '+' :: cs => readUnsigned? false cs
  | cs => readUnsigned? false cs

end Binary64

end GuardedWalk
