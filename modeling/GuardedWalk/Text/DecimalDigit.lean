/-!
# Decimal digits and blanks of all scripts

Every script that counts in tens has its ten digits in a row. A character of general category `Nd`
stands for the distance to the nought of its script. The data are those of Unicode 14.0.

## Main definitions

* `GuardedWalk.Text.noughts` — the code points of the digits nought, in order.
* `GuardedWalk.Text.digit?` — the digit that a character stands for.
* `GuardedWalk.Text.isBlank` — whether a character beyond ASCII is a blank.

## Main results

* `GuardedWalk.Text.digit?_lt` — a digit is less than ten.
-/

set_option autoImplicit false

namespace GuardedWalk.Text

/-- The code points of the digits nought. -/
def noughts : List Nat :=
  [0x30, 0x660, 0x6f0, 0x7c0, 0x966, 0x9e6, 0xa66, 0xae6, 0xb66, 0xbe6, 0xc66, 0xce6, 0xd66,
   0xde6, 0xe50, 0xed0, 0xf20, 0x1040, 0x1090, 0x17e0, 0x1810, 0x1946, 0x19d0, 0x1a80,
   0x1a90, 0x1b50, 0x1bb0, 0x1c40, 0x1c50, 0xa620, 0xa8d0, 0xa900, 0xa9d0, 0xa9f0, 0xaa50,
   0xabf0, 0xff10, 0x104a0, 0x10d30, 0x11066, 0x110f0, 0x11136, 0x111d0, 0x112f0, 0x11450,
   0x114d0, 0x11650, 0x116c0, 0x11730, 0x118e0, 0x11950, 0x11c50, 0x11d50, 0x11da0, 0x16a60,
   0x16ac0, 0x16b50, 0x1d7ce, 0x1d7d8, 0x1d7e2, 0x1d7ec, 0x1d7f6, 0x1e140, 0x1e2f0, 0x1e950,
   0x1fbf0]

/-- The digit that a character stands for. -/
def digit? (c : Char) : Option Nat :=
  (noughts.find? fun z => decide (z ≤ c.toNat ∧ c.toNat < z + 10)).map (c.toNat - ·)

/-- Whether a character beyond ASCII is a blank. -/
def isBlank (c : Char) : Bool :=
  let n := c.toNat
  n = 0x85 || n = 0xa0 || n = 0x1680 || (0x2000 ≤ n && n ≤ 0x200a) || n = 0x2028 || n = 0x2029 ||
    n = 0x202f || n = 0x205f || n = 0x3000

/-- A digit is less than ten. -/
theorem digit?_lt {c : Char} {d : Nat} (h : digit? c = some d) : d < 10 := by
  obtain ⟨z, hz, rfl⟩ := Option.map_eq_some_iff.1 h
  have hr := List.find?_some hz
  simp only [decide_eq_true_eq] at hr
  omega

end GuardedWalk.Text
