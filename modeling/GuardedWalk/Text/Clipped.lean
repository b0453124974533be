/-!
# Texts that are cut off

Where a text may take only so many bytes, it is cut off after the last byte that fits. A character
that is cut in two is replaced by the replacement mark.

## Main definitions

* `GuardedWalk.Text.clip` — the start of a text that fits into some bytes.
* `GuardedWalk.Text.clipped` — the same on texts.

## Main results

* `GuardedWalk.Text.clip_eq_self` — a text that fits is not changed.
-/

set_option autoImplicit false

namespace GuardedWalk.Text

/-- What stands for a character that is cut in two. -/
def mark : Char := '\ufffd'

/-- The start of a text that fits into some bytes. -/
def clip : Nat → List Char → List Char
  | _, [] => []
  | 0, _ :: _ => []
  | room + 1, c :: rest =>
    if c.utf8Size ≤ room + 1 then c :: clip (room + 1 - c.utf8Size) rest else [mark]

/-- The start of a text that fits into some bytes. -/
def clipped (room : Nat) (text : String) : String := String.ofList (clip room text.toList)

/-- How many bytes some characters take. -/
def bytes : List Char → Nat
  | [] => 0
  | c :: rest => c.utf8Size + bytes rest

/-- A text that fits is not changed. -/
theorem clip_eq_self {room : Nat} {text : List Char} (h : bytes text ≤ room) :
    clip room text = text := by
  induction text generalizing room with
  | nil => cases room <;> rfl
  | cons c rest ih =>
    have hc := Char.utf8Size_pos c
    simp only [bytes] at h
    match room with
    | 0 => omega
    | room + 1 =>
      have hfit : c.utf8Size ≤ room + 1 := by omega
      rw [clip, if_pos hfit, ih (by omega)]

end GuardedWalk.Text
