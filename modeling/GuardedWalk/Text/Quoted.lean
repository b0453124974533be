import GuardedWalk.Text.Printable

/-!
# Quoted texts

A text is shown between quotes so that every character of it can be told apart: apostrophes
enclose it, unless it holds an apostrophe and no double quote. The backslash, the enclosing
quote, line feed, carriage return and tab have short escapes; any other character that is not
printable is written by its code point in the shortest of the three hexadecimal forms.

## Main definitions

* `GuardedWalk.Text.enclosing` — the quote that encloses a text.
* `GuardedWalk.Text.escape` — how one character is written inside a given quote.
* `GuardedWalk.Text.quoted` — the text with its quotes.

## Main results

* `GuardedWalk.Text.escape_of_plain` — a printable character other than the backslash and the
  quote is written as it is.
-/

set_option autoImplicit false

namespace GuardedWalk.Text

/-- The lower-case hexadecimal digits of a number, padded with zeros to a width. -/
def hex (width n : Nat) : List Char :=
  let digits := Nat.toDigits 16 n
  List.replicate (width - digits.length) '0' ++ digits

/-- The quote that encloses a text: an apostrophe, unless the text holds one and no double
quote. -/
def enclosing (text : List Char) : Char :=
  if text.contains '\'' && !text.contains '"' then '"' else '\''

/-- How a character is written between two quotes of the kind `quote`. -/
def escape (quote c : Char) : List Char :=
  if c = '\\' then ['\\', '\\']
  else if c = quote then ['\\', c]
  else if c = '\n' then ['\\', 'n']
  else if c = '\r' then ['\\', 'r']
  else if c = '\t' then ['\\', 't']
  else if isPrintable c then [c]
  else if c.toNat < 0x100 then '\\' :: 'x' :: hex 2 c.toNat
  else if c.toNat < 0x10000 then '\\' :: 'u' :: hex 4 c.toNat
  else '\\' :: 'U' :: hex 8 c.toNat

/-- A text between its quotes, with all that needs it escaped. -/
def quoted (text : String) : String :=
  let quote := enclosing text.toList
  String.ofList (quote :: text.toList.flatMap (escape quote) ++ [quote])

/-- A printable character other than the backslash and the quote is written as it is. -/
theorem escape_of_plain {quote c : Char} (hb : c ≠ '\\') (hq : c ≠ quote)
    (hn : c ≠ '\n') (hr : c ≠ '\r') (ht : c ≠ '\t') (hp : isPrintable c = true) :
    escape quote c = [c] := by
  simp [escape, hb, hq, hn, hr, ht, hp]

end GuardedWalk.Text
