import GuardedWalk.Value

/-!
# Dictionaries

A dictionary keeps pairs of a key and a value in the order in which the keys were first put into it.
A pair that is taken out leaves a gap, so whoever goes through the dictionary meanwhile keeps their
place. Gaps are closed when a new key finds no room, or when the first key that is no text is put
into a dictionary that has been laid out for texts.

Which keys count as the same is a parameter, since it depends on what the keys contain.

## Main definitions

* `GuardedWalk.Dictionary` — the dictionaries.
* `GuardedWalk.Dictionary.pairs` — the pairs that a dictionary has.
* `GuardedWalk.Dictionary.find?`, `put`, `erase` — reading, putting and taking out.
* `GuardedWalk.Dictionary.next?` — the first pair from a place on.
* `GuardedWalk.Dictionary.copied` — a dictionary with the same pairs.

## Main results

* `GuardedWalk.Dictionary.pairs_put` — a value replaces the one under the same key, and a new key
  goes to the end.
* `GuardedWalk.Dictionary.pairs_erase` — the other pairs stay as they are.
* `GuardedWalk.Dictionary.pairs_copied` — a copy has the same pairs.
-/

set_option autoImplicit false

namespace GuardedWalk

/-- A dictionary. -/
structure Dictionary where
  /-- The pairs in the order in which their keys were put; nothing where a pair was taken out. -/
  entries : List (Option (Value × Value))
  /-- How many new keys can be put before gaps are closed. -/
  room : Nat
  /-- Whether it is laid out for texts as keys. -/
  textual : Bool
deriving DecidableEq, Repr

namespace Dictionary

/-- A dictionary into which nothing has been put. -/
def empty : Dictionary := ⟨[], 0, true⟩

instance : Inhabited Dictionary := ⟨empty⟩

/-- The pairs, in order. -/
def pairs (d : Dictionary) : List (Value × Value) := d.entries.filterMap id

/-- The keys, in order. -/
def keys (d : Dictionary) : List Value := d.pairs.map (·.1)

/-- The values, in the order of their keys. -/
def values (d : Dictionary) : List Value := d.pairs.map (·.2)

/-- The number of pairs. -/
def size (d : Dictionary) : Nat := d.pairs.length

/-- How many keys there is room for if a dictionary is laid out for `n` of them: two thirds of a
power of two, which is at least eight. -/
def capacity (n : Nat) : Nat := 2 * Nat.pow 2 ((((n ||| 8) - 1) ||| 7).log2 + 1) / 3

/-- The same pairs without gaps, laid out for `n` keys. -/
def compact (d : Dictionary) (n : Nat) (textual : Bool) : Dictionary :=
  ⟨d.pairs.map some, capacity n - d.size, textual⟩

/-- The same pairs without gaps, with room for as many again. -/
def remade (d : Dictionary) (textual : Bool) : Dictionary := d.compact (3 * d.size) textual

/-- Whether a value is a text. -/
def isText : Value → Bool
  | .text _ => true
  | _ => false

variable (same : Value → Value → Bool)

/-- The value under a key. -/
def find? (d : Dictionary) (key : Value) : Option Value :=
  (d.pairs.find? fun p => same p.1 key).map (·.2)

/-- Whether there is a value under a key. -/
def has (d : Dictionary) (key : Value) : Bool := (d.find? same key).isSome

/-- A pair with another value, if its key is the one that is meant. -/
def revalued (key v : Value) (p : Value × Value) : Value × Value :=
  if same p.1 key then (p.1, v) else p

/-- Puts a value under a key: a key that is there already is kept, a new one goes to the end. -/
def put (d : Dictionary) (key v : Value) : Dictionary :=
  let d := if d.textual && !isText key then d.remade false else d
  if d.has same key then
    { d with entries := d.entries.map (Option.map (revalued same key v)) }
  else
    let d := if d.room = 0 then d.remade d.textual else d
    { d with entries := d.entries ++ [some (key, v)], room := d.room - 1 }

/-- Takes a key out; it leaves a gap. -/
def erase (d : Dictionary) (key : Value) : Dictionary :=
  { d with entries := d.entries.map fun e => e.filter fun p => !same p.1 key }

/-- A dictionary into which some pairs are put, one after the other. -/
def ofPairs (pairs : List (Value × Value)) : Dictionary :=
  pairs.foldl (fun d p => d.put same p.1 p.2) empty

/-- The first pair among entries, with its place counted from `place`. -/
def firstFrom : Nat → List (Option (Value × Value)) → Option (Nat × (Value × Value))
  | _, [] => none
  | place, some p :: _ => some (place, p)
  | place, none :: rest => firstFrom (place + 1) rest

/-- The first pair from a place on, with its own place. -/
def next? (d : Dictionary) (place : Nat) : Option (Nat × (Value × Value)) :=
  firstFrom place (d.entries.drop place)

/-- A dictionary with the same pairs: one that has few gaps is laid out in the same way. -/
def copied (d : Dictionary) : Dictionary :=
  if d.size = 0 then empty
  else if 2 * d.entries.length / 3 ≤ d.size then d
  else d.compact ((3 * d.size + 1) / 2) d.textual

@[simp] theorem pairs_empty : empty.pairs = [] := rfl

@[simp] theorem pairs_compact (d : Dictionary) (n : Nat) (textual : Bool) :
    (d.compact n textual).pairs = d.pairs := by
  simp [compact, pairs]

@[simp] theorem pairs_remade (d : Dictionary) (textual : Bool) :
    (d.remade textual).pairs = d.pairs := by
  simp [remade]

theorem filterMap_map_option (f : Value × Value → Value × Value)
    (es : List (Option (Value × Value))) :
    (es.map (Option.map f)).filterMap id = (es.filterMap id).map f := by
  induction es with
  | nil => rfl
  | cons e rest ih => cases e <;> simp_all

theorem has_of_pairs {d d' : Dictionary} (h : d.pairs = d'.pairs) (key : Value) :
    d.has same key = d'.has same key := by
  simp [has, find?, h]

/-- A value replaces the one under the same key, and a new key goes to the end. -/
theorem pairs_put (d : Dictionary) (key v : Value) :
    (d.put same key v).pairs =
      if d.has same key then d.pairs.map (revalued same key v) else d.pairs ++ [(key, v)] := by
  have hlaid : ∀ b : Bool,
      (if b then d.remade false else d).pairs = d.pairs := by
    intro b
    cases b <;> simp
  have hroom : ∀ d' : Dictionary,
      (if d'.room = 0 then d'.remade d'.textual else d').pairs = d'.pairs := by
    intro d'
    split <;> simp
  simp only [put]
  rw [has_of_pairs same (hlaid _) key]
  split
  · simp only [pairs, filterMap_map_option]
    exact congrArg _ (hlaid _)
  · simp only [pairs, List.filterMap_append, List.filterMap_cons, id, List.filterMap_nil]
    exact congrArg (· ++ [(key, v)]) ((hroom _).trans (hlaid _))

/-- Taking a key out leaves the other pairs as they are. -/
theorem pairs_erase (d : Dictionary) (key : Value) :
    (d.erase same key).pairs = d.pairs.filter fun p => !same p.1 key := by
  simp only [erase, pairs]
  induction d.entries with
  | nil => rfl
  | cons e rest ih =>
    cases e with
    | none => simpa using ih
    | some p => cases h : same p.1 key <;> simp_all [Option.filter]

/-- A copy has the same pairs. -/
theorem pairs_copied (d : Dictionary) : d.copied.pairs = d.pairs := by
  unfold copied
  split
  · rename_i h
    exact (List.eq_nil_of_length_eq_zero h).symm
  · split <;> simp

end Dictionary

end GuardedWalk
