import GuardedWalk.Script.Action

/-!
# Answers of a script

An answer is a tree of plain data and of values. Those values are looked at when the script has
ended and all its answers are written, so what becomes of a list after it was answered still shows.
Only plain data, sequences and dictionaries with plain keys can be written.

## Main definitions

* `GuardedWalk.Script.Answer` — the answers.
* `GuardedWalk.Script.dataOf` — a value as plain data.
* `GuardedWalk.Script.Answer.settled` — an answer as plain data.

## Main results

* `GuardedWalk.Script.Answer.settled_text` — a text is answered as it is.
-/

set_option autoImplicit false

namespace GuardedWalk.Script

/-- Plain data and values. -/
inductive Answer where
  | none
  | bool (b : Bool)
  | int (i : Int)
  | text (s : String)
  | list (items : List Answer)
  | record (fields : List (String × Answer))
  /-- A value, as it is when the script has ended. -/
  | held (v : Value)

instance : Inhabited Answer := ⟨.none⟩

variable {ε : Type}

/-- How a number is written that is not whole. -/
def numeral : Binary64 → String
  | .nan => "NaN"
  | .infinite negative => if negative then "-Infinity" else "Infinity"
  | x => x.text

/-- The name of the field that stands for a key of a dictionary. -/
def nameOfKey (w : World ε) : Value → Except Failure String
  | .none => .ok "null"
  | .bool b => .ok (if b then "true" else "false")
  | .int i => .ok (toString i)
  | .float x => .ok (numeral x)
  | .nan _ => .ok (numeral .nan)
  | .text s => .ok s
  | v => .error (.notName (w.className v))

/-- A value as plain data, at most `fuel` containers deep; `opened` are the containers that it lies
in. -/
def dataWithin (w : World ε) : Nat → List Value → Value → Except Failure Datum
  | _, _, .none => .ok .none
  | _, _, .bool b => .ok (.bool b)
  | _, _, .int i => .ok (.int i)
  | _, _, .float x => .ok (.fraction x)
  | _, _, .nan _ => .ok (.fraction .nan)
  | _, _, .text s => .ok (.text s)
  | 0, _, .list _ | 0, _, .tuple _ | 0, _, .dictionary _ => .error .tooDeep
  | fuel + 1, opened, .list r => do
    if opened.contains (.list r) then throw .insideItself
    return .list (← (w.items r).mapM (dataWithin w fuel (.list r :: opened)))
  | fuel + 1, opened, .tuple r => do
    if opened.contains (.tuple r) then throw .insideItself
    return .list (← (w.row r).mapM (dataWithin w fuel (.tuple r :: opened)))
  | fuel + 1, opened, .dictionary r => do
    if opened.contains (.dictionary r) then throw .insideItself
    let fields ← (w.dictionaries.get r).pairs.mapM fun p => do
      let name ← nameOfKey w p.1
      return (name, ← dataWithin w fuel (.dictionary r :: opened) p.2)
    return .record (fields.map (·.1)) (fields.map (·.2))
  | _, _, v => .error (.notData (w.className v))

/-- A value as plain data. -/
def dataOf (w : World ε) (v : Value) : Except Failure Datum := dataWithin w w.extent [] v

mutual

/-- An answer as plain data. -/
def Answer.settled (w : World ε) : Answer → Except Failure Datum
  | .none => .ok .none
  | .bool b => .ok (.bool b)
  | .int i => .ok (.int i)
  | .text s => .ok (.text s)
  | .list items => do return .list (← Answer.settledAll w items)
  | .record fields => do
    return .record (fields.map (·.1)) (← Answer.settledFields w fields)
  | .held v => dataOf w v

/-- Answers as plain data. -/
def Answer.settledAll (w : World ε) : List Answer → Except Failure (List Datum)
  | [] => .ok []
  | a :: rest => do
    let d ← a.settled w
    return d :: (← Answer.settledAll w rest)

/-- The answers in some fields as plain data. -/
def Answer.settledFields (w : World ε) : List (String × Answer) → Except Failure (List Datum)
  | [] => .ok []
  | (_, a) :: rest => do
    let d ← a.settled w
    return d :: (← Answer.settledFields w rest)

end

/-- A text is answered as it is. -/
theorem Answer.settled_text (w : World ε) (s : String) :
    (Answer.text s).settled w = .ok (.text s) := by
  simp [Answer.settled]

end GuardedWalk.Script
