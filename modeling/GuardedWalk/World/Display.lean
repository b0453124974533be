import GuardedWalk.World.Members

/-!
# Values as texts

Every value has two texts: a literal one, which tells texts, numbers and lists apart, and a plain
one, in which a text stands for itself. A container that lies inside itself is written as three
dots there; other objects inside themselves have no text.

## Main definitions

* `GuardedWalk.World.literal` — the literal text of a value.
* `GuardedWalk.World.plain` — the plain text of a value.

## Main results

* `GuardedWalk.World.plain_text` — the plain text of a text is the text itself.
-/

set_option autoImplicit false

namespace GuardedWalk

namespace World

variable {ε : Type}

/-- Texts separated by commas. -/
def separated (texts : List String) : String := ", ".intercalate texts

/-- The word for a truth value. -/
def truthWord (b : Bool) : String := if b then "True" else "False"

/-- The text of an object that has no other. -/
def anonymous (typeName : String) : String := "<" ++ typeName ++ " object>"

/-- The literal text of a node, made of the literal texts of some of its fields. -/
def literalNode (n : Node) (field : String → Except Failure String) : Except Failure String :=
  match n.cls with
  | .document .feature => do return "Feature(name=" ++ (← field "name") ++ ")"
  | .document .step => do
    return "Step(" ++ (← field "keyword") ++ ", " ++ (← field "name") ++ ", status=" ++
      (← field "status") ++ ")"
  | .document .background | .document .scenario | .document .scenarioOutline => do
    return n.cls.name ++ "(" ++ (← field "keyword") ++ ", " ++ (← field "name") ++ ")"
  | .document .tableCell => do return "TableCell(" ++ (← field "value") ++ ")"
  | .document _ => .ok (n.cls.name ++ "()")
  | .foreign c => .ok (if c.isDocumentNode then c.name ++ "()" else anonymous c.name)

/-- The text of a walker: how many observers it has and notifies, and whether it walks. -/
def literalWalker (w : World ε) (v : Value) : Except Failure String := do
  let all ← w.length (← w.attrValue v "observers")
  let notified ← w.length (← w.attrValue v "legacy_observers")
  let walking ← w.isTrue (← w.attrValue v "is_walking")
  return "FeatureWalker(observers=" ++ toString all ++ ", legacy=" ++ toString notified ++
    ", walking=" ++ truthWord walking ++ ")"

/-- The literal text of the class of a value. -/
def literalClass (w : World ε) (v : Value) : String :=
  let place := ((w.homeOf v .fromValues).map fun p => p.name ++ ".").getD ""
  "<class '" ++ place ++ w.typeName v ++ "'>"

/-- Whether the literal text of a value ends in three dots where the value lies inside itself. -/
def endsInDots : Value → Bool
  | .list _ | .tuple _ | .dictionary _ | .config _ => true
  | _ => false

/-- Whether the literal text of a value has no end: it is being written, and nothing that ends in
three dots has been begun since. `opened` are the values being written, the innermost first. -/
def isEndless (opened : List Value) (v : Value) : Bool :=
  (opened.takeWhile (!endsInDots ·)).contains v

/-- The literal text of a value. A list, tuple, dictionary or configuration inside itself is written
as three dots; `opened` are the values being written. -/
def literalWithin (w : World ε) : Nat → List Value → Value → Except Failure String
  | _, _, .none => .ok "None"
  | _, _, .bool b => .ok (truthWord b)
  | _, _, .int i => .ok (toString i)
  | _, _, .float x => .ok x.text
  | _, _, .nan _ => .ok Binary64.nan.text
  | _, _, .text s => .ok (Text.quoted s)
  | _, _, .mode m =>
    .ok ("<ForeignTraversalMode." ++ m.name ++ ": " ++ Text.quoted m.word ++ ">")
  | _, _, .event e => .ok ("<Event." ++ e.name ++ ": " ++ Text.quoted e.methodName ++ ">")
  | _, _, .walker r => w.literalWalker (.walker r)
  | 0, _, .list _ | 0, _, .tuple _ | 0, _, .dictionary _ | 0, _, .exception _ | 0, _, .node _
  | 0, _, .config _ | 0, _, .method _ => .error .tooDeep
  | fuel + 1, opened, .list r =>
    if opened.contains (.list r) then .ok "[...]"
    else do
      let texts ← (w.items r).mapM (w.literalWithin fuel (.list r :: opened))
      return "[" ++ separated texts ++ "]"
  | fuel + 1, opened, .tuple r =>
    if opened.contains (.tuple r) then .ok "(...)"
    else do
      match ← (w.row r).mapM (w.literalWithin fuel (.tuple r :: opened)) with
      | [one] => return "(" ++ one ++ ",)"
      | texts => return "(" ++ separated texts ++ ")"
  | fuel + 1, opened, .dictionary r =>
    if opened.contains (.dictionary r) then .ok "\x7b...\x7d"
    else do
      let write := w.literalWithin fuel (.dictionary r :: opened)
      let texts ← (w.dictionaries.get r).pairs.mapM fun p => do
        return (← write p.1) ++ ": " ++ (← write p.2)
      return "\x7b" ++ separated texts ++ "\x7d"
  | fuel + 1, opened, .exception r => do
    if isEndless opened (.exception r) then throw .tooDeep
    let e := w.exceptions.get r
    match w.row e.args with
    | [v] => return e.cls.name ++ "(" ++ (← w.literalWithin fuel (.exception r :: opened) v) ++ ")"
    | _ => return e.cls.name ++ (← w.literalWithin fuel (.exception r :: opened) (.tuple e.args))
  | fuel + 1, opened, .node r => do
    if isEndless opened (.node r) then throw .tooDeep
    literalNode (w.nodes.get r) fun field =>
      w.literalWithin fuel (.node r :: opened) (w.fieldOf r field)
  | fuel + 1, opened, .config r =>
    if opened.contains (.config r) then .ok "..."
    else do
      let texts ← Config.settingNames.mapM fun name => do
        return name ++ "=" ++
          (← w.literalWithin fuel (.config r :: opened) ((w.configs.get r).attributes.value name))
      return "WalkerConfig(" ++ separated texts ++ ")"
  | fuel + 1, opened, .method r => do
    if isEndless opened (.method r) then throw .tooDeep
    let x := w.methods.get r
    let self ←
      if x.message.isOfClass then .ok (w.literalClass x.self)
      else w.literalWithin fuel (.method r :: opened) x.self
    return "<bound method " ++ w.fullName (.method r) ++ " of " ++ self ++ ">"
  | _, _, v => .ok (anonymous (w.typeName v))

/-- The literal text of a value. Of the values being written, those that end in three dots differ,
and so do those between two of them, so there are fewer than the square of the extent. -/
def literal (w : World ε) (v : Value) : Except Failure String :=
  w.literalWithin (w.extent * w.extent) [] v

/-- The plain text of a value, at most `fuel` exceptions deep. -/
def plainWithin (w : World ε) : Nat → Value → Except Failure String
  | _, .text s => .ok s
  | _, .event e => .ok e.methodName
  | _, .mode m => .ok ("ForeignTraversalMode." ++ m.name)
  | fuel, .exception r =>
    let e := w.exceptions.get r
    match w.row e.args, fuel with
    | [], _ => .ok ""
    | [v], fuel =>
      if e.cls = .keyError then w.literal v
      else
        match fuel with
        | fuel + 1 => w.plainWithin fuel v
        | 0 => .error .tooDeep
    | _, _ => w.literal (.tuple e.args)
  | _, .node r =>
    match (w.nodes.get r).cls with
    | .document .pyString =>
      match w.fieldOf r "text" with
      | .text s => .ok s
      | other => .error (.notText (w.typeName other))
    | _ => w.literal (.node r)
  | _, v => w.literal v

/-- The plain text of a value. A text block is its text, and has no plain text if that is none. -/
def plain (w : World ε) (v : Value) : Except Failure String := w.plainWithin w.extent v

/-- The plain text of a text is the text itself. -/
@[simp] theorem plain_text (w : World ε) (s : String) : w.plain (.text s) = .ok s := by
  simp [plain, plainWithin]

end World

end GuardedWalk
