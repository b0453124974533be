import GuardedWalk.World.Act

/-!
# Configurations and what is built from them

A configuration is checked when a walker is made. The check lists everything that is wrong; only a
timeout that has no order relative to numbers makes the check itself fail.

## Main definitions

* `GuardedWalk.Config.plain` and the ready-made configurations.
* `GuardedWalk.World.problems` — what is wrong with a configuration.
* `GuardedWalk.Act.createPolicy` — the policy that a configuration asks for.
* `GuardedWalk.Act.assembleWalker` — a walker for some observers.

## Main results

* `GuardedWalk.World.problemIf_eq_nil` — a problem is listed exactly if it is present.
-/

set_option autoImplicit false

namespace GuardedWalk

namespace Config

/-- The configuration whose settings are all left out; its options are an empty dictionary of its
own. -/
def plain (options : Value) : Config :=
  ⟨[("foreign_traversal", .mode .reject), ("custom_policy", .none), ("park_timeout", .none),
    ("ownership_timeout", .float .zero), ("quiet", .bool false), ("verbose", .bool true),
    ("options", options)]⟩

/-- Why a configuration cannot be made of some settings, if it cannot. -/
def settingProblem? (given : List String) : Option Failure :=
  (given.find? (!settingNames.contains ·)).map (.unexpectedArgument (Failure.maker "WalkerConfig"))

/-- A configuration with some settings changed. -/
def changed (c : Config) (settings : List (String × Value)) : Config :=
  ⟨settings.foldl (fun a p => a.set p.1 p.2) c.attributes⟩

/-- Foreign callers are parked without limit and no warning is logged. -/
def classic (options : Value) : Config :=
  (plain options).changed [("foreign_traversal", .mode .park), ("quiet", .bool true)]

/-- Foreign callers are refused. -/
def strict (options : Value) : Config := plain options

/-- Foreign calls are recorded in silence. -/
def lenient (options : Value) : Config :=
  (plain options).changed
    [("foreign_traversal", .mode .record), ("quiet", .bool true), ("verbose", .bool false)]

end Config

namespace World

variable {ε : Type}

/-- Whether a timeout is below zero; a value that is no number has no answer. -/
def isBelowZero (w : World ε) (timeout : Value) : Except Failure Bool :=
  match timeout.number? with
  | some n => .ok n.isNegative
  | none => .error (.unordered "<" (w.typeName timeout) "int")

/-- Whether a value is one of the modes. -/
def isMode : Value → Bool
  | .mode _ => true
  | _ => false

/-- Whether a value is a policy. -/
def isPolicy : Value → Bool
  | .policy _ => true
  | _ => false

/-- Whether a value is a dictionary. -/
def isDictionary : Value → Bool
  | .dictionary _ => true
  | _ => false

/-- A problem that is present under a condition. -/
def problemIf (present : Bool) (text : String) : List String := if present then [text] else []

/-- What is wrong with the mode of a configuration. -/
def modeProblems (w : World ε) (mode : Value) : Except Failure (List String) :=
  if isMode mode then .ok []
  else do return ["unknown foreign_traversal mode: " ++ (← w.literal mode)]

/-- What is wrong with a configuration, in the order of the settings. -/
def problems (w : World ε) (c : Config) : Except Failure (List String) := do
  let mode ← w.modeProblems c.foreignTraversal
  let parkBelow ← if c.parkTimeout = .none then .ok false else w.isBelowZero c.parkTimeout
  let waitBelow ← if c.ownershipTimeout = .none then .ok true else w.isBelowZero c.ownershipTimeout
  return mode ++
    problemIf parkBelow "park_timeout cannot be negative" ++
    problemIf waitBelow "ownership_timeout must be zero or positive" ++
    problemIf (c.foreignTraversal = .mode .custom && c.customPolicy = .none)
      "custom_policy required when foreign_traversal is CUSTOM" ++
    problemIf (c.customPolicy ≠ .none && !isPolicy c.customPolicy)
      "custom_policy must be a ForeignTraversalPolicy" ++
    problemIf (!isDictionary c.options) "options must be a dict"

/-- A problem is listed exactly if it is present. -/
theorem problemIf_eq_nil {present : Bool} {text : String} :
    problemIf present text = [] ↔ present = false := by
  cases present <;> simp [problemIf]

end World

namespace Act

variable {ε : Type}

/-- Adds a policy. -/
def newPolicy (body : PolicyBody) (attributes : Attributes) : Act ε Value := make fun w =>
  (.policy w.policies.next, { w with policies := w.policies.add ⟨body, attributes⟩ })

/-- Adds a policy that parks callers. -/
def newParkPolicy (timeout : Value) : Act ε Value := do
  let lock ← make (·.newLock)
  newPolicy .park (Policy.parking timeout lock (← addDictionary .empty))

/-- Adds a policy that reports attempts. -/
def newRecordPolicy (verbose : Value) : Act ε Value := do
  let reports ← addList []
  newPolicy .record (Policy.recording reports verbose (← make (·.newLock)))

/-- The policy that a configuration asks for; an unknown mode has none. -/
def createPolicy (config : Value) : Act ε Value := do
  match ← read config "foreign_traversal" with
  | .mode .custom => read config "custom_policy"
  | .mode .reject => newPolicy .reject []
  | .mode .park => do newParkPolicy (← read config "park_timeout")
  | .mode .record => do newRecordPolicy (← read config "verbose")
  | other => do throw (.unknownMode (← look (·.plain other)))

/-- Adds a configuration made from empty options. -/
def newConfig (from_ : Value → Config) : Act ε Value := do
  let options ← addDictionary .empty
  make fun w =>
    (.config w.configs.next, { w with configs := w.configs.add (from_ options) })

/-- Adds an idle token. -/
def newToken (timeout : Value) : Act ε Value := do
  let condition ← make (·.newCondition)
  make fun w =>
    (.token w.tokens.next, { w with tokens := w.tokens.add (.new timeout condition) })

/-- Adds a guard. -/
def newGuard (g : Guard) : Act ε Value := make fun w =>
  (.guard w.guards.next, { w with guards := w.guards.add g })

/-- Adds what notifies the observers among some values. -/
def newBroadcast (observers : List Value) (guard : Value) : Act ε Value := do
  let all ← addTuple observers
  let notified ← addTuple (← see (·.notified observers))
  make fun w =>
    let b := Broadcast.new all guard notified
    (.adapter w.broadcasts.next, { w with broadcasts := w.broadcasts.add b })

/-- Adds a walker with a configuration that has been found consistent. -/
def assembleWalker (observers : List Value) (config stepMother : Value) : Act ε Value := do
  let r ← make fun w =>
    (w.walkers.next, { w with walkers := w.walkers.add default })
  let ownership ← newToken (← read config "ownership_timeout")
  let policy ← createPolicy config
  let guard ← newGuard (.new (.walker r) ownership policy (← read config "quiet"))
  let broadcast ← newBroadcast observers guard
  change fun w =>
    { w with
      walkers := w.walkers.set r (.new config stepMother ownership policy guard broadcast) }
  return .walker r

end Act

end GuardedWalk
