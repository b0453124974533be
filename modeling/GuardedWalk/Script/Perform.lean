import GuardedWalk.Collect
import GuardedWalk.Copying.Deep
import GuardedWalk.Copying.Written
import GuardedWalk.Script.Inspect
import GuardedWalk.Script.Threads

/-!
# Performing actions

Each action of a script is a routine that ends with an answer, made when the action has finished.
Actions that run while another one is in progress leave a trace in the record of their thread.

## Main definitions

* `GuardedWalk.Script.perform` — what an action does.
* `GuardedWalk.Script.nested`, `nestedAll` — actions that run inside another one.
* `GuardedWalk.Script.entries` — the steps of a thread.
-/

set_option autoImplicit false

namespace GuardedWalk.Script

open Routine

/-- The configuration that a preset stands for. -/
def ConfigPreset.make : ConfigPreset → Value → Config
  | .plain => .plain
  | .classic => .classic
  | .strict => .strict
  | .lenient => .lenient

/-- Adds a policy that runs code. -/
def addCustomPolicy (code : PolicyCode) : Act Stage Value := do
  let calls ← Act.addList []
  let place := (← get).foreign.policyCode.size
  modify (onStage fun x => { x with policyCode := x.policyCode.push code })
  Act.newPolicy (.custom place) [(Observer.callsField, calls)]

/-- Adds an observer of a class with rules. -/
def addObserver (cls : ObserverClass) (rules : List Rule) : Act Stage Value := do
  let place := (← get).foreign.rules.size
  modify (onStage fun x => { x with rules := x.rules.push (rules.map (⟨·, 0⟩)) })
  Act.newObserver cls place

/-- Adds a visitor with code. -/
def addVisitor (typeName : String) (methods : List Event) (code : MethodCode) :
    Act Stage Value := do
  checkName typeName
  let calls ← Act.addList []
  let place := (← get).foreign.methodCode.size
  modify (onStage fun x => { x with methodCode := x.methodCode.push code })
  Act.make fun w =>
    let x : Visitor := ⟨typeName, methods, place, [(Observer.callsField, calls)]⟩
    (.visitor w.visitors.next, { w with visitors := w.visitors.add x })

/-- Gives a visitor a guard of its own that asks a policy. -/
def addOwnGuard (v policy : Value) : Act Stage Unit := do
  let ownership ← Act.newToken (.float .zero)
  Act.setOwn v "guard" (← Act.newGuard (.new v ownership policy (.bool false)))

/-- Makes a visitor; it may show the guard of a walker or one of its own. -/
def makeVisitor (locals : Locals) (typeName : String) (methods : List Event) (code : MethodCode)
    (guardOf ownGuard : Option Path) : Line Value := do
  let v ← act (addVisitor typeName methods code)
  match guardOf with
  | none => pure ()
  | some path => act (Act.setOwn v "guard" (← Walk.readAttr (← target locals path) "guard"))
  match ownGuard with
  | none => pure ()
  | some path => act (addOwnGuard v (← target locals path))
  return v

/-- The arguments that tell of an event: the event of a name, and what comes with it. -/
def notice (locals : Locals) (method : Datum) (args : List Term) : Line (List Value) := do
  let e ← event method
  return e :: (← values locals args)

/-- What a walker is made of: its observers, its configuration and what executes steps. -/
def walkerParts (locals : Locals) (observers : List Path) (config : Option Path)
    (stepMother : Term) : Line (List Value × Value × Value) := do
  let observers ← targets locals observers
  let config ← targetOr locals config
  return (observers, config, ← value locals stepMother)

/-- The guard that a value is, or that it shows as its own. -/
def guardIn (v : Value) : Line Value := do
  match v with
  | .guard _ => return v
  | v => Walk.readAttr v "guard"

/-- Adds a session that belongs to no walk. -/
def addSession (thread table : Value) (s : Scene) : Value × Scene :=
  (.session s.sessions.next,
    { s with sessions := s.sessions.add (.opened (.int 0) thread table) })

/-- Closes a session some times. -/
def closeTimes (session : Value) : Nat → Line Unit
  | 0 => return
  | n + 1 => do
    let _ ← Walk.send session .close []
    closeTimes session n

/-- Opens a session that belongs to no walk and closes it some times. -/
def lonelySession (thread table : Value) (closes : Nat) : Line Answer := do
  let session ← update (addSession thread table)
  let opened ← saySession session
  closeTimes session closes
  return .list [opened, ← saySession session, .bool true]

/-- Begins a block that holds the token of a value. -/
def openBlock (v : Value) : Line Answer := do
  let manager ← Walk.send v .hold []
  let session ← Walk.beginBlock manager
  change (onStage fun x => { x with blocks := ⟨v, manager, session⟩ :: x.blocks })
  let opened ← saySession session
  return .list [opened, ← sayHeld v "depth"]

/-- Takes the latest block that holds the token of a value from those that are open. -/
def takeBlock (v : Value) : Line OpenBlock := do
  match (← read (·.foreign.blocks)).find? (·.isHeldBy v) with
  | none => throw .emptyList
  | some b =>
    change (onStage fun x => { x with blocks := x.blocks.eraseP (·.isHeldBy v) })
    return b

/-- Ends a block without an outcome of its own: what it held is given back, whatever comes of
that. -/
def abandon (b : OpenBlock) : Line Unit := do
  let _ ← (Walk.endBlock b.manager (.ok ())).outcome

/-- How a block ends that ends with a value: as it would if that were raised, or as usual if it is
none. What holds a token cannot be told that anything else was raised; it is given up then. -/
def blockOutcome (b : OpenBlock) (error : Value) : Line (Except Failure Unit) := do
  match error, b.manager with
  | .none, _ => return .ok ()
  | .exception r, _ => return .error (.raised r)
  | v, .holding _ =>
    abandon b
    throw (.notThrowable (← read (·.metaName v)))
  | _, _ => return .ok ()

/-- Ends a block in some way. What comes out of it is only reported if it is another failure. -/
def closeBlock (b : OpenBlock) (ending : Except Failure Unit) : Line Answer := do
  match ending, ← (Walk.endBlock b.manager ending).outcome with
  | .error f, .error g => if f = g then pure () else throw g
  | .ok (), .error g => throw g
  | _, .ok () => pure ()
  saySession b.session

/-- Ends the latest block that holds the token of a value, with what a term stands for. The block is
given up if the term fails. -/
def releaseBlock (locals : Locals) (v : Value) (error : Term) : Line Answer := do
  let b ← takeBlock v
  match ← (value locals error).outcome with
  | .error f =>
    abandon b
    throw f
  | .ok error => closeBlock b (← blockOutcome b error)

/-- The name and the steps of a scenario that is described in short. -/
def scenario (x : Datum × List (Datum × Datum)) : Line (Value × List (Value × Value)) := do
  let name ← datum x.1
  return (name, ← x.2.mapM fun p => do
    let keyword ← datum p.1
    return (keyword, ← datum p.2))

/-- What an action does. -/
def perform (locals : Locals) : Action → Line Answer
  | .bind name term => do
    bindTo name (← value locals term)
    return .none
  | .config name preset settings terms => do
    let given ← values locals terms
    if let some f := Config.settingProblem? settings then throw f
    let v ← act
      (Act.newConfig fun options => (preset.make options).changed (settings.zip given))
    bindTo name v
    match v with
    | .config r => say (answerValues (← read (·.configs.get r)).settings)
    | _ => return .none
  | .problems config => do sayReply (← target locals config) .validate (pure [])
  | .observer name cls rules => do
    bindTo name (← act (addObserver cls rules))
    return .text cls.kind.word
  | .rejectPolicy name => do bindAndSay name (← act (Act.newPolicy .reject []))
  | .parkPolicy name timeout => do
    let timeout ← value [] timeout
    bindAndSay name (← act (Act.newParkPolicy timeout))
  | .recordPolicy name verbose => do
    let verbose ← datum verbose
    bindAndSay name (← act (Act.newRecordPolicy verbose))
  | .customPolicy name steps returns => do
    bindAndSay name (← act (addCustomPolicy ⟨steps, returns⟩))
  | .createPolicy name config => do
    let config ← target locals config
    bindAndSay name (← act (Act.createPolicy config))
  | .walker name observers config stepMother => do
    let (observers, config, stepMother) ← walkerParts locals observers config stepMother
    let walker ← Walk.newWalker observers config stepMother
    bindTo name walker
    return .text (← examine (·.literal walker))
  | .walkDocument name document observers config stepMother => do
    let (observers, config, stepMother) ← walkerParts locals observers config stepMother
    let document ← value locals document
    let walker ← Walk.walkDocument document observers config stepMother
    bindTo name walker
    return .text (← examine (·.literal walker))
  | .collectEvents document config => do
    let config ← targetOr locals config
    let document ← value locals document
    let notes ← Walk.collectEvents document config
    say do return .list (← notes.mapM answerNote)
  | .buildDocument name featureName scenarios => do
    let featureName ← datum featureName
    let scenarios ← scenarios.mapM fun scenarios => scenarios.mapM scenario
    bindTo name (← act (Act.sampleDocument featureName scenarios))
    return .none
  | .visitor name typeName methods actions code guardOf ownGuard => do
    bindTo name
      (← makeVisitor locals typeName methods (actions.zip code) guardOf ownGuard)
    return .none
  | .guard name walker ownership policy quiet => do
    let walker ← value locals walker
    let ownership ← target locals ownership
    let policy ← target locals policy
    let quiet ← datum quiet
    bindTo name (← act (Act.newGuard (.new walker ownership policy quiet)))
    return .none
  | .adapter name observers guard => do
    let observers ← targets locals observers
    let guard ← target locals guard
    let v ← act (Act.newBroadcast observers guard)
    bindTo name v
    let all ← sayAttr v Broadcast.observersField
    return .list [all, ← sayAttr v Broadcast.notifiedField]
  | .adapterBefore adapter method args => do
    tell (← target locals adapter) .before (notice locals method args)
  | .adapterAfter adapter method => do
    tell (← target locals adapter) .after (notice locals method [])
  | .copy name term kind => do
    let v ← value locals term
    let copy ← act
      (match kind with
      | .shallow => Copying.shallow v
      | .deep => Copying.deep v
      | .written => Copying.written v)
    bindAndSay name copy
  | .visit visitor method args => do
    let args ← values locals args
    let v ← target locals visitor
    sayValue (← request v method (pure args))
  | .accept node visitor => do
    sayReply (← value locals node) .accept (values locals [visitor])
  | .raise term => do
    match ← value locals term with
    | .exception r => throw (.raised r)
    | _ => throw .notRaisable
  | .tellBefore observer method args => do
    tell (← target locals observer) .before (notice locals method args)
  | .tellAfter observer => do tell (← target locals observer) .after (pure [])
  | .tellEvent observer phase method args => do
    tell (← target locals observer) .onEvent do
      let phase ← datum phase
      return phase :: (← notice locals method args)
  | .install guard node => do
    let g ← guardIn (← target locals guard)
    sayReply g .install (values locals [node])
  | .uninstall node => do
    sayValue (← Walk.apply (.function .uninstall) [← value locals node])
  | .isGuarded nodes => do
    let nodes ← values locals nodes
    return .list ((← read fun s => nodes.map s.isGuarded).map .bool)
  | .state walker => do answerState (← target locals walker)
  | .ask question term => do ask question (← value locals term)
  | .assign path field term => do
    let v ← target locals path
    let x ← value locals term
    act (Act.assign obstruct v field x)
    return .none
  | .append list term => do
    tell (← target locals list) .append (values locals [term])
  | .insert list place term => do
    tell (← target locals list) .insert do
      let place ← datum place
      return [place, ← value locals term]
  | .pop list place => do
    sayReply (← target locals list) .pop do return [← datum place]
  | .put dictionary key term => do
    let x ← value locals term
    let v ← target locals dictionary
    act (Act.putItem v (← datum key) x)
    return .none
  | .recorded observer question => do answerRecorded (← target locals observer) question
  | .clear observer => do tell (← target locals observer) .clear (pure [])
  | .calls path => do sayAttr (← target locals path) Observer.callsField
  | .statistics policy => do answerStatistics (← target locals policy)
  | .logs => answerLogs
  | .spawn name steps untilDone => spawn locals name steps untilDone
  | .join name => join name
  | .wake policy who cancelled => do
    sayReply (← target locals policy) (if cancelled then .cancel else .resume) who.args
  | .parked policy => do
    let v ← target locals policy
    let count ← sayHeld v "parked_count"
    return .list [count, ← sayHeld v "parked_threads"]
  | .cancel walker => do tell (← target locals walker) .cancel (pure [])
  | .ownership name timeout => do
    let timeout ← value [] timeout
    bindTo name (← act (Act.newToken timeout))
    return .none
  | .hold ownership => do openBlock (← target locals ownership)
  | .release ownership error => do
    releaseBlock locals (← target locals ownership) error
  | .ownershipState ownership => do answerToken (← target locals ownership)
  | .session thread table closes => do
    lonelySession (← datum thread) (← value locals table) closes

/-- Notes that a nested action has finished. -/
def note (t : Thread) (word : String) (answer : Answer) : Line Unit :=
  change (onStage (·.modifyThread t fun r => { r with trace := (word, answer) :: r.trace }))

/-- An action that runs while another one is in progress. -/
def nested (t : Thread) (locals : Locals) : Step → Line Unit
  | .mk word caught action => do
    match ← outcome (perform locals action) with
    | .ok answer => note t word answer
    | .error f =>
      if caught then note t word (.record (← act (answerFailure f))) else throw f

/-- Actions that run while another one is in progress, one after the other. -/
def nestedAll (t : Thread) (locals : Locals) : List Step → Line Unit
  | [] => return
  | step :: rest => do
    nested t locals step
    nestedAll t locals rest

/-- The fields that answer how an action has ended. A failure need not have an answer. -/
def answerOutcome : Except Failure Answer → Answering (List (String × Answer))
  | .ok answer => return [("ok", answer)]
  | .error f => answerFailure f

/-- The actions that have finished, in order, as a field; nothing if there are none. -/
def answerTrace (latestFirst : List (String × Answer)) : List (String × Answer) :=
  if latestFirst.isEmpty then []
  else
    [("trace", .list (latestFirst.reverse.map fun p => .list [.text p.1, p.2]))]

/-- Adds the entry of a step to the record of a thread, with the trace of what ran meanwhile. -/
def addEntry (t : Thread) (fields : List (String × Answer)) : Line Unit :=
  change (onStage (·.modifyThread t fun r =>
    { r with entries := .record (fields ++ answerTrace r.trace) :: r.entries, trace := [] }))

/-- The steps of a thread: each has an entry, and a failure does not stop the thread unless there is
no answer to it. -/
def entries (t : Thread) (locals : Locals) : List Step → Line Unit
  | [] => return
  | .mk _ _ action :: rest => do
    let o ← outcome (perform locals action)
    addEntry t (← act (answerOutcome o))
    entries t locals rest

end GuardedWalk.Script
