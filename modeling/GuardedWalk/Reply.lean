import GuardedWalk.Config
import GuardedWalk.Guard
import GuardedWalk.Ownership
import GuardedWalk.Parking
import GuardedWalk.Recording
import GuardedWalk.Reports
import GuardedWalk.World.Construct

/-!
# Replies

Some messages are answered by looking at the world and changing it, without calling anything else:
questions to recorders, policies and tables, the end of a session, a wake of parked callers, and
what lists and dictionaries are asked to do.

## Main definitions

* `GuardedWalk.Reply.contents` — the contents of a table.
* `GuardedWalk.Reply.ofList`, `ofDictionary` — the replies of lists and dictionaries.
* `GuardedWalk.Reply.reply` — the reply of an object to a message.

## Main results

* `GuardedWalk.Reply.ofList_append` — a list that is asked to append does so.
-/

set_option autoImplicit false

namespace GuardedWalk

namespace Reply

variable {ε : Type}

open Act

/-- The contents of a row, as a list. -/
def rowContents (row : Value) : Act ε Value := do
  let cells ← gather (← read row "cells")
  addList (← collect (read · "value") cells)

/-- The contents of a table: a list of the values in its cells for each row. -/
def contents (table : Value) : Act ε Value := do
  addList (← collect rowContents (← gather (← read table "rows")))

/-- A list of texts. -/
def addTexts (texts : List String) : Act ε Value := addList (texts.map .text)

/-- A table or a row made from plain values, in the class of another one. -/
def madeFrom (r : Ref .node) (args : List Value) : Act ε Value := do
  let values := args.headD .none
  match (← see (·.nodes.get r)).cls with
  | .document .tableRow => tableRow values (args.getD 1 .none)
  | .document cls => tableOf cls values
  | .foreign _ => return .none

/-- The reply of a list to a message. -/
def ofList (r : Ref .list) (m : Message) (args : List Value) : Act ε Value := do
  match m with
  | .append => change (·.push r (args.headD .none))
  | .insert => insertAt r (args.headD .none) (args.getD 1 .none)
  | .clear => change (·.emptied (.list r))
  | .pop => return ← popAt r (args.headD (.int (-1)))
  | _ => pure ()
  return .none

/-- The reply of a dictionary to a message. -/
def ofDictionary (r : Ref .dictionary) (m : Message) (args : List Value) : Act ε Value := do
  match m with
  | .clear => change (·.emptied (.dictionary r))
  | .pop =>
    match args with
    | [key, other] =>
      if ← see (·.dictionaries.get r |>.pairs.isEmpty) then return other
      let key ← look (·.asKey key)
      let found ← see (·.lookup r key)
      change (·.take r key)
      return found.getD other
    | args => return ← popKey r (args.headD .none)
  | _ => pure ()
  return .none

/-- The reply of an object to a message that calls nothing else. -/
def reply (obstruct : Obstruction ε) (self : Value) (m : Message) (args : List Value) :
    Act ε Value :=
  match m, self with
  | .uninstall, _ => do return .bool (← make (·.uninstall (args.headD .none)))
  | .isGuarded, _ => do return .bool (← see (·.isGuarded (args.headD .none)))
  | .wake, .policy p => do
    return .int (← Parking.wake obstruct p (args.headD .none) (args.getD 1 .none))
  | .cancel, .token k => do
    Ownership.cancel k
    return .none
  | .statistics, .policy p => Reports.summary p
  | .close, .session s => do
    change fun w => { w with sessions := w.sessions.modify s Session.close }
    return .none
  | .validate, .config c => do addTexts (← look fun w => w.problems (w.configs.get c))
  | .classic, .config _ => newConfig .classic
  | .strict, .config _ => newConfig .strict
  | .lenient, .config _ => newConfig .lenient
  | .names, .observer o => do addTexts (← look (Recording.names · o))
  | .beforeEvents, .observer o => do addList (← look (Recording.begunEvents · o))
  | .argsFor, .observer o => do addList (← look (Recording.argsOf · o (args.headD .none)))
  | .raw, .node r => contents (.node r)
  | .fromValues, .node r => madeFrom r args
  | m, .list r => ofList r m args
  | m, .dictionary r => ofDictionary r m args
  | _, _ => return .none

/-- A list that is asked to append does so. -/
theorem ofList_append (w : World ε) (r : Ref .list) (x : Value) :
    (ofList r .append [x]).run w = (.ok .none, w.push r x) := rfl

end Reply

end GuardedWalk
