import GuardedWalk.World.Act

/-!
# Reports of foreign traversal

A policy that records attempts keeps a report of each of them, in order, and sums them up by the
class of the node and by the class of the visitor. The reports can be changed by anyone, so what is
counted can be any value that can be a key; values that count as the same are counted together,
under the first of them.

## Main definitions

* `GuardedWalk.Reports.report` — the report of an attempt.
* `GuardedWalk.Reports.count` — how often each value of a field occurs among reports.
* `GuardedWalk.Reports.summary` — the summary of the reports of a policy.

## Main results

* `GuardedWalk.Reports.pairs_countOne` — a count goes up by one and no other count changes.
-/

set_option autoImplicit false

namespace GuardedWalk

/-- An attempt to traverse a guarded node by something that may not. -/
def World.attempt {ε : Type} (w : World ε) (t : Thread) (node visitor : Value) : Attempt :=
  ⟨node, visitor, w.className node, w.className visitor, t.name⟩

namespace Reports

variable {ε : Type}

open Act

/-- The entry of a report that holds the name of the class of the node. -/
def nodeTypeKey : Value := .text "node_type"

/-- The entry of a report that holds the name of the class of the visitor. -/
def visitorTypeKey : Value := .text "visitor_type"

/-- A dictionary with texts as keys. -/
def named (pairs : List (String × Value)) : Dictionary :=
  .ofPairs (fun u v => u.same v) (pairs.map fun p => (.text p.1, p.2))

/-- The report of an attempt, as a dictionary. -/
def report (a : Attempt) : Dictionary :=
  named [("node", a.node), ("node_type", .text a.nodeType),
    ("visitor_type", .text a.visitorType), ("thread", .text a.thread)]

/-- Counts one more occurrence of a value. -/
def countOne (same : Value → Value → Bool) (counts : Dictionary) (v : Value) : Dictionary :=
  match counts.find? same v with
  | some (.int n) => counts.put same v (.int (n + 1))
  | _ => counts.put same v (.int 1)

/-- Counts what a report says in two of its entries: what is counted must be able to be a key. -/
def countReport (counts : Dictionary × Dictionary) (report : Value) :
    Act ε (Dictionary × Dictionary) := do
  let nodeType ← look fun w => do w.asKey (← w.item report nodeTypeKey)
  let byNode ← see fun w => countOne w.same counts.1 nodeType
  let visitorType ← look fun w => do w.asKey (← w.item report visitorTypeKey)
  return (byNode, ← see fun w => countOne w.same counts.2 visitorType)

/-- Counts what reports say in two of their entries. -/
def count (reports : List Value) : Act ε (Dictionary × Dictionary) :=
  reports.foldlM countReport (.empty, .empty)

/-- A summary of the reports of a policy, as a dictionary. -/
def summary (p : Ref .policy) : Act ε Value := do
  checkLock (← own (.policy p) Policy.lockField)
  let reports ← gather (← own (.policy p) Policy.reportsField)
  let whole ← addList reports
  let (byNode, byVisitor) ← count reports
  let byNode ← addDictionary byNode
  let byVisitor ← addDictionary byVisitor
  addDictionary (named [("total_attempts", .int reports.length), ("by_node_type", byNode),
    ("by_visitor_type", byVisitor), ("reports", whole)])

/-- A count goes up by one, or begins, and no other count changes. -/
theorem pairs_countOne (same : Value → Value → Bool) (counts : Dictionary) (v : Value) :
    (countOne same counts v).pairs =
      match counts.find? same v with
      | some (.int n) => counts.pairs.map (Dictionary.revalued same v (.int (n + 1)))
      | some _ => counts.pairs.map (Dictionary.revalued same v (.int 1))
      | none => counts.pairs ++ [(v, .int 1)] := by
  unfold countOne
  split
  · rename_i n h
    simp [Dictionary.pairs_put, Dictionary.has, h]
  · rename_i h
    rw [Dictionary.pairs_put, Dictionary.has]
    cases hf : counts.find? same v with
    | none => simp
    | some x =>
      cases x <;> simp_all

end Reports

end GuardedWalk
