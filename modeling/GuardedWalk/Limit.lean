import GuardedWalk.Failure

/-!
# How long a wait may last

Time is counted in nanoseconds from an arbitrary start. A wait has a limit that is worked out from a
timeout when the wait begins. There are two kinds of waits, and they read a timeout differently: a
wait for a walker adds it to the present time, so the timeout must be a number; a parked call also
knows the timeout *none*, which never passes.

## Main definitions

* `GuardedWalk.Limit` — the limit of a wait.
* `GuardedWalk.Limit.ofOwnership` — the limit that a timeout sets to a wait for a walker.
* `GuardedWalk.Limit.ofParking` — the limit that a timeout sets to a parked call.
-/

set_option autoImplicit false

namespace GuardedWalk

/-- The limit of a wait. -/
inductive Limit where
  /-- The wait ends at a point of time. -/
  | at (time : Nat)
  /-- The wait is not limited. -/
  | never
  /-- The limit is later than any point of time that a wait can name. -/
  | excessive
deriving DecidableEq, Repr

namespace Limit

/-- Whether a limit has passed. -/
def hasPassed (now : Nat) : Limit → Bool
  | .at time => decide (time ≤ now)
  | _ => false

/-- The point of time at which a limit passes. -/
def time? : Limit → Option Nat
  | .at time => some time
  | _ => none

/-- The longest wait, in nanoseconds. -/
def longest : Nat := Nat.pow 2 63 - 1

/-- The limit of a wait of `num / den` seconds, rounded up to whole nanoseconds. -/
def ofSeconds (now num den : Nat) : Limit :=
  let ns := (num * 1000000000 + den - 1) / den
  if longest < ns then .excessive else .at (now + ns)

/-- The limit of a wait of a number of seconds; a wait that is not positive is over at once. -/
def ofNumber (now : Nat) : Value.Number → Limit
  | .whole i => if i ≤ 0 then .at now else ofSeconds now i.toNat 1
  | .float .nan => .never
  | .float (.infinite negative) => if negative then .at now else .excessive
  | .float (.finite negative m e) =>
    if negative || m == 0 then .at now
    else ofSeconds now (m * Nat.pow 2 e.toNat) (Nat.pow 2 (-e).toNat)

/-- The limit of a wait for a walker. The timeout is added to the present time, which takes a
number in the range of floating-point numbers; a sum that is not a number never passes. -/
def ofOwnership (now : Nat) (typeName : String) (timeout : Value) : Except Failure Limit :=
  match timeout.number? with
  | none => .error (.notTime "+" typeName)
  | some (.whole i) =>
    match Binary64.ofInt i with
    | .infinite _ => .error .numberTooLarge
    | _ => .ok (ofNumber now (.whole i))
  | some n => .ok (ofNumber now n)

/-- The limit of a parked call: none at all without a timeout, and over at once unless the timeout
is positive. -/
def ofParking (now : Nat) (typeName : String) (timeout : Value) : Except Failure Limit :=
  match timeout, timeout.number? with
  | .none, _ => .ok .never
  | _, none => .error (.unordered ">" typeName "int")
  | _, some n =>
    if n.isPositive then
      match ofNumber now n with
      | .excessive => .error .waitTooLong
      | limit => .ok limit
    else .ok (.at now)

end Limit

end GuardedWalk
