import GuardedWalk.Parameters
import GuardedWalk.World.Act

/-!
# Guards on nodes

A guard replaces the `accept` of a node by a wrapper and tags the node as its own. The wrapper is
made once; a guard that comes later only changes the tag. Taking the guard off removes both. A node
in this sense is any object that shows something callable as its `accept`. The wrapper takes over
the attributes that the hidden `accept` has when it is made, and shows the hidden one under a name
of its own.

## Main definitions

* `GuardedWalk.World.install` — puts a guard on a node.
* `GuardedWalk.World.uninstall` — takes the guard off a node.
* `GuardedWalk.World.isGuarded` — whether a node has a guard.
* `GuardedWalk.World.shownGuard?` — the guard that a visitor shows as its own.

## Main results

* `GuardedWalk.World.install_of_missing` — what shows no `accept` is left alone.
-/

set_option autoImplicit false

namespace GuardedWalk

/-- The attribute under which a wrapper shows what it hides. -/
def Wrapper.innerField : String := "__wrapped__"

namespace World

variable {ε : Type}

/-- The class that a failure is reported as. -/
def failureClass (w : World ε) : Failure → ExceptionClass
  | .raised e => (w.exceptions.get e).cls
  | f => f.cls

/-- Whether a failure says that an attribute is missing or that a value has the wrong type. -/
def isAttributeOrType (w : World ε) (f : Failure) : Bool :=
  match w.failureClass f with
  | .attributeError | .typeError => true
  | _ => false

/-- The wrapper for a value around what is found as its `accept`. -/
def newWrapper (w : World ε) (v inner : Value) : Value × World ε :=
  let attributes := Attributes.set (w.callableAttributes inner) Wrapper.innerField inner
  (.wrapper w.wrappers.next, { w with wrappers := w.wrappers.add ⟨v, inner, attributes⟩ })

/-- Notes in the log that no guard can be put on a value. -/
def cannotGuard (w : World ε) (v : Value) : Except Failure Bool × World ε :=
  (.ok false, w.say .debug .guard ("Cannot guard " ++ w.className v))

/-- A guard could not be put on a value: a failure that says that attributes cannot be assigned is
noted in the log, any other one is passed on. -/
def installFailed (w : World ε) (v : Value) (f : Failure) : Except Failure Bool × World ε :=
  if w.isAttributeOrType f then w.cannotGuard v else (.error f, w)

/-- Tags a value as guarded. -/
def tag (obstruct : Obstruction ε) (w : World ε) (g : Ref .guard) (v : Value) :
    Except Failure Bool × World ε :=
  match setField obstruct w v Node.guardField (.guard g) with
  | (.ok (), w) => (.ok true, w)
  | (.error f, w) => w.installFailed v f

/-- Puts a guard on a value whose `accept` is `inner`. -/
def installOn (obstruct : Obstruction ε) (w : World ε) (g : Ref .guard) (v inner : Value) :
    Except Failure Bool × World ε :=
  match w.own? v with
  | none => w.cannotGuard v
  | some a =>
    if a.has Node.guardField then tag obstruct w g v
    else
      let (wrapper, w) := w.newWrapper v inner
      match setField obstruct w v Node.acceptField wrapper with
      | (.error f, w) => w.installFailed v f
      | (.ok (), w) => tag obstruct w g v

/-- Puts a guard on a value, if it shows something callable as its `accept`; says whether the guard
answers for the value now. -/
def install (obstruct : Obstruction ε) (w : World ε) (g : Ref .guard) (v : Value) :
    Except Failure Bool × World ε :=
  match w.member v Node.acceptField with
  | .error _ => (.ok false, w)
  | .ok m =>
    if m.isCallable then
      let (inner, w) := w.reveal v m
      installOn obstruct w g v inner
    else (.ok false, w)

/-- The guard that answers for a value. -/
def tag? (w : World ε) (v : Value) : Option Value := ((w.own? v).getD []).get? Node.guardField

/-- Whether a value has a guard. -/
def isGuarded (w : World ε) (v : Value) : Bool := (w.tag? v).isSome

/-- Takes the guard off a value; says whether there was one. -/
def uninstall (w : World ε) (v : Value) : Bool × World ε :=
  if w.isGuarded v then
    (true, w.modifyOwn v fun a => (a.erase Node.guardField).erase Node.acceptField)
  else (false, w)

/-- The guard that a visitor shows as its own, if it is the visitor's. -/
def shownGuard? (w : World ε) (visitor : Value) : Option (Ref .guard) :=
  match w.member visitor "guard" with
  | .ok (.value (.guard g)) => if (w.guards.get g).walker = visitor then some g else none
  | _ => none

/-- What shows nothing as its `accept` is left alone. -/
theorem install_of_missing {obstruct : Obstruction ε} {w : World ε} {g : Ref .guard} {v : Value}
    {f : Failure} (h : w.member v Node.acceptField = .error f) :
    install obstruct w g v = (.ok false, w) := by
  simp [install, h]

end World

end GuardedWalk
