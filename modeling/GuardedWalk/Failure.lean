import GuardedWalk.Attributes
import GuardedWalk.Text.Clipped
import GuardedWalk.Text.Quoted

/-!
# Failures

Whatever a walk runs may fail. A failure is either an exception object that foreign code raised,
which is passed on unchanged, or one of the causes that the library itself reports.

## Main definitions

* `GuardedWalk.ExceptionClass` — the classes of exception objects.
* `GuardedWalk.ExceptionObject` — an exception object.
* `GuardedWalk.Attempt` — an attempt at foreign traversal.
* `GuardedWalk.Failure` — the causes of a failure.
* `GuardedWalk.Failure.cls`, `message` — the class and the text that a cause is reported with.
-/

set_option autoImplicit false

namespace GuardedWalk

/-- The classes of exceptions. -/
inductive ExceptionClass where
  | exception | valueError | keyError | runtimeError | typeError | assertionError
  | zeroDivisionError | indexError | attributeError | overflowError | recursionError | stopIteration
  | keyboardInterrupt | systemExit | generatorExit
  | walkerError | configurationError | eventTableError | foreignTraversalError | ownershipError
  | cancelledError | writingError | unbound
deriving DecidableEq, Repr, Inhabited

namespace ExceptionClass

/-- The name of a class. -/
def name : ExceptionClass → String
  | exception => "Exception"
  | valueError => "ValueError"
  | keyError => "KeyError"
  | runtimeError => "RuntimeError"
  | typeError => "TypeError"
  | assertionError => "AssertionError"
  | zeroDivisionError => "ZeroDivisionError"
  | indexError => "IndexError"
  | attributeError => "AttributeError"
  | overflowError => "OverflowError"
  | recursionError => "RecursionError"
  | stopIteration => "StopIteration"
  | keyboardInterrupt => "KeyboardInterrupt"
  | systemExit => "SystemExit"
  | generatorExit => "GeneratorExit"
  | walkerError => "FeatureWalkerError"
  | configurationError => "ConfigurationError"
  | eventTableError => "EventTableError"
  | foreignTraversalError => "ForeignTraversalError"
  | ownershipError => "TraversalOwnershipError"
  | cancelledError => "TraversalCancelledError"
  | writingError => "PicklingError"
  | unbound => "Unbound"

/-- All classes. -/
def all : List ExceptionClass :=
  [exception, valueError, keyError, runtimeError, typeError, assertionError, zeroDivisionError,
   indexError, attributeError, overflowError, recursionError, stopIteration, keyboardInterrupt,
   systemExit, generatorExit, walkerError, configurationError, eventTableError,
   foreignTraversalError, ownershipError, cancelledError]

/-- The class of a given name. -/
def ofName? (name : String) : Option ExceptionClass := all.find? fun c => c.name == name

/-- The classes that a class of the walker's own errors descends from, nearest first. Other
classes have no such list. -/
def ancestors? : ExceptionClass → Option (List ExceptionClass)
  | walkerError => some []
  | configurationError => some [walkerError, valueError]
  | eventTableError => some [walkerError]
  | foreignTraversalError => some [walkerError]
  | ownershipError => some [walkerError]
  | cancelledError => some [ownershipError, walkerError]
  | _ => none

end ExceptionClass

/-- The fields that exceptions of a class have besides their attributes, made from the arguments of
the exception, which `row` holds. -/
def ExceptionClass.slots (c : ExceptionClass) (args : List Value) (row : Value) : Attributes :=
  match c with
  | stopIteration => [("value", args.headD .none)]
  | systemExit =>
    match args with
    | [] => [("code", .none)]
    | [v] => [("code", v)]
    | _ => [("code", row)]
  | attributeError => [("name", .none), ("obj", .none)]
  | _ => []

/-- An exception object: its class, the arguments that its text is made of, the fields that its
class gives it and its attributes. -/
structure ExceptionObject where
  /-- The class of the exception. -/
  cls : ExceptionClass
  /-- The arguments that its text is made of. -/
  args : Ref .tuple
  /-- The fields that its class gives it. -/
  slots : Attributes
  /-- The attributes. -/
  attributes : Attributes

instance : Inhabited ExceptionObject := ⟨⟨.exception, ⟨0⟩, [], []⟩⟩

/-- Why an attempt at foreign traversal failed. -/
inductive Refusal where
  /-- The policy refuses all attempts. -/
  | rejected
  /-- No one resumed the parked thread in time. -/
  | timeout
  /-- The parked thread was cancelled. -/
  | cancelled
deriving DecidableEq, Repr

/-- The word for a reason. -/
def Refusal.word : Refusal → String
  | rejected => "rejected"
  | timeout => "timeout"
  | cancelled => "cancelled"

/-- An attempt to traverse a guarded node by something that may not. -/
structure Attempt where
  /-- The node whose `accept` was called. -/
  node : Value
  /-- What was handed to `accept`. -/
  visitor : Value
  /-- The class of the node. -/
  nodeType : String
  /-- The class of the visitor. -/
  visitorType : String
  /-- The name of the calling thread. -/
  thread : String
deriving DecidableEq, Repr

/-- Why something failed. -/
inductive Failure where
  /-- Foreign code raised an exception object. -/
  | raised (e : Ref .exception)
  /-- An attempt at foreign traversal was refused. -/
  | foreignTraversal (attempt : Attempt) (reason : Refusal)
  /-- A configuration is not consistent. -/
  | configuration (problems : List String)
  /-- A walker was walking on another thread for longer than the caller may wait; the owner is
  given by the literal text of its name. -/
  | busy (owner waiter limit : String)
  /-- The wait for a walker was cancelled. -/
  | waitCancelled (waiter : String)
  /-- No policy belongs to the mode shown. -/
  | unknownMode (shown : String)
  /-- No event has the method name shown. -/
  | unknownEvent (shown : String)
  /-- The text shown is no number. -/
  | notNumber (shown : String)
  /-- An object lacks an attribute. -/
  | missingAttribute (typeName field : String)
  /-- An attribute is worked out anew each time and cannot be assigned. -/
  | fixedAttribute (typeName field : String)
  /-- The name and the value of a member of an enumeration cannot be assigned. -/
  | fixedMember (field : String)
  /-- An object cannot have the attribute. -/
  | unassignable (typeName field : String)
  /-- An object cannot have the attribute, but its class has it. -/
  | readOnly (typeName field : String)
  /-- What a method is made of cannot be assigned. -/
  | readOnlyMember
  /-- What an object of plain data or a method says about itself cannot be assigned. -/
  | notWritable (typeName field : String)
  /-- The name of a function is a text. -/
  | notNameText (field : String)
  /-- Something that was called is not callable. -/
  | notCallable (typeName : String)
  /-- Something that was raised is no exception. -/
  | notRaisable
  /-- The plain text of a value is no text. -/
  | notText (typeName : String)
  /-- Values of two types have no order. -/
  | unordered (relation left right : String)
  /-- A value cannot be added to a time or taken away from it. -/
  | notTime (operator typeName : String)
  /-- Values of two types cannot be taken together by an operator. -/
  | notOperands (operator left right : String)
  /-- A value of a type can only be put together with others of that type. -/
  | notConcatenable (typeName : String)
  /-- A value that is to be written as a number is none. -/
  | notReal (typeName : String)
  /-- A wait would end after the last point of time that can be named. -/
  | waitTooLong
  /-- A whole number exceeds the range of floating-point numbers. -/
  | numberTooLarge
  /-- An element was taken from an empty list. -/
  | emptyList
  /-- An element was taken from outside a list. -/
  | outsideList
  /-- An index is outside a sequence of a kind. -/
  | badIndex (what : String)
  /-- An index of a sequence is no number; the type of the index is given as it is shown. -/
  | strangeIndex (what shown : String)
  /-- A place in a list is no whole number. -/
  | notIndex (typeName : String)
  /-- An index is larger than any sequence can be. -/
  | hugeIndex
  /-- A place in a list is larger than any list can be. -/
  | hugePlace
  /-- A dictionary lacks the key shown. -/
  | missingKey (shown : String)
  /-- A value cannot be a key. -/
  | unhashable (typeName : String)
  /-- A value has no elements. -/
  | notIterable (typeName : String)
  /-- A value whose elements are to be the arguments of a call has no elements. -/
  | notSpreadable (typeName : String)
  /-- It cannot be asked whether a value contains another one. -/
  | notContainer (typeName : String)
  /-- A method of a container expects another number of arguments. -/
  | expectsCount (method expected : String) (given : Nat)
  /-- A method of a container takes one fixed number of arguments, and another one is given. -/
  | takesCount (method expected : String) (given : Nat)
  /-- A value has no length. -/
  | noLength (typeName : String)
  /-- A value has no indexed elements. -/
  | notIndexable (typeName : String)
  /-- The elements of a value cannot be replaced. -/
  | notReplaceable (typeName : String)
  /-- A dictionary grew or shrank while its keys were gone through. -/
  | dictionaryChanged
  /-- Keys were taken out of a dictionary and others put in while its keys were gone through. -/
  | keysChanged
  /-- A value cannot be held for the duration of a block. -/
  | notManager (typeName : String)
  /-- What gets or gives back a token for a block has raised the signal that ends an iteration. -/
  | strayStop
  /-- The name of a class holds a character that ends texts elsewhere. -/
  | nullInName
  /-- A value cannot have attributes of its own. -/
  | noDictionary
  /-- What a block has ended with is no exception; the class of its class is given. -/
  | notThrowable (typeName : String)
  /-- Objects lie inside one another without end. -/
  | tooDeep
  /-- A value stands for something outside the program, such as a lock, and cannot be copied. -/
  | uncopyable (typeName : String)
  /-- What is shown cannot be written out: it is not found under its name in a place. -/
  | unfound (shown name place : String)
  /-- What is shown cannot be written out: something else is found under its name in a place. -/
  | misplaced (shown name place : String)
  /-- Something cannot be written out because it is defined inside of something else. -/
  | localObject (fullName : String)
  /-- A method takes more arguments than there are. -/
  | missingArguments (method : String) (missing : List String)
  /-- A method takes fewer arguments than there are. -/
  | spareArguments (method takes : String) (given : Nat)
  /-- A method is given an argument of a name that it does not take. -/
  | unexpectedArgument (method field : String)
  /-- Among texts to be joined there is something else. -/
  | notJoinable (place : Nat) (typeName : String)
  /-- A class leaves a method that its objects must have undefined. -/
  | undefinedMethod (typeName method : String)
  /-- A value that is to be written down is no plain data. -/
  | notData (typeName : String)
  /-- A key of a dictionary that is to be written down is no name. -/
  | notName (typeName : String)
  /-- A container that is to be written down lies inside itself. -/
  | insideItself
  /-- A name is bound to nothing. -/
  | unbound (name : String)
deriving DecidableEq, Repr

namespace Failure

/-- A list of problems as one text. -/
def joined (problems : List String) : String := "; ".intercalate problems

/-- The text of an error about an inconsistent configuration. -/
def configurationText (problems : List String) : String :=
  "Invalid walker configuration: " ++ joined problems

/-- The text of an error about foreign traversal, from the names of the types, the quoted name of
the thread and the reason. -/
def foreignText (nodeType visitorType quotedThread reason : String) : String :=
  "Foreign traversal of " ++ nodeType ++ " by " ++ visitorType ++ " on thread " ++ quotedThread ++
    " (" ++ reason ++ ")"

/-- The name of a type between apostrophes, in as many bytes as there is room for. -/
def typeText (room : Nat) (typeName : String) : String := "'" ++ Text.clipped room typeName ++ "'"

/-- Words as a list in a sentence. -/
def enumerated : List String → String
  | [] => ""
  | [a] => a
  | [a, b] => a ++ " and " ++ b
  | [a, b, c] => a ++ ", " ++ b ++ ", and " ++ c
  | a :: rest => a ++ ", " ++ enumerated rest

/-- The name of what makes the objects of a class. -/
def maker (typeName : String) : String := typeName ++ ".__init__"

/-- How many arguments are missing, and which. -/
def missingText (missing : List String) : String :=
  toString missing.length ++ " required positional argument" ++
    (if missing.length = 1 then "" else "s") ++ ": " ++
    enumerated (missing.map fun name => "'" ++ name ++ "'")

/-- Why a class cannot have a name, if it cannot. -/
def ofClassName? (typeName : String) : Option Failure :=
  if typeName.any (· = Char.ofNat 0) then some nullInName else none

/-- The class that a cause is reported as. What an exception object is reported as depends on the
object, so it is left out here. -/
def cls : Failure → ExceptionClass
  | raised _ => .exception
  | foreignTraversal .. => .foreignTraversalError
  | configuration _ => .configurationError
  | busy .. => .ownershipError
  | waitCancelled _ => .cancelledError
  | unknownMode _ | unknownEvent _ | notNumber _ | nullInName | insideItself => .valueError
  | missingAttribute .. | fixedAttribute .. | fixedMember _ | unassignable .. | readOnly ..
  | readOnlyMember | notWritable .. | localObject _ => .attributeError
  | notCallable _ | notRaisable | notText _ | unordered .. | notTime .. | notOperands ..
  | notConcatenable _ | notReal _ | notManager _ | notIndex _ | strangeIndex .. | unhashable _
  | notIterable _ | notSpreadable _ | notContainer _ | expectsCount .. | takesCount .. | noLength _
  | notIndexable _ | notReplaceable _ | uncopyable _ | missingArguments .. | spareArguments ..
  | unexpectedArgument .. | notJoinable .. | undefinedMethod .. | notData _ | notName _
  | noDictionary | notThrowable _ | notNameText _ =>
    .typeError
  | waitTooLong | numberTooLarge | hugePlace => .overflowError
  | emptyList | outsideList | badIndex _ | hugeIndex => .indexError
  | missingKey _ => .keyError
  | dictionaryChanged | keysChanged | strayStop => .runtimeError
  | tooDeep => .recursionError
  | unfound .. | misplaced .. => .writingError
  | unbound _ => .unbound

/-- The text of a cause; that of an exception object depends on the object and is empty here. -/
def message : Failure → String
  | raised _ => ""
  | foreignTraversal a reason =>
    foreignText a.nodeType a.visitorType (Text.quoted a.thread) reason.word
  | configuration problems => configurationText problems
  | busy owner waiter limit =>
    "Walker is busy on thread " ++ owner ++ "; thread " ++ Text.quoted waiter ++
      " gave up after " ++ limit ++ "s"
  | waitCancelled waiter => "Wait for walker cancelled on thread " ++ Text.quoted waiter
  | unknownMode shown =>
    "Unknown foreign traversal mode: " ++ shown ++ ". Choose from: " ++
      ", ".intercalate (TraversalMode.all.map TraversalMode.word)
  | unknownEvent shown => shown ++ " is not a valid Event"
  | notNumber shown => "could not convert string to float: " ++ shown
  | missingAttribute typeName field =>
    typeText 50 typeName ++ " object has no attribute '" ++ field ++ "'"
  | fixedAttribute typeName field =>
    "property '" ++ field ++ "' of '" ++ typeName ++ "' object has no setter"
  | fixedMember field => "<enum 'Enum'> cannot set attribute '" ++ field ++ "'"
  | unassignable typeName field =>
    typeText 100 typeName ++ " object has no attribute '" ++ field ++ "'"
  | readOnly typeName field =>
    typeText 50 typeName ++ " object attribute '" ++ field ++ "' is read-only"
  | readOnlyMember => "readonly attribute"
  | notWritable typeName field =>
    "attribute '" ++ field ++ "' of '" ++ typeName ++ "' objects is not writable"
  | notNameText field => field ++ " must be set to a string object"
  | notCallable typeName => typeText 200 typeName ++ " object is not callable"
  | notRaisable => "exceptions must derive from BaseException"
  | notText typeName => "__str__ returned non-string (type " ++ Text.clipped 200 typeName ++ ")"
  | unordered relation left right =>
    "'" ++ relation ++ "' not supported between instances of " ++ typeText 100 left ++ " and " ++
      typeText 100 right
  | notTime operator typeName =>
    "unsupported operand type(s) for " ++ operator ++ ": 'float' and " ++ typeText 100 typeName
  | notOperands operator left right =>
    "unsupported operand type(s) for " ++ operator ++ ": " ++ typeText 100 left ++ " and " ++
      typeText 100 right
  | notConcatenable typeName =>
    "can only concatenate " ++ typeName ++ " (not \"int\") to " ++ typeName
  | notReal typeName => "must be real number, not " ++ Text.clipped 50 typeName
  | waitTooLong => "timestamp too large to convert to C _PyTime_t"
  | numberTooLarge => "int too large to convert to float"
  | emptyList => "pop from empty list"
  | outsideList => "pop index out of range"
  | badIndex what => what ++ " index out of range"
  | strangeIndex what shown => what ++ " indices must be integers" ++ shown
  | notIndex typeName => typeText 200 typeName ++ " object cannot be interpreted as an integer"
  | hugeIndex => "cannot fit 'int' into an index-sized integer"
  | hugePlace => "Python int too large to convert to C ssize_t"
  | missingKey shown => shown
  | unhashable typeName => "unhashable type: " ++ typeText 200 typeName
  | notIterable typeName => typeText 200 typeName ++ " object is not iterable"
  | notSpreadable typeName =>
    "Value after * must be an iterable, not " ++ Text.clipped 200 typeName
  | notContainer typeName => "argument of type " ++ typeText 200 typeName ++ " is not iterable"
  | expectsCount method expected given =>
    method ++ " expected " ++ expected ++ ", got " ++ toString given
  | takesCount method expected given =>
    method ++ "() takes " ++ expected ++ " (" ++ toString given ++ " given)"
  | noLength typeName => "object of type " ++ typeText 200 typeName ++ " has no len()"
  | notIndexable typeName => typeText 200 typeName ++ " object is not subscriptable"
  | notReplaceable typeName =>
    typeText 200 typeName ++ " object does not support item assignment"
  | dictionaryChanged => "dictionary changed size during iteration"
  | keysChanged => "dictionary keys changed during iteration"
  | notManager typeName =>
    typeText 200 typeName ++ " object does not support the context manager protocol"
  | strayStop => "generator raised StopIteration"
  | nullInName => "type name must not contain null characters"
  | noDictionary => "vars() argument must have __dict__ attribute"
  | notThrowable typeName =>
    "exceptions must be classes or instances deriving from BaseException, not " ++ typeName
  | tooDeep => "maximum recursion depth exceeded"
  | uncopyable typeName => "cannot pickle '" ++ typeName ++ "' object"
  | unfound shown name place =>
    "Can't pickle " ++ shown ++ ": attribute lookup " ++ name ++ " on " ++ place ++ " failed"
  | misplaced shown name place =>
    "Can't pickle " ++ shown ++ ": it's not the same object as " ++ place ++ "." ++ name
  | localObject fullName => "Can't pickle local object " ++ Text.quoted fullName
  | missingArguments method missing => method ++ "() missing " ++ missingText missing
  | spareArguments method takes given =>
    method ++ "() takes " ++ takes ++ " positional argument" ++ (if takes = "1" then "" else "s") ++
      " but " ++ toString given ++ (if given = 1 then " was" else " were") ++ " given"
  | unexpectedArgument method field =>
    method ++ "() got an unexpected keyword argument '" ++ field ++ "'"
  | notJoinable place typeName =>
    "sequence item " ++ toString place ++ ": expected str instance, " ++ Text.clipped 80 typeName ++
      " found"
  | undefinedMethod typeName method =>
    "Can't instantiate abstract class " ++ typeName ++ " with abstract method " ++ method
  | notData typeName => "Object of type " ++ typeName ++ " is not JSON serializable"
  | notName typeName => "keys must be str, int, float, bool or None, not " ++ typeName
  | insideItself => "Circular reference detected"
  | unbound name => name

end Failure

/-- How a call ends: with a value or with a failure. -/
abbrev Outcome := Except Failure Value

end GuardedWalk
