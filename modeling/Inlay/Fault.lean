import Inlay.Text.Quoted
import Inlay.Value.Operator

/-!
# Faults

A fault is an error raised by the code of a template: an expression that has no value, or a
`raise` or `assert` statement. A fault has a kind, by which an `except` clause selects it, and a
text. Both are functions of the cause.

* `Fault`: the causes.
* `Fault.kind`, `Fault.text`, `Fault.message`: what templates and readers see of a cause.
-/

namespace Inlay

/-- Why template code failed. Types are given by the names that templates see. -/
inductive Fault where
  /-- Raised by a statement of the template or by a function of the host, under a kind of its own
  choice. -/
  | raised (kind text : String)
  | assertionFailed (text : String)
  | nothingToReraise
  | unboundName (name : String)
  | unsupportedOperands (op : Operator) (left right : String)
  /-- Two values without an order, met by an operator or by the search for an extreme. -/
  | unordered (sign : String) (left right : String)
  | textSearchNeedsText (type : String)
  | notSearchable (type : String)
  | notIterable (type : String)
  | notSubscriptable (container index : String)
  | notNegatable (type : String)
  | noMagnitude (type : String)
  | noLength (type : String)
  | notCallable (type : String)
  | notNumeric (function type : String)
  | notWhole (type : String)
  | argumentNotText (method : String) (position : Nat)
  | separatorNotText
  /-- A function called with the wrong number of arguments. -/
  | argumentCount (function : String) (least most given : Nat)
  | argumentMissing (function : String)
  | bodyTakesNothing (given : Nat)
  | oneBlockName (function : String)
  | keyNotText (type : String)
  | pathNotText (type : String)
  | variablesNotMap (type : String)
  | badInteger (text : String)
  | badFloat (text : String)
  | zeroStep
  | emptySequence (function : String)
  | tooFewValues (expected given : Nat)
  | tooManyValues (expected : Nat)
  | overflow
  | divisionByZero
  | sequenceLimit (limit : Nat)
  | listIndex
  | textIndex
  | missingKey (key : String)
  | noAttribute (type name : String)
  | noModule (name : String)
  | notInModule (name module : String)
  deriving DecidableEq, Repr

namespace Fault

/-- The kind by which `except` clauses select the fault. -/
def kind : Fault → String
  | raised kind _ => kind
  | assertionFailed _ => "AssertionError"
  | nothingToReraise => "RuntimeError"
  | unboundName _ => "NameError"
  | badInteger _ | badFloat _ | zeroStep | emptySequence _ | tooFewValues .. | tooManyValues _ =>
    "ValueError"
  | overflow => "OverflowError"
  | divisionByZero => "ZeroDivisionError"
  | sequenceLimit _ => "MemoryError"
  | listIndex | textIndex => "IndexError"
  | missingKey _ => "KeyError"
  | noAttribute .. => "AttributeError"
  | noModule _ => "ModuleNotFoundError"
  | notInModule .. => "ImportError"
  | _ => "TypeError"

/-- How many arguments a function takes. -/
def countText (least most : Nat) : String :=
  if least = most then s!"{least}" else s!"from {least} to {most}"

/-- The text of the fault. -/
def text : Fault → String
  | raised _ text => text
  | assertionFailed text => text
  | nothingToReraise => "No active exception to reraise"
  | unboundName name => s!"name '{name}' is not defined"
  | unsupportedOperands op left right =>
    s!"unsupported operand type(s) for {op.symbol}: '{left}' and '{right}'"
  | unordered sign left right =>
    s!"'{sign}' not supported between instances of '{left}' and '{right}'"
  | textSearchNeedsText type => s!"'in <string>' requires string as left operand, not {type}"
  | notSearchable type => s!"argument of type '{type}' is not iterable"
  | notIterable type => s!"'{type}' object is not iterable"
  | notSubscriptable container index =>
    s!"'{container}' object is not subscriptable by '{index}'"
  | notNegatable type => s!"bad operand type for unary -: '{type}'"
  | noMagnitude type => s!"bad operand type for abs(): '{type}'"
  | noLength type => s!"object of type '{type}' has no len()"
  | notCallable type => s!"'{type}' object is not callable"
  | notNumeric function type =>
    s!"{function}() argument must be a string or a number, not '{type}'"
  | notWhole type => s!"'{type}' object cannot be interpreted as an integer"
  | argumentNotText method position => s!"{method}() argument {position} must be a string"
  | separatorNotText => "split() separator must be a string"
  | argumentCount function least most given =>
    s!"{function}() takes {countText least most} arguments ({given} given)"
  | argumentMissing function => s!"{function}() expected at least 1 argument"
  | bodyTakesNothing given => s!"body() takes no arguments ({given} given)"
  | oneBlockName function => s!"{function}() takes exactly one block name"
  | keyNotText type => s!"map keys must be strings, not '{type}'"
  | pathNotText type => s!"template path must be a string, not '{type}'"
  | variablesNotMap type => s!"render variables must serialize to a map, not '{type}'"
  | badInteger text => s!"invalid literal for int() with base 10: {text.quoted}"
  | badFloat text => s!"could not convert string to float: {text.quoted}"
  | zeroStep => "range() arg 3 must not be zero"
  | emptySequence function => s!"{function}() arg is an empty sequence"
  | tooFewValues expected given =>
    s!"not enough values to unpack (expected {expected}, got {given})"
  | tooManyValues expected => s!"too many values to unpack (expected {expected})"
  | overflow => "integer overflow"
  | divisionByZero => "division by zero"
  | sequenceLimit limit => s!"result would exceed the sequence limit of {limit}"
  | listIndex => "list index out of range"
  | textIndex => "string index out of range"
  | missingKey key => key.quoted
  | noAttribute type name => s!"'{type}' object has no attribute '{name}'"
  | noModule name => s!"No module named '{name}'"
  | notInModule name module => s!"cannot import name '{name}' from '{module}'"

/-- The kind and the text in one line; a fault without a text is its kind alone. -/
def message (f : Fault) : String :=
  if f.text.isEmpty then f.kind else s!"{f.kind}: {f.text}"

end Fault

end Inlay
