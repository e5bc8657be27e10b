import Inlay.Decimal.Read
import Inlay.Value.Access
import Inlay.Value.Arithmetic
import Inlay.Value.Range

/-!
# Calling functions

What the built-in functions do, and the call of a function value. What the functions of a host do is
not known here, so it is a parameter: a result or a fault for the number of the function and the
arguments.

* `wholeNumbers`: the whole numbers from a start to a stop by a step.
* `extreme`: the first of the least or greatest values.
* `Builtin.call`: a built-in function called.
* `Host`: the functions of a host; `Routine.call`: a function value called.
-/

namespace Inlay

open Value

/-- Refuses a number of arguments outside the bounds. -/
def checkArity (b : Builtin) (least most : Nat) (args : List Value) : Except Fault Unit :=
  if least ≤ args.length ∧ args.length ≤ most then .ok ()
  else .error (.argumentCount b.name least most args.length)

/-- The value as a whole number of a template. -/
def toInt : Value → Except Fault Value
  | .int n => .ok (int n)
  | .bool b => .ok (int (ofTruth b))
  | .float x => if x.isFinite then .ok (int x.toInt64) else .error (.notNumeric "int" "float")
  | .str s => match Decimal.readInt? (Text.trim s.toList) with
    | some n => .ok (int n)
    | none => .error (.badInteger s)
  | v => .error (.notNumeric "int" v.typeName)

/-- The value as a float of a template. -/
def toFloat : Value → Except Fault Value
  | .str s => match Decimal.readFloat? (Text.trim s.toList) with
    | some x => .ok (float x)
    | none => .error (.badFloat s)
  | v => match v.asFloat? with
    | some x => .ok (float x)
    | none => .error (.notNumeric "float" v.typeName)

/-- How many items a text, list or map has. -/
def size : Value → Except Fault Value
  | .str s => exactly s.length
  | .list items => exactly items.length
  | .map entries => exactly entries.length
  | v => .error (.noLength v.typeName)

/-- The magnitude of a number. -/
def magnitude : Value → Except Fault Value
  | .int n => exactly n.toInt.natAbs
  | .float x => .ok (float x.abs)
  | .bool b => .ok (int (ofTruth b))
  | v => .error (.noMagnitude v.typeName)

/-- The whole numbers from a start by a step to a stop, which is not reached. -/
def wholeNumbers (limit : Nat) (args : List Value) : Except Fault Value := do
  checkArity .range 1 3 args
  let words ← args.mapM fun
    | .int n => .ok n
    | v => .error (.notWhole v.typeName)
  let (start, stop, step) := match words with
    | [stop] => (0, stop, 1)
    | [start, stop] => (start, stop, 1)
    | start :: stop :: step :: _ => (start, stop, step)
    | [] => (0, 0, 1)
  if step = 0 then throw Fault.zeroStep
  checkLength limit (Range.count start stop step)
  return list (Range.collect stop step [] start)

/-- The best value: a later one replaces it when it compares with it as the test says. -/
def best (b : Builtin) (better : Ordering → Bool) : Value → List Value → Except Fault Value
  | found, [] => .ok found
  | found, v :: rest =>
    match compare? v found with
    | some o => best b better (if better o then v else found) rest
    | none => .error (.unordered b.name v.typeName found.typeName)

/-- The best of the arguments, or of the items of the only argument. -/
def extreme (b : Builtin) (better : Ordering → Bool) (args : List Value) :
    Except Fault Value := do
  let candidates ← match args with
    | [] => throw (Fault.argumentMissing b.name)
    | [only] => only.items
    | many => pure many
  match candidates with
  | [] => throw (.emptySequence b.name)
  | v :: rest => best b better v rest

/-- What a built-in function does, `limit` bounding the lists that it builds. -/
def Builtin.call (limit : Nat) (b : Builtin) (args : List Value) : Except Fault Value :=
  match b with
  | .str => do
    checkArity b 0 1 args
    return Value.str (args.head?.elim "" Value.text)
  | .int => do
    checkArity b 1 1 args
    toInt (args.headD Value.nothing)
  | .float => do
    checkArity b 1 1 args
    toFloat (args.headD Value.nothing)
  | .bool => do
    checkArity b 0 1 args
    return Value.bool (args.head?.elim false Value.truthy)
  | .len => do
    checkArity b 1 1 args
    size (args.headD Value.nothing)
  | .list => do
    checkArity b 0 1 args
    return Value.list (← args.head?.elim (.ok []) Value.items)
  | .min => extreme b (·.isLT) args
  | .max => extreme b (·.isGT) args
  | .abs => do
    checkArity b 1 1 args
    magnitude (args.headD Value.nothing)
  | .upper => do
    checkArity b 1 1 args
    return Value.str (String.ofList (Text.upper (args.headD Value.nothing).shown))
  | .lower => do
    checkArity b 1 1 args
    return Value.str (String.ofList (Text.lower (args.headD Value.nothing).shown))
  | .join => do
    checkArity b 1 2 args
    return joined ((args[1]?).elim "" Value.text) (← (args.headD Value.nothing).items)
  | .range => wholeNumbers limit args

/-- What the functions of a host do with their arguments, by their numbers. -/
abbrev Host : Type := Nat → List Value → Except Fault Value

/-- A host that hands in no functions of its own. -/
def Host.none : Host := fun _ _ => .ok .nothing

/-- A function called. -/
def Routine.call (r : Routine Value) (args : List Value) (host : Host := Host.none) :
    Except Fault Value :=
  match r with
  | .builtin b limit => b.call limit args
  | .ofText m receiver => m.call receiver args
  | .ofMap m receiver => m.call receiver args
  | .host _ number => host number args

end Inlay
