import Inlay.Word
import Inlay.Fault
import Inlay.Value.Order
import Inlay.Text.Search

/-!
# Operators on values

Arithmetic is exact on integers, where a truth value counts as zero or one, and floating otherwise;
a result that no word of 64 bits holds is an overflow. Texts and lists are joined and repeated, up
to a bound on the length of the result, which for texts counts the bytes of UTF-8.

* `Value.binary`: a binary operator.
* `Value.negate`: unary minus.
* `Value.contains`: membership.
-/

namespace Inlay

namespace Value

/-- An exact integer as a value. -/
def exactly (n : Int) : Except Fault Value :=
  match word? n with
  | some w => .ok (int w)
  | none => .error .overflow

/-- A computation on words as a value. -/
def ofWord? : Option Int64 → Except Fault Value
  | some w => .ok (int w)
  | none => .error .overflow

/-- The two operands as floats, if both are numbers or truth values. -/
def floatOperands (op : Operator) (a b : Value) : Except Fault (Float × Float) :=
  match a.asFloat?, b.asFloat? with
  | some x, some y => .ok (x, y)
  | _, _ => .error (.unsupportedOperands op a.typeName b.typeName)

/-- An operator that is exact on integers. -/
def arithmetic (op : Operator) (onInts : Int → Int → Int) (onFloats : Float → Float → Float)
    (a b : Value) : Except Fault Value :=
  match a.asInt?, b.asInt? with
  | some m, some n => exactly (onInts m.toInt n.toInt)
  | _, _ => do
    let (x, y) ← floatOperands op a b
    return float (onFloats x y)

/-- An operator on floats whose right operand must not be zero. -/
def dividing (op : Operator) (onFloats : Float → Float → Float) (a b : Value) :
    Except Fault Value := do
  let (x, y) ← floatOperands op a b
  if y == 0.0 then throw .divisionByZero
  return float (onFloats x y)

/-- Refuses a sequence that would be longer than the limit. -/
def checkLength (limit length : Nat) : Except Fault Unit :=
  if length ≤ limit then .ok () else .error (.sequenceLimit limit)

/-- The number of copies that a count asks for. -/
def copies (n : Int64) : Nat :=
  n.toInt.toNat

/-- A text repeated. -/
def repeatText (limit : Nat) (s : String) (n : Int64) : Except Fault Value := do
  checkLength limit (s.utf8ByteSize * copies n)
  return str (if s.isEmpty then s else (copies n).repeat (fun t => t ++ s) "")

/-- A list repeated. -/
def repeatItems (limit : Nat) (items : List Value) (n : Int64) : Except Fault Value := do
  checkLength limit (items.length * copies n)
  return list (if items.isEmpty then items else (List.replicate (copies n) items).flatten)

/-- The sum of two numbers, or two texts or two lists joined. -/
def add (limit : Nat) : Value → Value → Except Fault Value
  | str a, str b => do
    checkLength limit (a.utf8ByteSize + b.utf8ByteSize)
    return str (a ++ b)
  | list a, list b => do
    checkLength limit (a.length + b.length)
    return list (a ++ b)
  | a, b => arithmetic .add (· + ·) (· + ·) a b

/-- The product of two numbers, or a text or list repeated. -/
def mul (limit : Nat) : Value → Value → Except Fault Value
  | str s, int n => repeatText limit s n
  | int n, str s => repeatText limit s n
  | list items, int n => repeatItems limit items n
  | int n, list items => repeatItems limit items n
  | a, b => arithmetic .mul (· * ·) (· * ·) a b

/-- The quotient rounded down: exact on two integers. -/
def floorDiv : Value → Value → Except Fault Value
  | int a, int b => if b = 0 then .error .divisionByZero else ofWord? (floorQuotient? a b)
  | a, b => dividing .floorDiv (fun x y => (x / y).floor) a b

/-- The remainder of the quotient rounded down: exact on two integers. -/
def mod : Value → Value → Except Fault Value
  | int a, int b => if b = 0 then .error .divisionByZero else ofWord? (floorRemainder? a b)
  | a, b => dividing .mod (fun x y => x - y * (x / y).floor) a b

/-- A comparison by the order of values. -/
def ordered (op : Operator) (test : Ordering → Bool) (a b : Value) : Except Fault Value :=
  match compare? a b with
  | some o => .ok (bool (test o))
  | none => .error (.unordered op.symbol a.typeName b.typeName)

/-- Is the item in the container? A text contains its parts, a map its keys. -/
def contains : Value → Value → Except Fault Bool
  | list items, item => .ok (items.any fun v => looseEq v item)
  | map entries, item => .ok (match item with
    | str key => Dict.contains key entries
    | _ => false)
  | str s, str part => .ok (Text.occurs part.toList s.toList)
  | str _, item => .error (.textSearchNeedsText item.typeName)
  | container, _ => .error (.notSearchable container.typeName)

/-- A binary operator applied, `limit` bounding the texts and lists that it builds. -/
def binary (limit : Nat) (op : Operator) (a b : Value) : Except Fault Value :=
  match op with
  | .add => add limit a b
  | .sub => arithmetic .sub (· - ·) (· - ·) a b
  | .mul => mul limit a b
  | .div => dividing .div (· / ·) a b
  | .floorDiv => floorDiv a b
  | .mod => mod a b
  | .eq => .ok (bool (looseEq a b))
  | .ne => .ok (bool (!looseEq a b))
  | .lt => ordered .lt (·.isLT) a b
  | .le => ordered .le (·.isLE) a b
  | .gt => ordered .gt (·.isGT) a b
  | .ge => ordered .ge (·.isGE) a b
  | .isIn => (contains b a).map bool
  | .notIn => (contains b a).map fun found => bool (!found)
  | .is => .ok (bool (same a b))
  | .isNot => .ok (bool (!same a b))

/-- Unary minus. -/
def negate : Value → Except Fault Value
  | int n => exactly (-n.toInt)
  | float x => .ok (float (-x))
  | bool b => exactly (-(ofTruth b).toInt)
  | v => .error (.notNegatable v.typeName)

end Value

end Inlay
