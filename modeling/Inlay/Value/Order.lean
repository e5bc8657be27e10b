import Inlay.Value.Basic

/-!
# Equality and order of values

Two equalities and one partial order. `Value.same` compares values of one type only, item by item;
`Value.looseEq` also compares integers with floats. `Value.compare?` orders numbers, truth values,
texts by code point and lists by their first difference; other pairs have no order.
-/

namespace Inlay

namespace Value

mutual

/-- Are the two the same value? Floats compare as numbers, functions by identity. -/
def same : Value → Value → Bool
  | nothing, nothing => true
  | bool a, bool b => a == b
  | int a, int b => a == b
  | float a, float b => a == b
  | str a, str b => a == b
  | list a, list b => sameItems a b
  | map a, map b => sameEntries a b
  | function a _, function b _ => a == b
  | _, _ => false

/-- Do two lists hold the same values? -/
def sameItems : List Value → List Value → Bool
  | [], [] => true
  | a :: as, b :: bs => same a b && sameItems as bs
  | _, _ => false

/-- Do two maps hold the same keys and values? -/
def sameEntries : List (String × Value) → List (String × Value) → Bool
  | [], [] => true
  | (ka, a) :: as, (kb, b) :: bs => ka == kb && same a b && sameEntries as bs
  | _, _ => false

end

mutual

/-- Are the two values equal, where an integer may equal a float? -/
def looseEq : Value → Value → Bool
  | int a, float b => floatOfWord a == b
  | float a, int b => a == floatOfWord b
  | list a, list b => looseEqItems a b
  | map a, map b => looseEqEntries a b
  | a, b => same a b

/-- Are two lists equal, item by item? -/
def looseEqItems : List Value → List Value → Bool
  | [], [] => true
  | a :: as, b :: bs => looseEq a b && looseEqItems as bs
  | _, _ => false

/-- Have two maps the same keys and equal values? -/
def looseEqEntries : List (String × Value) → List (String × Value) → Bool
  | [], [] => true
  | (ka, a) :: as, (kb, b) :: bs => ka == kb && looseEq a b && looseEqEntries as bs
  | _, _ => false

end

/-- The order of two floats; none if one of them is no number. -/
def compareFloats? (a b : Float) : Option Ordering :=
  if a < b then some .lt
  else if a == b then some .eq
  else if b < a then some .gt
  else none

mutual

/-- The order of two values, if they have one. -/
def compare? : Value → Value → Option Ordering
  | int a, int b => some (compare a.toInt b.toInt)
  | int a, float b => compareFloats? (floatOfWord a) b
  | float a, int b => compareFloats? a (floatOfWord b)
  | float a, float b => compareFloats? a b
  | bool a, bool b => some (compare a b)
  | str a, str b => some (compare a b)
  | list a, list b => compareItems? a b
  | _, _ => none

/-- The order of two lists: that of their first items that differ; of two lists one of which begins
the other, the shorter one comes first. -/
def compareItems? : List Value → List Value → Option Ordering
  | [], [] => some .eq
  | [], _ :: _ => some .lt
  | _ :: _, [] => some .gt
  | a :: as, b :: bs =>
    match compare? a b with
    | some .eq => compareItems? as bs
    | other => other

end

end Value

end Inlay
