import Inlay.Word
import Inlay.Value.Basic
import Inlay.Decimal.Read

/-!
# JSON numbers

A number without point and exponent is an integer if a word holds it, except that a negative zero
is a float. Every other number is a float: the digits that 64 bits hold, as a whole number, scaled
by one or more powers of ten, each step rounded. A float out of range is refused.

* `readNumber?`: the number at the front of a text.
-/

namespace Inlay.Json

/-- The greatest whole number of 64 bits without sign. -/
def mostSignificand : Nat :=
  UInt64.size - 1

/-- Reads digits onto a significand as long as 64 bits hold it. -/
def takeDigits (significand : Nat) : List Char → Nat × List Char
  | [] => (significand, [])
  | c :: rest =>
    let next := 10 * significand + (c.toNat - '0'.toNat)
    if c.isDigit && next ≤ mostSignificand then takeDigits next rest else (significand, c :: rest)

/-- The float scaled by a power of ten, in steps that floats can express. After the first steps
down nothing is left of any significand. -/
def scale? : Nat → Float → Int → Option Float
  | 0, _, _ => some 0.0
  | steps + 1, x, e =>
    if -308 ≤ e ∧ e ≤ 308 then
      let power := Decimal.nearestFloat 1 e.natAbs
      let y := if e < 0 then x / power else x * power
      if y.isInf then none else some y
    else if x == 0.0 then some x
    else if 0 < e then none
    else scale? steps (x / Decimal.nearestFloat 1 308) (e + 308)

/-- The float of a significand and a power of ten. -/
def floatOf? (negative : Bool) (significand : Nat) (e : Int) : Option Value :=
  (scale? 8 significand.toFloat e).map fun x => .float (if negative then -x else x)

/-- Reads the exponent, if there is one, and makes the float. -/
def readExponent? (negative : Bool) (significand : Nat) (e : Int) :
    List Char → Option (Value × List Char)
  | [] => (floatOf? negative significand e).map (·, [])
  | c :: rest =>
    if c == 'e' || c == 'E' then
      let (down, ds) := Decimal.takeSign rest
      let (digits, tail) := ds.span Char.isDigit
      Decimal.digitsValue? digits >>= fun n =>
        (floatOf? negative significand (if down then e - n else e + n)).map (·, tail)
    else (floatOf? negative significand e).map (·, c :: rest)

/-- Reads the digits after the point, of which those that do not fit are dropped. -/
def readFraction? (negative : Bool) (significand : Nat) (e : Int) (s : List Char) :
    Option (Value × List Char) :=
  let (digits, tail) := s.span Char.isDigit
  if digits.isEmpty then none
  else
    let (m, dropped) := takeDigits significand digits
    readExponent? negative m (e - (digits.length - dropped.length : Nat)) tail

/-- The integer of a significand with its sign. -/
def integer (negative : Bool) (significand : Nat) : Value :=
  let n : Int := if negative then -(significand : Int) else significand
  match word? n with
  | some w => if negative && significand == 0 then .float (-0.0) else .int w
  | none => .float (if negative then -significand.toFloat else significand.toFloat)

/-- Reads a number behind its sign. -/
def readUnsigned? (negative : Bool) (s : List Char) : Option (Value × List Char) :=
  let (whole, tail) := s.span Char.isDigit
  if whole.isEmpty || (whole.head? == some '0' && whole.length != 1) then none
  else
    let (m, dropped) := takeDigits 0 whole
    match tail with
    | '.' :: rest => readFraction? negative m dropped.length rest
    | 'e' :: _ | 'E' :: _ => readExponent? negative m dropped.length tail
    | _ =>
      if dropped.isEmpty then some (integer negative m, tail)
      else (floatOf? negative m dropped.length).map (·, tail)

/-- Reads a number. -/
def readNumber? : List Char → Option (Value × List Char)
  | '-' :: rest => readUnsigned? true rest
  | s => readUnsigned? false s

end Inlay.Json
