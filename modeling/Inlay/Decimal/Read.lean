import Inlay.Word

/-!
# Reading numbers

Decimal texts of integers and of floating-point numbers. A float is rounded to the nearest
binary64 number, ties to even.

* `digitsValue?`: the value of a text of digits.
* `readInt?`: an optionally signed integer of 64 bits.
* `readFloat?`: an optionally signed decimal with optional point and exponent, or one of the words
  for infinity and for no number.
-/

namespace Inlay.Decimal

/-- The number that has these decimal digits. -/
def digitsValue (ds : List Char) : Nat :=
  ds.foldl (fun n d => 10 * n + (d.toNat - '0'.toNat)) 0

/-- The value of a nonempty text of digits only. -/
def digitsValue? (ds : List Char) : Option Nat :=
  if !ds.isEmpty && ds.all Char.isDigit then some (digitsValue ds) else none

/-- The sign in front of a text, and the rest. -/
def takeSign : List Char → Bool × List Char
  | '-' :: rest => (true, rest)
  | '+' :: rest => (false, rest)
  | s => (false, s)

/-- An optionally signed integer of 64 bits. -/
def readInt? (s : List Char) : Option Int64 :=
  let (negative, rest) := takeSign s
  digitsValue? rest >>= fun n => word? (if negative then -(n : Int) else n)

/-- The float nearest to `coefficient * 10 ^ exponent`. The bounds on the power of ten decide the
numbers beyond every float without computing them. -/
def nearestFloat (coefficient : Nat) (exponent : Int) : Float :=
  let magnitude := exponent + (Nat.toDigits 10 coefficient).length
  if coefficient = 0 ∨ magnitude < -400 then 0.0
  else if 400 < magnitude then 1.0 / 0.0
  else Float.ofScientific coefficient (exponent < 0) exponent.natAbs

/-- The exponent at the end of a decimal; without one it is zero. -/
def readExponent? : List Char → Option Int
  | [] => some 0
  | c :: rest =>
    if c == 'e' || c == 'E' then
      let (negative, ds) := takeSign rest
      (digitsValue? ds).map fun n => if negative then -(n : Int) else n
    else none

/-- An unsigned decimal: digits, a point among or beside them, an exponent. -/
def readUnsigned? (s : List Char) : Option Float :=
  let whole := s.takeWhile Char.isDigit
  let (fraction, tail) := match s.dropWhile Char.isDigit with
    | '.' :: rest => (rest.takeWhile Char.isDigit, rest.dropWhile Char.isDigit)
    | rest => ([], rest)
  if whole.isEmpty && fraction.isEmpty then none
  else (readExponent? tail).map fun e =>
    nearestFloat (digitsValue (whole ++ fraction)) (e - fraction.length)

/-- An optionally signed float, or one of its words in any case of letters. -/
def readFloat? (s : List Char) : Option Float :=
  let (negative, rest) := takeSign s
  let word := String.ofList (rest.map Char.toLower)
  let magnitude :=
    if word == "inf" || word == "infinity" then some (1.0 / 0.0)
    else if word == "nan" then some (0.0 / 0.0)
    else readUnsigned? rest
  magnitude.map fun x => if negative then -x else x

end Inlay.Decimal
