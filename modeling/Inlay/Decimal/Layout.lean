import Inlay.Decimal.Shortest

/-!
# Writing a floating-point number

A number is written with its shortest digits. Where the digits go is the decision of the place
that shows the number, so it is a record: which powers of ten are written out in full, which whole
numbers keep a `.0`, and how an exponent and the values that are no numbers read.

* `Layout`: the decisions.
* `write`: the text of a float in a layout.
-/

namespace Inlay.Decimal

/-- How the shortest digits of a number are laid out. The *magnitude* of a number is the power of
ten of its first digit. -/
structure Layout where
  /-- Which of two shortest decimals is written. -/
  tie : Tie
  /-- The least and greatest magnitude written without an exponent; without bounds, every one. -/
  positional : Option (Int × Int)
  /-- Whole numbers below this magnitude end in `.0`; without a bound, every one does. -/
  pointBelow : Option Int
  /-- What stands before a positive exponent. -/
  plus : String
  nan : String
  infinity : String

/-- The digits of a whole number. -/
def digits (n : Nat) : List Char :=
  Nat.toDigits 10 n

/-- The text of an integer. -/
def writeInt (n : Int) : List Char :=
  if n < 0 then '-' :: digits n.natAbs else digits n.natAbs

/-- A positive decimal written out in full. -/
def Layout.writePositional (l : Layout) (ds : List Char) (magnitude : Int) : List Char :=
  if magnitude < 0 then
    '0' :: '.' :: (List.replicate (-magnitude - 1).toNat '0' ++ ds)
  else
    let whole := magnitude.toNat + 1
    if whole < ds.length then ds.take whole ++ '.' :: ds.drop whole
    else
      let dot := match l.pointBelow with
        | none => true
        | some bound => magnitude < bound
      ds ++ List.replicate (whole - ds.length) '0' ++ (if dot then ['.', '0'] else [])

/-- A positive decimal written with an exponent. -/
def Layout.writeExponent (l : Layout) (ds : List Char) (magnitude : Int) : List Char :=
  let lead := match ds with
    | d :: e :: rest => d :: '.' :: e :: rest
    | short => short
  lead ++ 'e' :: ((if magnitude < 0 then [] else l.plus.toList) ++ writeInt magnitude)

/-- The magnitude of a finite float. -/
def Layout.writeFinite (l : Layout) (x : Float) : List Char :=
  let s := shortest l.tie (Binary.ofFloat x)
  let ds := digits s.coefficient
  let magnitude := s.exponent + ds.length - 1
  match l.positional with
  | none => l.writePositional ds magnitude
  | some (least, most) =>
    if least ≤ magnitude && magnitude ≤ most then l.writePositional ds magnitude
    else l.writeExponent ds magnitude

/-- The text of a float. The sign of a zero is written. -/
def Layout.write (l : Layout) (x : Float) : List Char :=
  if x.isNaN then l.nan.toList
  else
    let sign := if 0x8000000000000000 ≤ x.toBits.toNat then ['-'] else []
    sign ++ (if x.isInf then l.infinity.toList else l.writeFinite x)

end Inlay.Decimal
