/-!
# Positions in a text

A position behind some of the characters of a text as a line and a column, both counted from one.
A line ends behind a line feed, a carriage return, a vertical tab, a form feed, or one of the
characters U+0085, U+2028 and U+2029; a carriage return and a line feed together are one line end.
What stands behind the last line end of a text is a line only if it is not empty.

* `charsBefore?`: a byte offset as a number of characters.
* `position`: a number of characters as a line and a column.
-/

namespace Inlay.Text

/-- How many characters stand before a byte offset, if it is a boundary between characters. -/
def charsBefore? : Nat → List Char → Option Nat
  | 0, _ => some 0
  | _ + 1, [] => none
  | offset + 1, c :: rest =>
    if offset + 1 < c.utf8Size then none
    else (charsBefore? (offset + 1 - c.utf8Size) rest).map (· + 1)

/-- Does a line end behind the character, in front of this rest of the text? -/
def endsLine (c : Char) (rest : List Char) : Bool :=
  let n := c.toNat
  if c == '\r' then rest.head? != some '\n'
  else (10 ≤ n && n ≤ 12) || n == 0x85 || n == 0x2028 || n == 0x2029

/-- Moves on from a line and a column by a number of characters. -/
def positionFrom (line column : Nat) : Nat → List Char → Nat × Nat
  | 0, _ => (line, column)
  | _ + 1, [] => (line, column)
  | n + 1, c :: rest =>
    if endsLine c rest && !rest.isEmpty then positionFrom (line + 1) 1 n rest
    else positionFrom line (column + 1) n rest

/-- The line and the column behind a number of characters of a text. -/
def position (n : Nat) (s : List Char) : Nat × Nat :=
  positionFrom 1 1 n s

end Inlay.Text
