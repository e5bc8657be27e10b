import Inlay.Text.Hex

/-!
# Texts in TOML

The four ways to write a text: between double quotes, with escapes, or between single quotes, as it
stands; each on one line, or over several lines between quotes written three times. A line end at
the front of a text over several lines is dropped, and every line end is a line feed.

* `skipBlanks`, `skipLineEnd?`: what may stand between the parts of a text.
* `readText?`: a text on one line. `readLongText?`: a text over several lines.
-/

namespace Inlay.Toml

/-- The blanks within a line. -/
def isBlank (c : Char) : Bool :=
  c == ' ' || c == '\t'

/-- The text without the blanks at its front. -/
def skipBlanks (s : List Char) : List Char :=
  s.dropWhile isBlank

/-- The text behind a line end. -/
def skipLineEnd? : List Char → Option (List Char)
  | '\n' :: rest => some rest
  | '\r' :: '\n' :: rest => some rest
  | _ => none

/-- The characters that texts and comments hold: all but the control characters, a tab apart. -/
def isTextChar (c : Char) : Bool :=
  c == '\t' || (0x20 ≤ c.toNat && c != '\x7f')

/-- The character with a number. -/
def charOf? (n : Nat) : Option Char :=
  if n.isValidChar then some (Char.ofNat n) else none

/-- An escape, behind its backslash. -/
def readEscape? : List Char → Option (Char × List Char)
  | 'b' :: rest => some ('\x08', rest)
  | 't' :: rest => some ('\t', rest)
  | 'n' :: rest => some ('\n', rest)
  | 'f' :: rest => some ('\x0c', rest)
  | 'r' :: rest => some ('\r', rest)
  | '"' :: rest => some ('"', rest)
  | '\\' :: rest => some ('\\', rest)
  | 'u' :: rest => readNumbered? 4 rest
  | 'U' :: rest => readNumbered? 8 rest
  | _ => none
where
  /-- The character whose number is written with so many hexadecimal digits. -/
  readNumbered? (count : Nat) (s : List Char) : Option (Char × List Char) := do
    let digits := s.take count
    if digits.length ≠ count then none
    return (← Text.hexNumber? digits >>= charOf?, s.drop count)

/-- How a text is written: between which quotes, and with escapes or without. -/
structure Style where
  quote : Char
  escapes : Bool
  deriving DecidableEq, Repr

/-- Between double quotes, with escapes. -/
def Style.basic : Style :=
  ⟨'"', true⟩

/-- Between single quotes, without escapes. -/
def Style.literal : Style :=
  ⟨'\'', false⟩

/-- A text on one line, behind its opening quote. The number bounds how many characters are
read. -/
def readText? (style : Style) : Nat → List Char → Option (List Char × List Char)
  | 0, _ => none
  | _ + 1, [] => none
  | fuel + 1, c :: rest =>
    if c == style.quote then some ([], rest)
    else if style.escapes && c == '\\' then do
      let (c, rest) ← readEscape? rest
      let (s, rest) ← readText? style fuel rest
      return (c :: s, rest)
    else if isTextChar c then (readText? style fuel rest).map fun (s, rest) => (c :: s, rest)
    else none

/-- The text behind a backslash that ends a line, and behind the blanks and line ends that
follow. -/
def skipContinuation? (s : List Char) : Option (List Char) :=
  (skipLineEnd? (skipBlanks s)).map skipAll
where
  /-- The text without the blanks and the line ends at its front. -/
  skipAll : List Char → List Char
    | '\r' :: '\n' :: rest => skipAll rest
    | c :: rest => if isBlank c || c == '\n' then skipAll rest else c :: rest
    | [] => []

/-- A text over several lines, behind its opening quotes and the line end that may follow them. Up
to two quotes may stand in front of the closing three. -/
def readLongFrom? (style : Style) : Nat → List Char → Option (List Char × List Char)
  | 0, _ => none
  | _ + 1, [] => none
  | fuel + 1, c :: rest =>
    let continue_ (c : Char) (rest : List Char) :=
      (readLongFrom? style fuel rest).map fun (s, rest) => (c :: s, rest)
    let quotes := ((c :: rest).takeWhile (· == style.quote)).length
    if 3 ≤ quotes then
      let inner := min (quotes - 3) 2
      some (List.replicate inner style.quote, (c :: rest).drop (inner + 3))
    else if style.escapes && c == '\\' then
      match skipContinuation? rest with
      | some rest => readLongFrom? style fuel rest
      | none => do
        let (c, rest) ← readEscape? rest
        continue_ c rest
    else if isTextChar c then continue_ c rest
    else match skipLineEnd? (c :: rest) with
      | some rest => continue_ '\n' rest
      | none => none

/-- A text over several lines, behind its opening quotes. -/
def readLongText? (style : Style) (s : List Char) : Option (List Char × List Char) :=
  let s := (skipLineEnd? s).getD s
  readLongFrom? style (s.length + 1) s

end Inlay.Toml
