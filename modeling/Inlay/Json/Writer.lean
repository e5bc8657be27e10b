import Inlay.Value.Basic
import Inlay.Text.Quoted
import Inlay.Decimal.Layout

/-!
# Writing JSON

A value is first written as a JSON text without blanks, in which a function is written as its text
and a float that is no finite number as `null`. In a second pass over this text every character
beyond ASCII is written as the escapes of its UTF-16 code units.

* `Json.writeText`: a JSON string.
* `Json.serialize`: the JSON text of a value.
* `Json.toAscii`: the second pass, and `Json.write` both passes.
* `Json.plain`: the value that the JSON text of a value has.
-/

namespace Inlay.Json

/-- Floats keep a point or an exponent, and have an exponent outside 10^-5 to 10^15. -/
def floatLayout : Decimal.Layout where
  tie := .even
  positional := some (-5, 15)
  pointBelow := none
  plus := "+"
  nan := "null"
  infinity := "null"

/-- Four hexadecimal digits. -/
def hex4 (n : Nat) : List Char :=
  [n / 4096 % 16, n / 256 % 16, n / 16 % 16, n % 16].map Nat.digitChar

/-- The UTF-16 code units of a character. -/
def codeUnits (c : Char) : List Nat :=
  let n := c.toNat
  if n < 0x10000 then [n] else [0xd800 + (n - 0x10000) / 0x400, 0xdc00 + (n - 0x10000) % 0x400]

/-- The escape of a code unit. -/
def escapeUnit (n : Nat) : List Char :=
  '\\' :: 'u' :: hex4 n

/-- A character inside a JSON string: quotes, backslashes and control characters are escaped. -/
def writeChar (c : Char) : List Char :=
  if c == '"' then ['\\', '"']
  else if c == '\\' then ['\\', '\\']
  else if c == '\n' then ['\\', 'n']
  else if c == '\r' then ['\\', 'r']
  else if c == '\t' then ['\\', 't']
  else if c == '\x08' then ['\\', 'b']
  else if c == '\x0c' then ['\\', 'f']
  else if c.toNat < 0x20 then escapeUnit c.toNat
  else [c]

/-- A JSON string. -/
def writeText (s : List Char) : List Char :=
  '"' :: (s.flatMap writeChar ++ ['"'])

mutual

/-- The JSON text of a value. -/
def serialize : Value → List Char
  | .nothing => "null".toList
  | .bool b => (if b then "true" else "false").toList
  | .int n => Decimal.writeInt n.toInt
  | .float x => if x.isFinite then floatLayout.write x else "null".toList
  | .str s => writeText s.toList
  | .list items => '[' :: ([','].intercalate (serializeItems items) ++ [']'])
  | .map entries => '{' :: ([','].intercalate (serializeEntries entries) ++ ['}'])
  | .function _ routine => writeText routine.text.toList

/-- The JSON texts of the items of a list. -/
def serializeItems : List Value → List (List Char)
  | [] => []
  | v :: rest => serialize v :: serializeItems rest

/-- The JSON texts of the entries of a map. -/
def serializeEntries : List (String × Value) → List (List Char)
  | [] => []
  | (key, v) :: rest => (writeText key.toList ++ ':' :: serialize v) :: serializeEntries rest

end

/-- Is this a character of ASCII? -/
def isAscii (c : Char) : Bool :=
  c.toNat < 0x80

/-- A character beyond ASCII as the escapes of its code units. -/
def toAsciiChar (c : Char) : List Char :=
  if isAscii c then [c] else (codeUnits c).flatMap escapeUnit

/-- A JSON text with every character beyond ASCII written as escapes. -/
def toAscii (s : List Char) : List Char :=
  if s.all isAscii then s else s.flatMap toAsciiChar

/-- The JSON text of a value in ASCII. -/
def write (v : Value) : List Char :=
  toAscii (serialize v)

mutual

/-- The value with what JSON cannot express replaced by what stands for it. -/
def plain : Value → Value
  | .float x => if x.isFinite then .float x else .nothing
  | .list items => .list (plainItems items)
  | .map entries => .map (plainEntries entries)
  | .function _ routine => .str routine.text
  | v => v

/-- The items of a list in their plain forms. -/
def plainItems : List Value → List Value
  | [] => []
  | v :: rest => plain v :: plainItems rest

/-- The entries of a map in their plain forms. -/
def plainEntries : List (String × Value) → List (String × Value)
  | [] => []
  | (key, v) :: rest => (key, plain v) :: plainEntries rest

end

end Inlay.Json
