import Inlay.Value.Basic
import Inlay.Text.Quoted
import Inlay.Decimal.Layout

/-!
# The text of a value

What an output statement writes. A value inside a list or a map is shown in its quoted form, in
which a text stands between quotes and nothing is written as `none`.

* `Value.shown`: the text as characters, and `Value.text` as a string.
* `Value.quotedForm`: the form inside a container.
-/

namespace Inlay

/-- Floats are written without an exponent, and whole ones below 10^16 keep a `.0`. -/
def Value.floatLayout : Decimal.Layout where
  tie := .up
  positional := none
  pointBelow := some 16
  plus := ""
  nan := "NaN"
  infinity := "inf"

namespace Value

/-- The texts with a comma and a space between them. -/
def commaSeparated (parts : List (List Char)) : List Char :=
  [',', ' '].intercalate parts

mutual

/-- The text of a value. -/
def shown : Value → List Char
  | nothing => []
  | bool b => (if b then "true" else "false").toList
  | int n => Decimal.writeInt n.toInt
  | float x => floatLayout.write x
  | str s => s.toList
  | list items => '[' :: (commaSeparated (shownItems items) ++ [']'])
  | map entries => '{' :: (commaSeparated (shownEntries entries) ++ ['}'])
  | function _ routine => routine.text.toList

/-- The items of a list in their quoted forms. -/
def shownItems : List Value → List (List Char)
  | [] => []
  | .nothing :: rest => "none".toList :: shownItems rest
  | .str s :: rest => Text.quote s.toList :: shownItems rest
  | v :: rest => shown v :: shownItems rest

/-- The entries of a map in their quoted forms. -/
def shownEntries : List (String × Value) → List (List Char)
  | [] => []
  | (key, .nothing) :: rest => (Text.quote key.toList ++ ": none".toList) :: shownEntries rest
  | (key, .str s) :: rest =>
    (Text.quote key.toList ++ ':' :: ' ' :: Text.quote s.toList) :: shownEntries rest
  | (key, v) :: rest => (Text.quote key.toList ++ ':' :: ' ' :: shown v) :: shownEntries rest

end

/-- The form of a value inside a container. -/
def quotedForm : Value → List Char
  | nothing => "none".toList
  | str s => Text.quote s.toList
  | v => shown v

/-- The text of a value as a string. -/
def text (v : Value) : String :=
  String.ofList v.shown

end Value

end Inlay
