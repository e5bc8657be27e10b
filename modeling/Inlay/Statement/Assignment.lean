import Inlay.Text.Search

/-!
# The equals sign of an assignment

An assignment is cut at its only bare equals sign: one outside of quoted texts that is no part of
`==`, `!=`, `<=` or `>=`.

* `cutBare`: the pieces between the bare equals signs of a text.
-/

namespace Inlay.Text

/-- Does an equals sign between these two characters belong to a comparison? -/
def isCompound (before behind : Option Char) : Bool :=
  before == some '=' || before == some '!' || before == some '<' || before == some '>' ||
    behind == some '='

/-- The pieces of a text between its bare equals signs. `quote` is the quote of the quoted text
that is being read, `escaped` says that a backslash stands in front, and `before` is the character
in front. -/
def cutBare (quote : Option Char) (escaped : Bool) (before : Option Char) :
    List Char → List (List Char)
  | [] => [[]]
  | c :: rest =>
    match quote with
    | some q =>
      if escaped then consPiece c (cutBare quote false (some c) rest)
      else if c == '\\' then consPiece c (cutBare quote true (some c) rest)
      else if c == q then consPiece c (cutBare none false (some c) rest)
      else consPiece c (cutBare quote false (some c) rest)
    | none =>
      if c == '"' || c == '\'' then consPiece c (cutBare (some c) false (some c) rest)
      else if c == '=' && !isCompound before rest.head? then
        [] :: cutBare none false (some c) rest
      else consPiece c (cutBare none false (some c) rest)

end Inlay.Text
