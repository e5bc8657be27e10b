import Inlay.Span
import Inlay.Text.Quoted
import Inlay.Decimal.Layout

/-!
# Tokens of expressions

An expression is written in signs (the keywords, operators and brackets), names, numbers and quoted
texts.

* `Sign`: the signs, with `Sign.spellings` and the spelling that messages use, `Sign.symbol`.
* `Token`: the tokens, with the description that messages use, `Token.describe`.
-/

namespace Inlay

/-- A keyword, an operator or a bracket. -/
inductive Sign where
  | and | or | not | isIn | is | ifTest | elseBranch | asName | import_ | true_ | false_ | none_
  | eq | ne | le | ge | lt | gt | assign
  | plus | minus | star | doubleSlash | slash | percent
  | parenOpen | parenClose | bracketOpen | bracketClose | braceOpen | braceClose
  | comma | colon | dot
  deriving DecidableEq, Repr

/-- A token of an expression. Whole numbers have no sign. -/
inductive Token where
  | sign (s : Sign)
  | name (s : String)
  | int (n : Int64)
  | float (x : Float)
  | str (s : String)

/-- The spelling of a sign in messages. -/
def Sign.symbol : Sign → String
  | and => "and"
  | or => "or"
  | not => "not"
  | isIn => "in"
  | is => "is"
  | ifTest => "if"
  | elseBranch => "else"
  | asName => "as"
  | import_ => "import"
  | true_ => "true"
  | false_ => "false"
  | none_ => "none"
  | eq => "=="
  | ne => "!="
  | le => "<="
  | ge => ">="
  | lt => "<"
  | gt => ">"
  | assign => "="
  | plus => "+"
  | minus => "-"
  | star => "*"
  | doubleSlash => "//"
  | slash => "/"
  | percent => "%"
  | parenOpen => "("
  | parenClose => ")"
  | bracketOpen => "["
  | bracketClose => "]"
  | braceOpen => "\x7b"
  | braceClose => "\x7d"
  | comma => ","
  | colon => ":"
  | dot => "."

/-- Every spelling of a sign. -/
def Sign.spellings : Sign → List String
  | true_ => ["true", "True"]
  | false_ => ["false", "False"]
  | none_ => ["none", "None"]
  | s => [s.symbol]

/-- The signs that are spelled like names. -/
def Sign.keywords : List Sign :=
  [and, or, not, isIn, is, ifTest, elseBranch, asName, import_, true_, false_, none_]

/-- The keyword with a spelling. -/
def Sign.ofWord? (word : String) : Option Sign :=
  Sign.keywords.find? fun s => s.spellings.contains word

namespace Token

/-- Floats are described without an exponent and without a `.0`. -/
def floatLayout : Decimal.Layout where
  tie := .up
  positional := none
  pointBelow := some 0
  plus := ""
  nan := "NaN"
  infinity := "inf"

/-- What a message calls the token. -/
def describe : Token → String
  | name s => s!"name '{s}'"
  | int n => "number " ++ String.ofList (Decimal.writeInt n.toInt)
  | float x => "number " ++ String.ofList (floatLayout.write x)
  | str s => "string " ++ s.quoted
  | sign s => s!"'{s.symbol}'"

end Token

end Inlay
