/-!
# Operators

The binary operators of expressions, those of short circuit apart, and their signs.
-/

namespace Inlay

/-- A binary operator on two values. -/
inductive Operator where
  | add | sub | mul | div | floorDiv | mod
  | eq | ne | lt | le | gt | ge
  | isIn | notIn | is | isNot
  deriving DecidableEq, Repr

/-- How the operator is written. -/
def Operator.symbol : Operator → String
  | add => "+"
  | sub => "-"
  | mul => "*"
  | div => "/"
  | floorDiv => "//"
  | mod => "%"
  | eq => "=="
  | ne => "!="
  | lt => "<"
  | le => "<="
  | gt => ">"
  | ge => ">="
  | isIn => "in"
  | notIn => "not in"
  | is => "is"
  | isNot => "is not"

/-- Every operator, in the order of the declaration. -/
def Operator.all : List Operator :=
  [add, sub, mul, div, floorDiv, mod, eq, ne, lt, le, gt, ge, isIn, notIn, is, isNot]

end Inlay
