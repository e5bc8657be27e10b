import Inlay.Value.Basic
import Inlay.Value.Operator

/-!
# Expressions

The expressions of templates. `and`, `or` and the conditional evaluate only what they need, so they
are no operators on values.
-/

namespace Inlay

/-- An expression. -/
inductive Expr where
  | lit (v : Value)
  | name (n : String)
  | list (items : List Expr)
  | map (entries : List (Expr × Expr))
  | member (e : Expr) (name : String)
  | index (e i : Expr)
  | call (f : Expr) (args : List Expr)
  | neg (e : Expr)
  | not (e : Expr)
  | binary (op : Operator) (a b : Expr)
  | and (a b : Expr)
  | or (a b : Expr)
  /-- `a if test else b`. -/
  | cond (test a b : Expr)

instance : Inhabited Expr := ⟨.lit .nothing⟩

end Inlay
