import Inlay.Expr.Basic
import Inlay.Expr.Automaton

/-!
# Reading expressions

The reader of expressions keeps a stack of what stands around the operand being read: operators
that wait for their right operand, and open brackets with what they hold so far. An operator that
follows an operand first completes every waiting operator that binds at least as tightly, which
makes operators of one level associate to the left.

From loose to tight: the conditional, `or`, `and`, `not`, the comparisons, `+` and `-`, the
products, unary minus, and then members, indices and calls. Both the value and the test of a
conditional stand on the level of `or`.

* `Pending`: what waits around an operand.
* `ExprState`, `ExprState.step`, `ExprState.finish`: the reader, `Expr.reader`.
-/

namespace Inlay

/-- How tightly an operator binds; comparisons are on level four. -/
def Operator.level : Operator → Nat
  | .mul | .div | .floorDiv | .mod => 6
  | .add | .sub => 5
  | _ => 4

/-- What waits around the operand being read. Lists of items and entries have the last one
first. -/
inductive Pending where
  | neg
  | not
  | binary (op : Operator) (a : Expr)
  | and (a : Expr)
  | or (a : Expr)
  /-- Behind `if`, in front of the test. -/
  | test (a : Expr)
  /-- Behind `else`. -/
  | otherwise (a test : Expr)
  | paren
  | list (items : List Expr)
  | key (entries : List (Expr × Expr))
  | entry (entries : List (Expr × Expr)) (key : Expr)
  | index (e : Expr)
  | args (f : Expr) (args : List Expr)

/-- Where the reader of expressions is. -/
inductive ExprState where
  /-- In front of an operand. -/
  | operand (around : List Pending)
  /-- Behind an operand. -/
  | operator (e : Expr) (around : List Pending)
  /-- Behind `is`: an operand, or `not` and an operand. -/
  | afterIs (a : Expr) (around : List Pending)
  /-- Behind an operand and `not`: only `in` can follow. -/
  | afterNot (a : Expr) (around : List Pending)
  /-- Behind a dot. -/
  | afterDot (e : Expr) (around : List Pending)

namespace ExprState

/-- Completes the waiting operators of a level or a tighter one. -/
def reduce (level : Nat) (e : Expr) : List Pending → Expr × List Pending
  | .neg :: around => reduce level (.neg e) around
  | .binary op a :: around =>
    if level ≤ op.level then reduce level (.binary op a e) around
    else (e, .binary op a :: around)
  | .not :: around => if level ≤ 3 then reduce level (.not e) around else (e, .not :: around)
  | .and a :: around =>
    if level ≤ 2 then reduce level (.and a e) around else (e, .and a :: around)
  | .or a :: around => if level ≤ 1 then reduce level (.or a e) around else (e, .or a :: around)
  | .otherwise a test :: around =>
    if level = 0 then reduce level (.cond test a e) around
    else (e, .otherwise a test :: around)
  | around => (e, around)

/-- The value of a token that is a literal. -/
def literal? : Token → Option Value
  | .int n => some (.int n)
  | .float x => some (.float x)
  | .str s => some (.str s)
  | .sign .true_ => some (.bool true)
  | .sign .false_ => some (.bool false)
  | .sign .none_ => some .nothing
  | _ => none

/-- May `not` stand in front of the operand? -/
def allowsNot : List Pending → Bool
  | .neg :: _ => false
  | .binary .. :: _ => false
  | _ => true

/-- A token in front of an operand. -/
def stepOperand (around : List Pending) : Token → Option ExprState
  | .name n => some (operator (.name n) around)
  | .sign .parenOpen => some (operand (.paren :: around))
  | .sign .bracketOpen => some (operand (.list [] :: around))
  | .sign .braceOpen => some (operand (.key [] :: around))
  | .sign .minus => some (operand (.neg :: around))
  | .sign .not => if allowsNot around then some (operand (.not :: around)) else none
  | .sign .bracketClose => match around with
    | .list items :: around => some (operator (.list items.reverse) around)
    | _ => none
  | .sign .parenClose => match around with
    | .args f args :: around => some (operator (.call f args.reverse) around)
    | _ => none
  | .sign .braceClose => match around with
    | .key entries :: around => some (operator (.map entries.reverse) around)
    | _ => none
  | t => (literal? t).map fun v => operator (.lit v) around

/-- The binary operator of a sign, those apart that are written in two words. -/
def operator? : Sign → Option Operator
  | .plus => some .add
  | .minus => some .sub
  | .star => some .mul
  | .slash => some .div
  | .doubleSlash => some .floorDiv
  | .percent => some .mod
  | .eq => some .eq
  | .ne => some .ne
  | .lt => some .lt
  | .le => some .le
  | .gt => some .gt
  | .ge => some .ge
  | .isIn => some .isIn
  | _ => none

/-- Is the innermost thing around the operand a place for a whole conditional? -/
def allowsConditional : List Pending → Bool
  | .test _ :: _ => false
  | _ => true

/-- A sign behind an operand. -/
def stepSign (e : Expr) (around : List Pending) : Sign → Option ExprState
  | .dot => some (afterDot e around)
  | .bracketOpen => some (operand (.index e :: around))
  | .parenOpen => some (operand (.args e [] :: around))
  | .and => let (a, around) := reduce 2 e around; some (operand (.and a :: around))
  | .or => let (a, around) := reduce 1 e around; some (operand (.or a :: around))
  | .not => let (a, around) := reduce 4 e around; some (afterNot a around)
  | .is => let (a, around) := reduce 4 e around; some (afterIs a around)
  | .ifTest =>
    let (a, around) := reduce 1 e around
    if allowsConditional around then some (operand (.test a :: around)) else none
  | .elseBranch => match reduce 1 e around with
    | (test, .test a :: around) => some (operand (.otherwise a test :: around))
    | _ => none
  | .comma => match reduce 0 e around with
    | (e, .list items :: around) => some (operand (.list (e :: items) :: around))
    | (e, .args f args :: around) => some (operand (.args f (e :: args) :: around))
    | (e, .entry entries key :: around) => some (operand (.key ((key, e) :: entries) :: around))
    | _ => none
  | .colon => match reduce 0 e around with
    | (e, .key entries :: around) => some (operand (.entry entries e :: around))
    | _ => none
  | .parenClose => match reduce 0 e around with
    | (e, .paren :: around) => some (operator e around)
    | (e, .args f args :: around) => some (operator (.call f (e :: args).reverse) around)
    | _ => none
  | .bracketClose => match reduce 0 e around with
    | (e, .list items :: around) => some (operator (.list (e :: items).reverse) around)
    | (i, .index e :: around) => some (operator (.index e i) around)
    | _ => none
  | .braceClose => match reduce 0 e around with
    | (e, .entry entries key :: around) =>
      some (operator (.map ((key, e) :: entries).reverse) around)
    | _ => none
  | s => (operator? s).map fun op =>
    let (a, around) := reduce op.level e around
    operand (.binary op a :: around)

/-- The state behind a token. -/
def step : ExprState → Token → Option ExprState
  | operand around, t => stepOperand around t
  | operator e around, .sign s => stepSign e around s
  | operator .., _ => none
  | afterIs a around, .sign .not => some (operand (.binary .isNot a :: around))
  | afterIs a around, t => stepOperand (.binary .is a :: around) t
  | afterNot a around, .sign .isIn => some (operand (.binary .notIn a :: around))
  | afterNot .., _ => none
  | afterDot e around, .name n => some (operator (.member e n) around)
  | afterDot .., _ => none

/-- The expression, if it may end here. -/
def finish : ExprState → Option Expr
  | operator e around => match reduce 0 e around with
    | (e, []) => some e
    | _ => none
  | _ => none

/-- In front of an expression. -/
def start : ExprState :=
  operand []

end ExprState

/-- The reader of expressions. -/
def Expr.reader : Automaton ExprState Expr where
  start := .start
  step := ExprState.step
  finish := ExprState.finish

/-- The expression that a text is. -/
def Expr.read (s : List Char) : Except (ReadFault × Span) Expr :=
  Expr.reader.read s

end Inlay
