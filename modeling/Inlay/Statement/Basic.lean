import Inlay.Expr.Head
import Inlay.Filter
import Inlay.Span

/-!
# Statements

What stands between the marks of a template, and the trees that statements and plain text form. A
statement may open a scope, into which the following ones nest until its end; a clause closes one
part of the open scope and opens the next.

* `Opening`, `Clause`, `Inline`, `StatementKind`: the statements.
* `Statement`: a statement with the statements nested in it.
* `Document`: the statements of a whole template, with the bodies of its blocks on their own.
-/

namespace Inlay

/-- A statement that opens a scope and is no block. -/
inductive Opening where
  | ifTest (test : Expr)
  | whileTest (test : Expr)
  | forEach (head : ForHead) (isAsync : Bool)
  | withBinding (head : WithHead) (isAsync : Bool)
  | tryBody

/-- A clause that goes on with an open statement. -/
inductive Clause where
  | elifTest (test : Expr)
  | elseBranch
  | except (head : ExceptHead)
  | finally_

/-- A statement that has no body. -/
inductive Inline where
  | breakLoop
  | continueLoop
  | importModule (head : ImportHead)
  | importNames (head : FromHead)
  /-- Without a head it raises the fault being handled. -/
  | raise (head : Option RaiseHead)
  | declareGlobal (names : List String)
  | declareNonlocal (names : List String)
  | assertion (head : AssertHead)

/-- What a statement is. Plain text counts as a statement that writes itself. -/
inductive StatementKind where
  | plain (text : String)
  | output (filter : Filter) (e : Expr)
  | block (name : String)
  | inclusion (path : Expr)
  | inheritance (path : Expr)
  | opening (o : Opening)
  | clause (c : Clause)
  | ending
  | inline (i : Inline)
  | comment (text : String)
  | assignment (targets : List String) (e : Expr)

/-- The keyword of an opening statement. -/
def Opening.keyword : Opening → String
  | ifTest _ => "if"
  | whileTest _ => "while"
  | forEach .. => "for"
  | withBinding .. => "with"
  | tryBody => "try"

/-- The keyword of a clause. -/
def Clause.keyword : Clause → String
  | elifTest _ => "elif"
  | elseBranch => "else"
  | except _ => "except"
  | finally_ => "finally"

/-- What a statement does to the scopes around it. -/
structure Capabilities where
  /-- It opens a scope. -/
  opens : Bool
  /-- It stands in the scope around it. -/
  stands : Bool
  /-- It closes the innermost scope. -/
  closes : Bool
  deriving DecidableEq, Repr

namespace StatementKind

/-- What the statement does to the scopes around it. -/
def capabilities : StatementKind → Capabilities
  | block _ => ⟨true, true, false⟩
  | opening _ => ⟨true, true, false⟩
  | clause _ => ⟨true, true, true⟩
  | ending => ⟨false, false, true⟩
  | _ => ⟨false, true, false⟩

/-- What a message calls an open statement. -/
def keyword : StatementKind → String
  | block _ => "block"
  | opening o => o.keyword
  | clause c => c.keyword
  | _ => "statement"

end StatementKind

/-- A statement with its place and what is nested in it. Plain text has no line and an empty
span. -/
inductive Statement where
  | mk (kind : StatementKind) (line : Option Nat) (span : Span) (children : List Statement)

namespace Statement

def kind : Statement → StatementKind
  | mk kind _ _ _ => kind

def line : Statement → Option Nat
  | mk _ line _ _ => line

def span : Statement → Span
  | mk _ _ span _ => span

def children : Statement → List Statement
  | mk _ _ _ children => children

/-- Plain text as a statement. -/
def ofText (text : List Char) : Statement :=
  mk (.plain (String.ofList text)) none ⟨0, 0⟩ []

end Statement

/-- The body of a block, and the line that opens it. -/
structure BlockBody where
  name : String
  line : Nat
  body : List Statement

/-- A template as a tree. Where a block is defined stands a block statement without children; its
body is found by its name. -/
structure Document where
  statements : List Statement
  blocks : Dict BlockBody

end Inlay
