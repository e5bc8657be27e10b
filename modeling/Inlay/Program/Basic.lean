import Inlay.Expr.Head
import Inlay.Filter

/-!
# Programs

What a template does when it is rendered: a list of steps, and one list of steps for every block.
The clauses of a statement are parts of its step.

* `Step`: the steps.
* `Program`: the program of a template.
-/

namespace Inlay

/-- A step of a program. -/
inductive Step where
  | text (s : String)
  | output (filter : Filter) (e : Expr)
  /-- Draw a block where it is defined. -/
  | block (name : String)
  | inclusion (path : Expr)
  | inheritance (path : Expr)
  | choose (branches : List (Expr × List Step)) (otherwise : Option (List Step))
  | forEach (targets : List String) (iter : Expr) (body : List Step)
      (otherwise : Option (List Step))
  | whileTest (test : Expr) (body : List Step) (otherwise : Option (List Step))
  | withBinding (e : Expr) (newName : Option String) (body : List Step)
  | attempt (body : List Step) (handlers : List (ExceptHead × List Step))
      (otherwise finally_ : Option (List Step))
  | assign (targets : List String) (e : Expr)
  | importModule (head : ImportHead)
  | importNames (head : FromHead)
  /-- Without a head it raises the fault being handled. -/
  | raise (head : Option RaiseHead)
  | declareGlobal (names : List String)
  | assertion (head : AssertHead)
  | breakLoop
  | continueLoop
  | comment (line : String)

/-- The program of a block, with the path of the template that defines it. -/
structure BlockProgram where
  name : String
  origin : String
  body : List Step

/-- The program of a template. -/
structure Program where
  body : List Step
  blocks : Dict BlockProgram

end Inlay
