import Inlay.Error
import Inlay.Program.Basic
import Inlay.Statement.Basic
import Inlay.Text.Search

/-!
# From statements to steps

In the tree of a template the clauses of a statement stand behind it as its siblings. Going through
the siblings from the last one to the first, a clause waits until the statement in front of it
takes it.

* `Opening.toStep`: a statement with the clauses that go on with it.
* `Statement.assemble`, `Statement.sequence`: the steps of siblings.
* `Document.compile`: the program of a template.
-/

namespace Inlay

/-- A clause with the steps in it. -/
abbrev ClauseSteps : Type := Clause × List Step

/-- The `elif` branches at the front of the clauses, and the clauses behind them. -/
def takeElifs : List ClauseSteps → List (Expr × List Step) × List ClauseSteps
  | (.elifTest test, body) :: rest =>
    let (branches, rest) := takeElifs rest
    ((test, body) :: branches, rest)
  | rest => ([], rest)

/-- A handler without a kind handles every fault, and so does one of the kind `Exception`. -/
def ExceptHead.widened (head : ExceptHead) : ExceptHead :=
  { head with kind := head.kind.filter (· != "Exception") }

/-- The handlers at the front of the clauses, and the clauses behind them. -/
def takeHandlers : List ClauseSteps → List (ExceptHead × List Step) × List ClauseSteps
  | (.except head, body) :: rest =>
    let (handlers, rest) := takeHandlers rest
    ((head.widened, body) :: handlers, rest)
  | rest => ([], rest)

/-- The `else` clause at the front of the clauses, and the clauses behind it. -/
def takeElse : List ClauseSteps → Option (List Step) × List ClauseSteps
  | (.elseBranch, body) :: rest => (some body, rest)
  | rest => (none, rest)

/-- The `finally` clause at the front of the clauses, and the clauses behind it. -/
def takeFinally : List ClauseSteps → Option (List Step) × List ClauseSteps
  | (.finally_, body) :: rest => (some body, rest)
  | rest => (none, rest)

/-- Refuses clauses that nothing in front of them takes. -/
def noClauses {α : Type} (a : α) : List ClauseSteps → Except Error α
  | [] => .ok a
  | (c, _) :: _ => .error (.internal s!"`{c.keyword}` without an opening statement")

/-- The step of an opening statement, from the steps in it and the clauses behind it. -/
def Opening.toStep (body : List Step) (clauses : List ClauseSteps) :
    Opening → Except Error Step
  | ifTest test =>
    let (branches, clauses) := takeElifs clauses
    let (otherwise, clauses) := takeElse clauses
    noClauses (.choose ((test, body) :: branches) otherwise) clauses
  | whileTest test =>
    let (otherwise, clauses) := takeElse clauses
    noClauses (.whileTest test body otherwise) clauses
  | forEach head _ =>
    let (otherwise, clauses) := takeElse clauses
    noClauses (.forEach head.targets head.iter body otherwise) clauses
  | withBinding head _ => noClauses (.withBinding head.expr head.newName body) clauses
  | tryBody =>
    let (handlers, clauses) := takeHandlers clauses
    let (otherwise, clauses) := takeElse clauses
    let (finally_, clauses) := takeFinally clauses
    if handlers.isEmpty && finally_.isNone then .error (.internal "`try` without handlers")
    else noClauses (.attempt body handlers otherwise finally_) clauses

/-- The step of a statement without a body. -/
def Inline.toStep : Inline → Except Error Step
  | breakLoop => .ok .breakLoop
  | continueLoop => .ok .continueLoop
  | importModule head => .ok (.importModule head)
  | importNames head => .ok (.importNames head)
  | raise head => .ok (.raise head)
  | declareGlobal names => .ok (.declareGlobal names)
  | declareNonlocal _ => .error (.internal "`nonlocal` in a tree")
  | assertion head => .ok (.assertion head)

/-- The lines of a text, without their ends. A line end at the end of the text begins no line. -/
def linesOf (text : String) : List String :=
  let pieces := Text.splitOn ['\n'] text.toList
  let withoutReturn (s : List Char) : List Char :=
    if Text.endsWith ['\r'] s then s.dropLast else s
  let last := pieces.getLast?.getD []
  let full := pieces.dropLast.map fun s => String.ofList (withoutReturn s)
  if last.isEmpty then full else full ++ [String.ofList last]

/-- The steps of a statement that nothing nests in, or whose nested statements stand elsewhere. -/
def StatementKind.toSteps : StatementKind → Except Error (List Step)
  | plain text => .ok [.text text]
  | output filter e => .ok [.output filter e]
  | block name => .ok [.block name]
  | inclusion path => .ok [.inclusion path]
  | inheritance path => .ok [.inheritance path]
  | comment text => .ok ((linesOf text).map .comment)
  | assignment targets e => .ok [.assign targets e]
  | inline i => i.toStep.map fun s => [s]
  | opening _ => .ok []
  | clause c => .error (.internal s!"`{c.keyword}` without an opening statement")
  | ending => .error (.internal "`end` in a tree")

mutual

/-- The steps of what is nested in a statement. -/
def Statement.bodySteps : Statement → Except Error (List Step)
  | .mk _ _ _ children => do
    let (clauses, steps) ← assemble children
    noClauses steps clauses

/-- The steps of siblings, and the clauses at their front that wait for a statement to take
them. -/
def Statement.assemble : List Statement → Except Error (List ClauseSteps × List Step)
  | [] => .ok ([], [])
  | s :: rest => do
    let (clauses, steps) ← assemble rest
    let body ← s.bodySteps
    match s.kind with
    | .clause c => return ((c, body) :: clauses, steps)
    | .opening o => return ([], (← o.toStep body clauses) :: steps)
    | kind => return ([], (← kind.toSteps) ++ (← noClauses steps clauses))

end

/-- The steps of siblings of which none is a stray clause. -/
def Statement.sequence (statements : List Statement) : Except Error (List Step) := do
  let (clauses, steps) ← assemble statements
  noClauses steps clauses

/-- The program of a template whose path is `origin`. -/
def Document.compile (origin : String) (d : Document) : Except Error Program := do
  let body ← Statement.sequence d.statements
  let blocks ← d.blocks.mapM fun (name, b) => do
    return (name, ⟨b.name, origin, ← Statement.sequence b.body⟩)
  return ⟨body, blocks⟩

end Inlay
