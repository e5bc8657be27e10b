import Inlay.Segment
import Inlay.Statement.Grammar

/-!
# Nesting statements

The segments of a source become a tree with the help of a stack of open scopes. Each open scope
knows which clauses may still follow it. A clause closes the innermost scope and opens the next
part of the same statement beside it; an end closes the innermost scope for good. When a block is
closed its body moves out of the tree into the table of blocks.

* `Chain`: what may still follow an open scope, `Chain.next?`.
* `Nesting`: the tree built so far, `Nesting.push` and `Nesting.finish`.
* `Document.parse`: the tree of a source.
-/

namespace Inlay

/-- Which part of a statement is open. -/
inductive Chain where
  | ifBranch
  | ifElse
  | loop
  | loopElse
  | tryStart
  | tryExcept
  | tryElse
  | tryFinally
  | withBody
  | block
  deriving DecidableEq, Repr

/-- The part of a statement that a clause opens, if it may follow the open part. -/
def Chain.next? : Clause → Chain → Option Chain
  | .elifTest _, ifBranch => some ifBranch
  | .elseBranch, ifBranch => some ifElse
  | .elseBranch, loop => some loopElse
  | .elseBranch, tryExcept => some tryElse
  | .except _, tryStart => some tryExcept
  | .except _, tryExcept => some tryExcept
  | .finally_, tryStart => some tryFinally
  | .finally_, tryExcept => some tryFinally
  | .finally_, tryElse => some tryFinally
  | _, _ => none

/-- The part of a statement that its opening opens. -/
def Opening.chain : Opening → Chain
  | ifTest _ => .ifBranch
  | whileTest _ => .loop
  | forEach .. => .loop
  | withBinding .. => .withBody
  | tryBody => .tryStart

/-- A statement as it is written, without what is nested in it. -/
structure Item where
  kind : StatementKind
  line : Nat
  span : Span

/-- An open scope: the statement that opens it and what is nested in it, the last one first. -/
structure OpenScope where
  item : Item
  chain : Chain
  children : List Statement

/-- The statement of a scope that is closed. -/
def OpenScope.toStatement (s : OpenScope) (children : List Statement) : Statement :=
  .mk s.item.kind (some s.item.line) s.item.span children

/-- The tree built so far: the statements outside of every scope, the last one first, the open
scopes, the innermost one first, the blocks closed so far and the lines of all blocks. -/
structure Nesting where
  statements : List Statement
  scopes : List OpenScope
  blocks : Dict BlockBody
  blockLines : Dict Nat

namespace Nesting

/-- Nothing built yet. -/
def empty : Nesting :=
  ⟨[], [], [], []⟩

/-- An error at a statement. -/
def malformed (file : String) (item : Item) (why : SyntaxFault) : Error :=
  .malformed why ⟨file, item.line, item.span⟩

/-- The tree with a statement in the innermost scope. -/
def attach (n : Nesting) (s : Statement) : Nesting :=
  match n.scopes with
  | [] => { n with statements := s :: n.statements }
  | top :: rest => { n with scopes := { top with children := s :: top.children } :: rest }

/-- The tree with a scope, which is no longer open, as a statement. The body of a block goes to the
table. -/
def close (n : Nesting) (s : OpenScope) : Nesting :=
  match s.item.kind with
  | .block name =>
    let body : BlockBody := ⟨name, s.item.line, s.children.reverse⟩
    { n with blocks := n.blocks.insert name body }.attach (s.toStatement [])
  | _ => n.attach (s.toStatement s.children.reverse)

/-- The tree with a new innermost scope. -/
def openScope (n : Nesting) (item : Item) (chain : Chain) : Nesting :=
  { n with scopes := ⟨item, chain, []⟩ :: n.scopes }

/-- Is there a loop around the innermost scope, that scope included? Blocks are drawn on their own,
so a loop around a block does not count. -/
def inLoop : List OpenScope → Bool
  | [] => false
  | s :: rest =>
    match s.chain with
    | .loop => true
    | .block => false
    | _ => inLoop rest

/-- Refuses a statement without a body that cannot stand where it is. -/
def checkInline (n : Nesting) : StatementKind → Except SyntaxFault Unit
  | .inline .breakLoop => if inLoop n.scopes then .ok () else .error (.outsideLoop "break")
  | .inline .continueLoop => if inLoop n.scopes then .ok () else .error (.outsideLoop "continue")
  | .inline (.declareNonlocal names) => .error (.unboundNonlocal names)
  | _ => .ok ()

/-- A clause: the innermost scope is closed, and the next part of its statement is open. -/
def pushClause (file : String) (n : Nesting) (item : Item) (c : Clause) : Except Error Nesting :=
  match n.scopes with
  | [] => .error (malformed file item .redundantEnd)
  | top :: rest =>
    match Chain.next? c top.chain with
    | some chain => .ok (({ n with scopes := rest }.close top).openScope item chain)
    | none => .error (malformed file item (.misplacedClause c.keyword))

/-- An end: the innermost scope is closed. -/
def pushEnding (file : String) (n : Nesting) (item : Item) : Except Error Nesting :=
  match n.scopes with
  | [] => .error (malformed file item .redundantEnd)
  | top :: rest =>
    if top.chain = .tryStart then .error (malformed file top.item .unfinishedTry)
    else .ok ({ n with scopes := rest }.close top)

/-- A block: its name must be new in the template. -/
def pushBlock (file : String) (n : Nesting) (item : Item) (name : String) :
    Except Error Nesting :=
  match n.blockLines.get? name with
  | some first => .error (.blockConflict name first ⟨file, item.line, item.span⟩)
  | none =>
    .ok ({ n with blockLines := n.blockLines.insert name item.line }.openScope item .block)

/-- The tree with a statement behind what it holds. -/
def push (file : String) (n : Nesting) (item : Item) : Except Error Nesting :=
  match item.kind with
  | .clause c => n.pushClause file item c
  | .ending => n.pushEnding file item
  | .block name => n.pushBlock file item name
  | .opening o => .ok (n.openScope item o.chain)
  | kind =>
    match n.checkInline kind with
    | .ok _ => .ok (n.attach (.mk kind (some item.line) item.span []))
    | .error why => .error (malformed file item why)

/-- The statement that the text of a segment is. -/
def classify (config : Config) (place : Place) (text : List Char) :
    Except Error StatementKind :=
  let text := Text.trim text
  if Text.endsWith [':'] text then
    .error (.malformed (.trailingColon (String.ofList text)) place)
  else match config.classify text with
    | .error why => .error (.malformed why place)
    | .ok none => .error (.unknownStatement (String.ofList text) place)
    | .ok (some (_, kind)) => .ok kind

/-- The tree with a segment behind what it holds. -/
def pushSegment (config : Config) (file : String) (n : Nesting) : Segment →
    Except Error Nesting
  | .plain text => .ok (n.attach (.ofText text))
  | .statement text line span => do
    let kind ← classify config ⟨file, line, span⟩ text
    n.push file ⟨kind, line, span⟩

/-- The whole tree, when nothing follows. -/
def finish (file : String) (n : Nesting) : Except Error Document :=
  match n.scopes with
  | [] => .ok ⟨n.statements.reverse, n.blocks⟩
  | top :: _ => .error (malformed file top.item (.unterminated top.item.kind.keyword))

end Nesting

/-- The tree of a source. -/
def Document.parse (config : Config) (file : String) (source : List Char) :
    Except Error Document := do
  let segments ← Segment.scan file source
  let nesting ← segments.foldlM (Nesting.pushSegment config file) .empty
  nesting.finish file

end Inlay
