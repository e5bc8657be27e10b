import Inlay.Config
import Inlay.Expr.Automaton

/-!
# Errors

What can go wrong with a template beside a fault of its own code: its source is malformed, it
cannot be found or read, or it is rendered in a way that makes no sense. A fault counts as an error
too once no `except` clause has handled it. Errors are causes; their wording is one function.

* `SyntaxFault`, `Absence`, `RenderFault`: the causes, each with its `message`.
* `Place`: where in a source an error is.
* `Error`, `Error.message`, `Error.place?`.
-/

namespace Inlay

/-- Where in a source something stands. -/
structure Place where
  file : String
  line : Nat
  span : Span
  deriving DecidableEq, Repr

/-- Why the source of a template is malformed. -/
inductive SyntaxFault where
  | missingEndMark
  | redundantEnd
  | unterminated (keyword : String)
  | trailingColon (statement : String)
  | emptyOutput
  | badAssignment
  | badBlockName (name : String)
  /-- An expression or a head, called `what`, does not parse. -/
  | badExpression (what : String) (why : ReadFault)
  | unfinishedTry
  | misplacedClause (keyword : String)
  | outsideLoop (keyword : String)
  | unboundNonlocal (names : List String)

def SyntaxFault.message : SyntaxFault → String
  | missingEndMark => "cannot find end mark for begin mark"
  | redundantEnd => "redundant unindent"
  | unterminated keyword => s!"unterminated block `{keyword}`"
  | trailingColon statement => s!"statement {statement.quoted} must not end with a colon"
  | emptyOutput => "empty output expression"
  | badAssignment => "invalid assignment"
  | badBlockName name => s!"invalid block name {name.quoted}"
  | badExpression what why => s!"invalid {what}: {why.message}"
  | unfinishedTry => "`try` needs an `except` or `finally` clause"
  | misplacedClause keyword => s!"`{keyword}` does not continue the open statement"
  | outsideLoop keyword => s!"'{keyword}' outside loop"
  | unboundNonlocal names =>
    let list := ", ".intercalate names
    s!"no binding for nonlocal '{list}' found"

/-- Why there is no template under a path. -/
inductive Absence where
  | escapesRoot
  | namesNoFile
  | missing
  | outsideRoot
  deriving DecidableEq, Repr

def Absence.message (path : String) : Absence → String
  | escapesRoot => s!"template path {path.quoted} escapes the template root"
  | namesNoFile => s!"template path {path.quoted} names no file"
  | missing => s!"template {path.quoted} does not exist"
  | outsideRoot => s!"template {path.quoted} resolves outside the template root"

/-- The stages in the life of a rendering. -/
inductive Stage where
  | fresh
  | drawing
  | inheriting
  | finished
  deriving DecidableEq, Repr

def Stage.name : Stage → String
  | fresh => "Fresh"
  | drawing => "Drawing"
  | inheriting => "Inheriting"
  | finished => "Finished"

/-- Why a template cannot be rendered as it asks. `path` is the template that asks. -/
inductive RenderFault where
  | finishedBefore (path : String)
  | startedBefore (path : String)
  | notDrawing (path : String) (stage : Stage)
  | inheritInBlock (path : String)
  | secondParent (path : String)
  | tooDeep (target path : String) (limit : Nat)
  /-- There is nothing to look templates up in: there never was, or it is gone. -/
  | noFinder (target path : String) (gone : Bool)
  | noBlock (name path : String)
  | noParentBlock (name path : String)
  deriving DecidableEq, Repr

def RenderFault.message : RenderFault → String
  | finishedBefore path => s!"{path} has already finished rendering"
  | startedBefore path => s!"{path} is already rendering"
  | notDrawing path stage => s!"cannot write to {path} while {stage.name}"
  | inheritInBlock path => s!"cannot inherit inside a block ({path})"
  | secondParent path => s!"{path} already inherits a parent"
  | tooDeep target path limit =>
    s!"loading \"{target}\" from {path} exceeds the nesting limit of {limit}"
  | noFinder target path gone =>
    let reason :=
      if gone then "its finder was dropped before rendering" else "the template has no finder"
    s!"cannot load \"{target}\" from {path}: {reason}"
  | noBlock name path => s!"block `{name}` is not defined in {path}"
  | noParentBlock name path => s!"block `{name}` has no parent definition in {path}"

/-- What can go wrong with a template. -/
inductive Error where
  | absent (path : String) (why : Absence)
  | malformed (why : SyntaxFault) (place : Place)
  | unknownStatement (statement : String) (place : Place)
  | blockConflict (name : String) (firstLine : Nat) (place : Place)
  | render (why : RenderFault)
  | fault (why : Fault)
  | undecodable (path : String) (encoding : SourceEncoding)
  | unreadable (path : String)
  | config (why : ConfigFault)
  /-- A statement tree that no source has. -/
  | internal (what : String)

namespace Error

/-- The file and line behind a message. -/
def located (message : String) (place : Place) : String :=
  s!"{message} in file {place.file} at line {place.line}"

/-- The message of an error. -/
def message : Error → String
  | absent path why => why.message path
  | malformed why place => located why.message place
  | unknownStatement statement place => located s!"unknown statement {statement.quoted}" place
  | blockConflict name firstLine place =>
    located s!"block `{name}`" place
      ++ s!" conflicts with the block defined at line {firstLine}"
  | render why => s!"render error: {why.message}"
  | fault why => why.message
  | undecodable path encoding => s!"cannot decode {path} as {encoding.name}"
  | unreadable path => s!"i/o error on {path}"
  | config why => s!"invalid configuration: {why.message}"
  | internal what => s!"internal error: {what}"

/-- The place of an error that points into a source. -/
def place? : Error → Option Place
  | malformed _ place => some place
  | unknownStatement _ place => some place
  | blockConflict _ _ place => some place
  | _ => none

end Error

end Inlay
