import Inlay.Expr.Parser

/-!
# Statement heads

What follows the keyword of a statement: targets, names, and the heads of `for`, `with`, `except`,
`import`, `from`, `raise` and `assert`. Each head is a type with a reader of its own; where a head
holds an expression, its reader goes along with the reader of expressions until that one refuses a
token.
-/

namespace Inlay

/-- Targets of a loop and what it runs through. -/
structure ForHead where
  targets : List String
  iter : Expr

/-- A value and the name that it is bound to. -/
structure WithHead where
  expr : Expr
  newName : Option String

/-- The kind of fault that a clause handles, every kind without it, and the name that its text is
bound to. -/
structure ExceptHead where
  kind : Option String
  newName : Option String
  deriving DecidableEq, Repr

/-- A module and the name that it is bound to. -/
structure ImportHead where
  module : String
  newName : Option String
  deriving DecidableEq, Repr

/-- A module, and members of it with the names that they are bound to. -/
structure FromHead where
  module : String
  names : List (String × Option String)
  deriving DecidableEq, Repr

/-- The kind of a fault and its text. -/
structure RaiseHead where
  kind : String
  message : Option Expr

/-- A condition and the text of the fault raised if it fails. -/
structure AssertHead where
  test : Expr
  message : Option Expr

/-! ## Names and targets -/

/-- Where the reader of targets is; names have the last one first. -/
inductive TargetState where
  | start
  | inParen
  | behindName (paren : Bool) (names : List String)
  | behindComma (paren : Bool) (names : List String)
  | closed (names : List String)

namespace TargetState

def step : TargetState → Token → Option TargetState
  | start, .name n => some (behindName false [n])
  | start, .sign .parenOpen => some inParen
  | inParen, .name n => some (behindName true [n])
  | behindName paren names, .sign .comma => some (behindComma paren names)
  | behindName true names, .sign .parenClose => some (closed names)
  | behindComma paren names, .name n => some (behindName paren (n :: names))
  | behindComma true names, .sign .parenClose => some (closed names)
  | _, _ => none

def finish : TargetState → Option (List String)
  | behindName false names => some names.reverse
  | behindComma false names => some names.reverse
  | closed names => some names.reverse
  | _ => none

end TargetState

/-- Reads targets: names with commas between them, and perhaps behind the last one, all of it
perhaps in parentheses. -/
def targetsReader : Automaton TargetState (List String) where
  start := .start
  step := TargetState.step
  finish := TargetState.finish

/-- Where the reader of names is. -/
inductive NamesState where
  | beforeName (names : List String)
  | behindName (names : List String)

/-- Reads names with commas between them. -/
def namesReader : Automaton NamesState (List String) where
  start := .beforeName []
  step
    | .beforeName names, .name n => some (.behindName (n :: names))
    | .behindName names, .sign .comma => some (.beforeName names)
    | _, _ => none
  finish
    | .behindName names => some names.reverse
    | _ => none

/-! ## Heads -/

/-- Where the reader of a `for` head is. -/
inductive ForState where
  | targets (s : TargetState)
  | iter (targets : List String) (s : ExprState)

namespace ForState

def step : ForState → Token → Option ForState
  | targets s, t =>
    match s.step t, t with
    | some s, _ => some (targets s)
    | none, .sign .isIn => s.finish.map fun names => iter names .start
    | none, _ => none
  | iter names s, t => (s.step t).map (iter names)

def finish : ForState → Option ForHead
  | targets _ => none
  | iter names s => s.finish.map fun e => ⟨names, e⟩

end ForState

def forReader : Automaton ForState ForHead where
  start := .targets .start
  step := ForState.step
  finish := ForState.finish

/-- Where the reader of a head with a new name behind it is. -/
inductive AliasState (σ α : Type) where
  | inner (s : σ)
  | behindAs (a : α)
  | named (a : α) (name : String)

namespace AliasState

variable {σ α : Type}

def step (m : Automaton σ α) : AliasState σ α → Token → Option (AliasState σ α)
  | inner s, t =>
    match m.step s t, t with
    | some s, _ => some (inner s)
    | none, .sign .asName => (m.finish s).map behindAs
    | none, _ => none
  | behindAs a, .name n => some (named a n)
  | _, _ => none

def finish (m : Automaton σ α) : AliasState σ α → Option (α × Option String)
  | inner s => (m.finish s).map fun a => (a, none)
  | behindAs _ => none
  | named a n => some (a, some n)

end AliasState

/-- The reader with `as` and a name behind it, if they are there. -/
def Automaton.withNewName {σ α : Type} (m : Automaton σ α) :
    Automaton (AliasState σ α) (α × Option String) where
  start := .inner m.start
  step := AliasState.step m
  finish := AliasState.finish m

/-- Reads one name; the state is the name read. -/
def nameReader : Automaton (Option String) String where
  start := none
  step
    | none, .name n => some (some n)
    | _, _ => none
  finish := id

def withReader : Automaton (AliasState ExprState Expr) WithHead :=
  Expr.reader.withNewName.map fun (e, newName) => ⟨e, newName⟩

def importReader : Automaton (AliasState (Option String) String) ImportHead :=
  nameReader.withNewName.map fun (module, newName) => ⟨module, newName⟩

/-- Reads the head of an `except` clause, which may be empty. -/
def exceptReader : Automaton (AliasState (Option String) String) ExceptHead where
  start := nameReader.withNewName.start
  step := nameReader.withNewName.step
  finish
    | .inner none => some ⟨none, none⟩
    | s => (nameReader.withNewName.finish s).map fun (kind, newName) => ⟨some kind, newName⟩

/-- Where the reader of a `from` head is; members have the last one first. -/
inductive FromState where
  | start
  | behindModule (module : String)
  | member (module : String) (names : List (String × Option String))
      (s : AliasState (Option String) String)

namespace FromState

def step : FromState → Token → Option FromState
  | start, .name n => some (behindModule n)
  | behindModule module, .sign .import_ => some (member module [] nameReader.withNewName.start)
  | member module names s, t =>
    match nameReader.withNewName.step s t, t with
    | some s, _ => some (member module names s)
    | none, .sign .comma => (nameReader.withNewName.finish s).map fun name =>
      member module (name :: names) nameReader.withNewName.start
    | none, _ => none
  | _, _ => none

def finish : FromState → Option FromHead
  | member module names s => (nameReader.withNewName.finish s).map fun name =>
    ⟨module, (name :: names).reverse⟩
  | _ => none

end FromState

def fromReader : Automaton FromState FromHead where
  start := .start
  step := FromState.step
  finish := FromState.finish

/-- Where the reader of a `raise` head is. -/
inductive RaiseState where
  | start
  | behindKind (kind : String)
  | inParen (kind : String)
  | message (kind : String) (s : ExprState)
  | closed (kind : String) (message : Option Expr)

namespace RaiseState

def step : RaiseState → Token → Option RaiseState
  | start, .name n => some (behindKind n)
  | behindKind kind, .sign .parenOpen => some (inParen kind)
  | inParen kind, .sign .parenClose => some (closed kind none)
  | inParen kind, t => (ExprState.start.step t).map (message kind)
  | message kind s, t =>
    match s.step t, t with
    | some s, _ => some (message kind s)
    | none, .sign .parenClose => s.finish.map fun e => closed kind (some e)
    | none, _ => none
  | _, _ => none

def finish : RaiseState → Option RaiseHead
  | behindKind kind => some ⟨kind, none⟩
  | closed kind text => some ⟨kind, text⟩
  | _ => none

end RaiseState

def raiseReader : Automaton RaiseState RaiseHead where
  start := .start
  step := RaiseState.step
  finish := RaiseState.finish

/-- Where the reader of an `assert` head is. -/
inductive AssertState where
  | test (s : ExprState)
  | message (test : Expr) (s : ExprState)

namespace AssertState

def step : AssertState → Token → Option AssertState
  | test s, t =>
    match s.step t, t with
    | some s, _ => some (test s)
    | none, .sign .comma => s.finish.map fun e => message e .start
    | none, _ => none
  | message e s, t => (s.step t).map (message e)

def finish : AssertState → Option AssertHead
  | test s => s.finish.map fun e => ⟨e, none⟩
  | message e s => s.finish.map fun text => ⟨e, some text⟩

end AssertState

def assertReader : Automaton AssertState AssertHead where
  start := .test .start
  step := AssertState.step
  finish := AssertState.finish

end Inlay
