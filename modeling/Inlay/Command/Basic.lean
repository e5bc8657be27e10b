/-!
# Commands

The arguments of the program as a command. The first argument names the command. The others give
the path of a template, once, and options with a value each: `--name VALUE`, `--name=VALUE`, and for
some `-n VALUE`, `-nVALUE` and `-n=VALUE`. Behind `--` no argument is an option. All options but
`--var` are given at most once, and paths are not empty.

* `Command`: what the program is asked to do.
* `Command.read`: a command from its arguments.
-/

namespace Inlay

/-- Where a command finds its template. -/
structure Target where
  path : String
  /-- The directory that template paths start from. -/
  root : Option String
  /-- The file of the settings. -/
  settings : Option String
  deriving DecidableEq, Repr

/-- What the program is asked to do. -/
inductive Command where
  /-- Render a template with the variables of a file and with single ones. -/
  | render (target : Target) (vars : Option String) (bindings : List String)
  /-- Parse and compile a template. -/
  | check (target : Target)
  deriving DecidableEq, Repr

/-- Why arguments are no command. -/
inductive Refusal where
  /-- They ask for help. -/
  | help
  | misuse
  deriving DecidableEq, Repr

namespace Command

/-- The options with a value. -/
inductive Flag where
  | root
  | settings
  | vars
  | binding
  deriving DecidableEq, Repr

/-- The option of a long name, of a command with variables or without. -/
def Flag.ofLong? (withVars : Bool) (name : String) : Option Flag :=
  if name == "root" then some .root
  else if name == "config" then some .settings
  else if withVars && name == "vars" then some .vars
  else if withVars && name == "var" then some .binding
  else none

/-- The option of a letter. -/
def Flag.ofShort? (letter : Char) : Option Flag :=
  if letter == 'r' then some .root
  else if letter == 'c' then some .settings
  else none

/-- What an argument says by itself. -/
inductive Argument where
  | plain (s : String)
  | flag (f : Flag) (value : Option String)
  | endOfOptions
  | help
  | unknown
  deriving DecidableEq, Repr

/-- The value behind the letter of an option, if there is one. -/
def attached : List Char → Option String
  | [] => none
  | '=' :: value => some (String.ofList value)
  | value => some (String.ofList value)

/-- Reads an argument. -/
def Argument.ofText (withVars : Bool) : List Char → Argument
  | ['-', '-'] => .endOfOptions
  | '-' :: '-' :: s =>
    let name := String.ofList (s.takeWhile (· != '='))
    let value := match s.dropWhile (· != '=') with
      | [] => none
      | _ :: value => some (String.ofList value)
    match Flag.ofLong? withVars name with
    | some f => .flag f value
    | none => if name == "help" && value.isNone then .help else .unknown
  | '-' :: c :: s =>
    match Flag.ofShort? c with
    | some f => .flag f (attached s)
    | none => if c == 'h' then .help else .unknown
  | s => .plain (String.ofList s)

/-- What the arguments have given so far. -/
structure Given where
  path : Option String
  root : Option String
  settings : Option String
  vars : Option String
  bindings : List String

/-- Nothing given so far. -/
def Given.nothing : Given :=
  ⟨none, none, none, none, []⟩

/-- Gives what is given at most once. -/
def once (old : Option String) (v : String) : Except Refusal (Option String) :=
  if old.isSome then .error .misuse else .ok (some v)

/-- Gives a path at most once. -/
def oncePath (old : Option String) (v : String) : Except Refusal (Option String) :=
  if v.isEmpty then .error .misuse else once old v

/-- Gives the value of an option. -/
def Given.set (g : Given) (v : String) : Flag → Except Refusal Given
  | .root => (oncePath g.root v).map fun r => { g with root := r }
  | .settings => (oncePath g.settings v).map fun r => { g with settings := r }
  | .vars => (oncePath g.vars v).map fun r => { g with vars := r }
  | .binding => .ok { g with bindings := g.bindings ++ [v] }

/-- Gives the path of the template. -/
def Given.setPath (g : Given) (v : String) : Except Refusal Given :=
  (once g.path v).map fun p => { g with path := p }

/-- Reads the arguments behind the name of a command. -/
def readGiven (withVars : Bool) : Given → List String → Except Refusal Given
  | g, [] => .ok g
  | g, arg :: rest =>
    match Argument.ofText withVars arg.toList with
    | .plain s => g.setPath s >>= fun g => readGiven withVars g rest
    | .flag f (some v) => g.set v f >>= fun g => readGiven withVars g rest
    | .flag f none =>
      match rest with
      | [] => .error .misuse
      | next :: rest =>
        match Argument.ofText withVars next.toList with
        | .plain v => g.set v f >>= fun g => readGiven withVars g rest
        | _ => .error .misuse
    | .endOfOptions => rest.foldlM Given.setPath g
    | .help => .error .help
    | .unknown => .error .misuse

/-- The target that the arguments give. -/
def Given.target (g : Given) : Except Refusal Target :=
  match g.path with
  | some path => .ok ⟨path, g.root, g.settings⟩
  | none => .error .misuse

/-- The names of the commands. -/
def names : List String :=
  ["render", "check", "help"]

/-- Reads the arguments of the program. -/
def read : List String → Except Refusal Command
  | [] => .error .misuse
  | name :: rest =>
    if name == "render" then do
      let g ← readGiven true .nothing rest
      return .render (← g.target) g.vars g.bindings
    else if name == "check" then do
      let g ← readGiven false .nothing rest
      return .check (← g.target)
    else if name == "help" then
      match rest with
      | [] => .error .help
      | [about] => .error (if names.contains about then .help else .misuse)
      | _ => .error .misuse
    else if Argument.ofText false name.toList = .help then .error .help
    else .error .misuse

end Command

end Inlay
