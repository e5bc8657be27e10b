import Inlay.Command.Basic
import Inlay.Files.Loader
import Inlay.Json.Reader
import Inlay.Render.Draw
import Inlay.Report
import Inlay.Settings

/-!
# Running commands

What the program answers to its arguments, as a function of the files that it finds. The steps of a
command come in a fixed order, and the first one that fails gives the answer: the settings, the
variables, the template root, the template.

* `Answer`: what the program prints, and its exit code.
* `Command.run`: the answer to a command, within a bound on the nesting of the rendering.
* `Command.answer`: the answer to arguments.
-/

namespace Inlay

/-- What the program prints, and the code that it exits with. -/
structure Answer where
  exit : Nat
  stdout : String
  stderr : String
  deriving DecidableEq, Repr

/-- The answer of a program that succeeds. -/
def Answer.success (text : String) : Answer :=
  ⟨0, text, ""⟩

/-- The answer of a program that fails. -/
def Answer.failure (message : String) : Answer :=
  ⟨1, "", message ++ "\n"⟩

namespace Command

/-- How the program is used. -/
def usage : String :=
  "usage: inlay render PATH [-r DIR] [-c FILE] [--vars FILE] [--var KEY=VALUE]...\n"
    ++ "       inlay check PATH [-r DIR] [-c FILE]\n"

/-- The answer to arguments that are no command. -/
def refuse : Refusal → Answer
  | .help => ⟨0, usage, ""⟩
  | .misuse => ⟨2, "", usage⟩

/-! ## What a command needs -/

/-- The settings of a target. -/
def settings (files : Files) (t : Target) : Except Answer Settings :=
  match t.settings with
  | none => .ok .default
  | some path =>
    let failed (why : String) : Except Answer Settings :=
      .error (.failure s!"Error loading config '{path}': {why}")
    match files.readText path with
    | .error _ => failed (Error.unreadable path).message
    | .ok text => match Settings.read text with
      | .error f => failed (Error.config f).message
      | .ok s => .ok s

/-- The template root of a target: the one that it names, the one of the settings, or the working
directory. -/
def rootOf (t : Target) (s : Settings) : String :=
  (t.root <|> s.root).getD "."

/-- The template root and the configuration of a target. -/
def load (files : Files) (t : Target) : Except Answer (String × Config) := do
  let s ← settings files t
  match s.toConfig? with
  | .ok config => return (rootOf t s, config)
  | .error f => .error (.failure s!"Error: {(Error.config f).message}")

/-- The variables of a file. -/
def readVars (files : Files) (path : String) : Except Answer Vars :=
  match files.readText path with
  | .error f => .error (.failure s!"Error reading vars '{path}': {f.message}")
  | .ok text => match Json.read? Json.defaultDepth text.toList with
    | none => .error (.failure s!"Error parsing vars '{path}': no JSON text")
    | some (.map vars) => .ok vars
    | some _ => .error (.failure s!"Error: vars file '{path}' must hold an object")

/-- The value that a text gives to a variable: of JSON if it is JSON, and else the text. -/
def valueOf (s : List Char) : Value :=
  (Json.read? Json.defaultDepth s).getD (.str (String.ofList s))

/-- Adds the variable that an argument gives, behind whose name stands an equals sign. -/
def bindArgument (vars : Vars) (pair : String) : Except Answer Vars :=
  match pair.toList.dropWhile (· != '=') with
  | [] => .error (.failure s!"Error: --var expects KEY=VALUE, got '{pair}'")
  | _ :: value =>
    .ok (vars.insert (String.ofList (pair.toList.takeWhile (· != '='))) (valueOf value))

/-- The variables of a command. -/
def varsOf (files : Files) (path : Option String) (bindings : List String) :
    Except Answer Vars := do
  let vars ← path.elim (.ok []) (readVars files)
  bindings.foldlM bindArgument vars

/-! ## Answers -/

/-- The answer to an error: its report, if it points into a text below the root, or its message. -/
def errorAnswer (files : Files) (root : String) (e : Error) : Answer :=
  let report := do
    let place ← e.place?
    let source ← (files.readText (Files.join root place.file)).toOption
    e.report? source
  ⟨1, "", report.elim s!"Error: {e.message}\n" Report.text⟩

/-- What a template that can be compiled is said to be. -/
def verdict (t : Template) : String :=
  if t.blockNames.isEmpty then s!"{t.path}: ok\n"
  else
    let list := ", ".intercalate t.blockNames
    s!"{t.path}: ok (blocks: {list})\n"

/-- The answer to `check`. -/
def runCheck (files : Files) (t : Target) : Except Answer Answer := do
  let (root, config) ← load files t
  let path := Files.join root t.path
  match files.read path with
  | .error f => .error (.failure s!"Error reading file '{path}': {f.message}")
  | .ok bytes =>
    match Template.decode config t.path bytes >>= fun t => t.compile.map fun _ => t with
    | .ok t => return .success (verdict t)
    | .error e => .error (errorAnswer files root e)

/-- What `render` renders: the configuration, the root as it is written and its place, and the
variables. -/
def prepare (files : Files) (t : Target) (vars : Option String) (bindings : List String) :
    Except Answer (Config × String × Files.Place × Vars) := do
  let (root, config) ← load files t
  let vars ← varsOf files vars bindings
  match files.locate root with
  | .ok place => return (config, root, place, vars)
  | .error _ =>
    .error (.failure s!"Error opening template root: {(Error.unreadable root).message}")

/-- An answer either way. -/
def settle : Except Answer Answer → Answer
  | .ok a => a
  | .error a => a

/-- The answer to a command. There is none if the rendering does not end within the bound. -/
def run (files : Files) (fuel : Nat) : Command → Option Answer
  | .check t => some (settle (runCheck files t))
  | .render t vars bindings =>
    match prepare files t vars bindings with
    | .error a => some a
    | .ok (config, root, place, vars) =>
      (Finder.render config (files.loader place) fuel .empty t.path vars).map fun (r, _) =>
        match r with
        | .ok text => .success text
        | .error e => errorAnswer files root e

/-- The answer to the arguments of the program. -/
def answer (files : Files) (fuel : Nat) (args : List String) : Option Answer :=
  match read args with
  | .ok command => command.run files fuel
  | .error r => some (refuse r)

end Command

end Inlay
