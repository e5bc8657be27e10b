import Inlay.Statement.Nesting
import Inlay.Program.Compile

/-!
# Templates

A template is a source with the tree that it parses to and the path that names it in errors.

* `Template.parse`: a template from its source.
* `Template.decode`: a template from the bytes of its source.
* `Template.compile`: its program.
* `Template.varsOf`: the variables that some data stands for.
-/

namespace Inlay

/-- A parsed template. -/
structure Template where
  path : String
  source : String
  document : Document
  /-- Which of the templates found so far this one is; templates that were not found share zero. -/
  serial : Nat

namespace Template

/-- The template of a source. -/
def parse (config : Config) (path source : String) : Except Error Template := do
  let document ← Document.parse config path source.toList
  return ⟨path, source, document, 0⟩

/-- The template of a source in the encoding of the configuration. -/
def decode (config : Config) (path : String) (bytes : ByteArray) : Except Error Template :=
  match config.sourceEncoding.decode? bytes with
  | some source => parse config path source
  | none => .error (.undecodable path config.sourceEncoding)

/-- The names of the blocks that the template defines, in order. -/
def blockNames (t : Template) : List String :=
  t.document.blocks.keys

/-- The program of the template. -/
def compile (t : Template) : Except Error Program :=
  t.document.compile t.path

/-- The variables that some data stands for. -/
def varsOf : Value → Except Error Vars
  | .map vars => .ok vars
  | v => .error (.fault (.variablesNotMap v.typeName))

/-- A template described by its path, and by whether its program has been asked for. -/
def describe (t : Template) (compiled : Bool) : String :=
  s!"Template \x7b path: {t.path.quoted}, compiled: {compiled} \x7d"

end Template

end Inlay
