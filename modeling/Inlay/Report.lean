import Inlay.Error
import Inlay.Text.Position

/-!
# Reports

What a reader is shown of an error that points into the source of a template: a headline, and the
line and the column at which the place begins in the text that the reader has.

* `Error.headline?`: the message of such an error without its place.
* `Error.report?`: the report against a text.
-/

namespace Inlay

/-- A line and a column of a file. -/
structure Location where
  file : String
  line : Nat
  column : Nat
  deriving DecidableEq, Repr

/-- An error as it is shown. -/
structure Report where
  headline : String
  /-- Where the error is; in an empty text it is nowhere. -/
  location : Option Location
  deriving DecidableEq, Repr

def Location.text (l : Location) : String :=
  s!"{l.file}:{l.line}:{l.column}"

/-- The text of a report. -/
def Report.text (r : Report) : String :=
  let place := r.location.elim "" fun l => s!"  at {l.text}\n"
  s!"Error: {r.headline}\n{place}"

/-- The location of an offset in a text. An offset that is no boundary between characters of the
text counts as its start. -/
def Location.ofOffset (file : String) (offset : Nat) (s : List Char) : Option Location :=
  if s.isEmpty then none
  else
    let (line, column) := Text.position ((Text.charsBefore? offset s).getD 0) s
    some ⟨file, line, column⟩

namespace Error

/-- The message, without its place, of an error that has one. -/
def headline? : Error → Option String
  | malformed why _ => some why.message
  | unknownStatement statement _ => some s!"unknown statement {statement.quoted}"
  | blockConflict name firstLine _ =>
    some s!"block `{name}` is already defined at line {firstLine}"
  | _ => none

/-- The report of an error against the text that its place points into. -/
def report? (e : Error) (source : String) : Option Report := do
  let headline ← e.headline?
  let place ← e.place?
  return ⟨headline, Location.ofOffset place.file place.span.start source.toList⟩

end Error

end Inlay
