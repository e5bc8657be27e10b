import Inlay.Config
import Inlay.Toml.Reader

/-!
# Settings

The part of a configuration that a settings text gives: a table `engine` whose entries are all
optional. An entry that is no setting, or has a value of the wrong kind, spoils the text. The table
may also be a list of the values in the order of the settings.

* `Settings.read`: the settings of a text.
* `Settings.toConfig`: the configuration that they make.
-/

namespace Inlay

/-- What a settings text may set. -/
structure Settings where
  cache : Bool
  defaultEscape : String
  sourceEncoding : SourceEncoding
  /-- The directory that template paths start from. -/
  root : Option String
  /-- The bound on texts and lists. -/
  limit : Nat

/-- The encoding with a name. -/
def SourceEncoding.ofName? (name : String) : Option SourceEncoding :=
  if ["utf-8", "utf8"].contains name then some .utf8
  else if ["latin-1", "latin1", "iso-8859-1"].contains name then some .latin1
  else none

namespace Settings

/-- What a text without entries sets. -/
def default : Settings :=
  ⟨true, "html", .utf8, none, Config.defaultLimit⟩

/-- The encoding that a value names: by a text, or by the only key of a table if nothing is under
that key. -/
def encodingOf? : Toml.Datum → Option SourceEncoding
  | .text name => SourceEncoding.ofName? name
  | .table _ [(name, .table _ [])] => SourceEncoding.ofName? name
  | .table _ [(name, .list [])] => SourceEncoding.ofName? name
  | _ => none

/-- The settings with one of them set, by its name. -/
def set? (s : Settings) (name : String) (v : Toml.Datum) : Option Settings :=
  match name, v with
  | "cache", .truth b => some { s with cache := b }
  | "default_escape", .text name => some { s with defaultEscape := name }
  | "source_encoding", v => (encodingOf? v).map fun e => { s with sourceEncoding := e }
  | "root", .text path => some { s with root := some path }
  | "max_sequence_len", .integer n =>
    if n < 0 then none else some { s with limit := n.toInt.toNat }
  | _, _ => none

/-- The names of the settings, in order. -/
def names : List String :=
  ["cache", "default_escape", "source_encoding", "root", "max_sequence_len"]

/-- Sets one setting after the other. -/
def setAll? : Settings → List (String × Toml.Datum) → Option Settings
  | s, [] => some s
  | s, (name, v) :: rest => s.set? name v >>= fun s => setAll? s rest

/-- The settings of the value of `engine`. -/
def ofEngine? : Toml.Datum → Option Settings
  | .table _ entries => setAll? default entries
  | .list items => setAll? default (names.zip items)
  | _ => none

/-- The settings of a table. -/
def ofTable? : Toml.Table → Option Settings
  | [] => some default
  | [("engine", v)] => ofEngine? v
  | _ => none

/-- The settings of a text. -/
def read (s : String) : Except ConfigFault Settings :=
  match Toml.read? s.toList >>= ofTable? with
  | some settings => .ok settings
  | none => .error .badSettings

/-- The configuration that the settings make. -/
def toConfig (s : Settings) : Config :=
  { Config.default with
    cache := s.cache
    defaultEscape := s.defaultEscape
    sourceEncoding := s.sourceEncoding }.withLimit s.limit

/-- The configuration that the settings make, if it can be used. -/
def toConfig? (s : Settings) : Except ConfigFault Config := do
  s.toConfig.check
  return s.toConfig

end Settings

end Inlay
