import Inlay.Filter
import Inlay.Value.Call

/-!
# Configuration

What an engine is configured with: how the bytes of templates are read, which filters output
statements may name, which kinds of statements there are and in which order they are tried, and
which modules can be imported.

* `SourceEncoding.decode?`: bytes as text.
* `Grammar`: the kinds of statements.
* `Config`: the settings, `Config.withLimit` and the other changes of one setting, `Config.filter?`,
  `Config.builtin?`, `Config.check`.
-/

namespace Inlay

/-- How the bytes of a template are read. -/
inductive SourceEncoding where
  | utf8
  | latin1
  deriving DecidableEq, Repr

namespace SourceEncoding

def name : SourceEncoding → String
  | utf8 => "utf-8"
  | latin1 => "latin-1"

/-- The text of the bytes, if they have one. In Latin-1 every byte is the character of its
number. -/
def decode? : SourceEncoding → ByteArray → Option String
  | utf8, bytes => String.fromUTF8? bytes
  | latin1, bytes => some (String.ofList (bytes.toList.map fun b => Char.ofNat b.toNat))

end SourceEncoding

/-- A kind of statement that a template may use. -/
inductive Grammar where
  | block | inclusion | inheritance | opening | ending | clause | inline | comment | output
  | assignment
  deriving DecidableEq, Repr

/-- Every kind of statement, fixed keywords before output statements before assignments. -/
def Grammar.defaultOrder : List Grammar :=
  [block, inclusion, inheritance, opening, ending, clause, inline, comment, output, assignment]

/-- What is wrong with a configuration. -/
inductive ConfigFault where
  | noDefaultFilter (name : String)
  | noGrammars
  /-- The settings are no text in their format, or name what is no setting. -/
  | badSettings
  deriving DecidableEq, Repr

def ConfigFault.message : ConfigFault → String
  | noDefaultFilter name => s!"default escape `{name}` is not a registered filter"
  | noGrammars => "no statement grammars configured"
  | badSettings => "the settings cannot be read"

/-- The settings that all templates of one engine share. -/
structure Config where
  sourceEncoding : SourceEncoding
  /-- The filter of output statements that name none. -/
  defaultEscape : String
  filters : Dict (Value → List Char)
  grammars : List Grammar
  /-- Is a template kept once it has been found? -/
  cache : Bool
  modules : Dict Vars
  /-- The bound on texts and lists that operators build. -/
  limit : Nat
  /-- The bound on lists that `range` builds. -/
  rangeLimit : Nat
  /-- What the functions do that come with the variables and the modules. -/
  host : Host

namespace Config

/-- The bound on sequences of a configuration that sets none. -/
def defaultLimit : Nat :=
  0x1000000

def default : Config where
  sourceEncoding := .utf8
  defaultEscape := "html"
  filters := Filter.builtins
  grammars := Grammar.defaultOrder
  cache := true
  modules := []
  limit := defaultLimit
  rangeLimit := defaultLimit
  host := Host.none

/-- The configuration with another encoding of templates. -/
def withSourceEncoding (c : Config) (encoding : SourceEncoding) : Config :=
  { c with sourceEncoding := encoding }

/-- The configuration with another filter for output statements that name none. -/
def withDefaultEscape (c : Config) (name : String) : Config :=
  { c with defaultEscape := name }

/-- The configuration with its grammars in another order, or with other ones. -/
def withGrammars (c : Config) (order : List Grammar) : Config :=
  { c with grammars := order }

/-- The configuration that keeps templates, or does not. -/
def withCache (c : Config) (cache : Bool) : Config :=
  { c with cache := cache }

/-- The configuration with a bound on sequences. -/
def withLimit (c : Config) (limit : Nat) : Config :=
  { c with limit := limit, rangeLimit := limit }

/-- The configuration with a filter under a name, in the place of an older one. -/
def withFilter (c : Config) (name : String) (apply : Value → List Char) : Config :=
  { c with filters := c.filters.insert name apply }

/-- The configuration with a module under a name. -/
def withModule (c : Config) (name : String) (members : Vars) : Config :=
  { c with modules := c.modules.insert name members }

/-- The configuration for a host with functions of its own. -/
def withHost (c : Config) (host : Host) : Config :=
  { c with host := host }

/-- The filter of a name. The name `default` means the default filter, unless a filter has it. -/
def filter? (c : Config) (name : String) : Option (Value → List Char) :=
  match c.filters.get? name with
  | some f => some f
  | none => if name == "default" then c.filters.get? c.defaultEscape else none

/-- The built-in function of a name. -/
def builtin? (c : Config) (name : String) : Option Value :=
  (Builtin.ofName? name).map (Value.ofBuiltin c.rangeLimit)

/-- Can the configuration be used? -/
def check (c : Config) : Except ConfigFault Unit :=
  if (c.filter? "default").isNone then .error (.noDefaultFilter c.defaultEscape)
  else if c.grammars.isEmpty then .error .noGrammars
  else .ok ()

end Config

end Inlay
