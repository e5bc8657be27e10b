import Inlay.Dict
import Inlay.Word

/-!
# Values

The values of template variables and expressions. Integers are words of 64 bits, maps have texts
for keys, and a function is one of the built-in functions, a method together with the value that it
belongs to, or a function of the host, which has a name of its own and is known to the host by a
number. Two functions are equal when they are the same function, which their `Identity` tells.

* `Value`: the type, with `typeName`, `truthy` and the partial views `asText?`, `asInt?`,
  `asFloat?`.
-/

namespace Inlay

/-- The functions that every template sees. -/
inductive Builtin where
  | str | int | float | bool | len | list | min | max | abs | upper | lower | join | range
  deriving DecidableEq, Repr

/-- The methods of texts. -/
inductive TextMethod where
  | upper | lower | strip | startsWith | endsWith | replace | split | join
  deriving DecidableEq, Repr

/-- The methods of maps. -/
inductive MapMethod where
  | keys | values | items | get
  deriving DecidableEq, Repr

/-- What makes a function itself: the name of a built-in function, or the order in which functions
were handed in with the variables or made by looking up a method. -/
inductive Identity where
  | builtin (b : Builtin)
  | given (serial : Nat)
  | made (serial : Nat)
  deriving DecidableEq, Repr

/-- What a function does: a built-in function under a bound on the length of what it builds, a method
of a text or of a map, or whatever the host does under a number. -/
inductive Routine (α : Type) where
  | builtin (b : Builtin) (limit : Nat)
  | ofText (m : TextMethod) (receiver : String)
  | ofMap (m : MapMethod) (receiver : List (String × α))
  | host (name : String) (number : Nat)

/-- A value. -/
inductive Value where
  | nothing
  | bool (b : Bool)
  | int (n : Int64)
  | float (x : Float)
  | str (s : String)
  | list (items : List Value)
  | map (entries : List (String × Value))
  | function (identity : Identity) (routine : Routine Value)

instance : Inhabited Value := ⟨.nothing⟩

/-- Variables by name. -/
abbrev Vars := Dict Value

/-- The name under which a built-in function is found. -/
def Builtin.name : Builtin → String
  | str => "str"
  | int => "int"
  | float => "float"
  | bool => "bool"
  | len => "len"
  | list => "list"
  | min => "min"
  | max => "max"
  | abs => "abs"
  | upper => "upper"
  | lower => "lower"
  | join => "join"
  | range => "range"

/-- Every built-in function, in the order of the names. -/
def Builtin.all : List Builtin :=
  [abs, bool, float, int, join, len, list, lower, max, min, range, str, upper]

/-- The built-in function of a name. -/
def Builtin.ofName? (name : String) : Option Builtin :=
  Builtin.all.find? fun b => b.name == name

def TextMethod.name : TextMethod → String
  | upper => "upper"
  | lower => "lower"
  | strip => "strip"
  | startsWith => "startswith"
  | endsWith => "endswith"
  | replace => "replace"
  | split => "split"
  | join => "join"

/-- The method of texts with a name. -/
def TextMethod.ofName? (name : String) : Option TextMethod :=
  [upper, lower, strip, startsWith, endsWith, replace, split, join].find? fun m => m.name == name

def MapMethod.name : MapMethod → String
  | keys => "keys"
  | values => "values"
  | items => "items"
  | get => "get"

/-- The method of maps with a name. -/
def MapMethod.ofName? (name : String) : Option MapMethod :=
  [keys, values, items, get].find? fun m => m.name == name

/-- The name that a function shows. -/
def Routine.name {α : Type} : Routine α → String
  | builtin b _ => b.name
  | ofText m _ => m.name
  | ofMap m _ => m.name
  | host name _ => name

/-- What is shown of a function. -/
def Routine.text {α : Type} (r : Routine α) : String :=
  s!"<function {r.name}>"

namespace Value

/-- The type of a value, as templates name it. -/
def typeName : Value → String
  | nothing => "none"
  | bool _ => "bool"
  | int _ => "int"
  | float _ => "float"
  | str _ => "str"
  | list _ => "list"
  | map _ => "map"
  | function .. => "function"

/-- Does the value count as true in a condition? -/
def truthy : Value → Bool
  | nothing => false
  | bool b => b
  | int n => n != 0
  | float x => x != 0.0
  | str s => !s.isEmpty
  | list items => !items.isEmpty
  | map entries => !entries.isEmpty
  | function .. => true

/-- The text, of a text. -/
def asText? : Value → Option String
  | str s => some s
  | _ => none

/-- The word that a truth value counts as. -/
def ofTruth (b : Bool) : Int64 :=
  if b then 1 else 0

/-- The integer, of an integer or a truth value. -/
def asInt? : Value → Option Int64
  | int n => some n
  | bool b => some (ofTruth b)
  | _ => none

/-- The float, of a number or a truth value. -/
def asFloat? : Value → Option Float
  | int n => some (floatOfWord n)
  | float x => some x
  | bool b => some (if b then 1.0 else 0.0)
  | _ => none

/-- The built-in function as every template sees it. -/
def ofBuiltin (limit : Nat) (b : Builtin) : Value :=
  function (.builtin b) (.builtin b limit)

end Value

end Inlay
