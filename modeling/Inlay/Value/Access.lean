import Inlay.Fault
import Inlay.Value.Text
import Inlay.Text.Blank
import Inlay.Text.Search
import Inlay.Text.Case

/-!
# Items, members and methods of values

* `Value.items`: what a loop over a value runs through.
* `Value.index`: the item at a position or under a key.
* `Value.member`: a member of a map or a method of a text or map.
* `TextMethod.call`, `MapMethod.call`: what the methods do. They ignore arguments that they do not
  ask for.
-/

namespace Inlay

namespace Value

/-- What a loop over the value runs through: the items of a list, the keys of a map, the characters
of a text. -/
def items : Value → Except Fault (List Value)
  | list items => .ok items
  | map entries => .ok (entries.map fun (key, _) => str key)
  | str s => .ok (s.toList.map fun c => str (String.singleton c))
  | v => .error (.notIterable v.typeName)

/-- The item at a position, counted from the end if it is negative. -/
def itemAt? {α : Type} (items : List α) (i : Int64) : Option α :=
  let position := if i < 0 then i.toInt + items.length else i.toInt
  if position < 0 then none else items[position.toNat]?

/-- The item of a container at an index. -/
def index : Value → Value → Except Fault Value
  | list items, int i => match itemAt? items i with
    | some v => .ok v
    | none => .error .listIndex
  | str s, int i => match itemAt? s.toList i with
    | some c => .ok (str (String.singleton c))
    | none => .error .textIndex
  | map entries, str key => match Dict.get? key entries with
    | some v => .ok v
    | none => .error (.missingKey key)
  | map _, other => .error (.missingKey other.text)
  | container, i => .error (.notSubscriptable container.typeName i.typeName)

/-- The method of a value with a name, as a function of its own. -/
def method? (serial : Nat) (receiver : Value) (name : String) : Option Value :=
  match receiver with
  | str s => (TextMethod.ofName? name).map fun m => function (.made serial) (.ofText m s)
  | map entries => (MapMethod.ofName? name).map fun m => function (.made serial) (.ofMap m entries)
  | _ => none

/-- A member or method: the entry of a map comes before its methods. The serial number is the
identity of a method looked up. -/
def member (serial : Nat) (v : Value) (name : String) : Except Fault Value :=
  let entry := match v with
    | map entries => Dict.get? name entries
    | _ => none
  match entry <|> method? serial v name with
  | some found => .ok found
  | none => .error (.noAttribute v.typeName name)

/-- An argument that must be a text. -/
def textArgument (method : String) (args : List Value) (at_ : Nat) : Except Fault String :=
  match args[at_]? >>= asText? with
  | some s => .ok s
  | none => .error (.argumentNotText method (at_ + 1))

/-- The texts of the values with a separator between them. -/
def joined (separator : String) (items : List Value) : Value :=
  str (separator.intercalate (items.map text))

/-- A list of texts. -/
def ofTexts (parts : List (List Char)) : Value :=
  list (parts.map fun part => str (String.ofList part))

end Value

open Value

/-- What a method of a text does. -/
def TextMethod.call (m : TextMethod) (receiver : String) (args : List Value) :
    Except Fault Value :=
  match m with
  | .upper => .ok (str (String.ofList (Text.upper receiver.toList)))
  | .lower => .ok (str (String.ofList (Text.lower receiver.toList)))
  | .strip => .ok (str (String.ofList (Text.trim receiver.toList)))
  | .startsWith => do
    let start ← textArgument m.name args 0
    return bool (start.toList.isPrefixOf receiver.toList)
  | .endsWith => do
    let ending ← textArgument m.name args 0
    return bool (Text.endsWith ending.toList receiver.toList)
  | .replace => do
    let old ← textArgument m.name args 0
    let new ← textArgument m.name args 1
    return str (String.ofList (Text.replace old.toList new.toList receiver.toList))
  | .split => match args with
    | [] => .ok (ofTexts (Text.words receiver.toList))
    | str separator :: _ => .ok (ofTexts (Text.splitOn separator.toList receiver.toList))
    | _ => .error .separatorNotText
  | .join => do
    return joined receiver (← (args.headD Value.nothing).items)

/-- What a method of a map does. -/
def MapMethod.call (m : MapMethod) (receiver : List (String × Value)) (args : List Value) :
    Except Fault Value :=
  match m with
  | .keys => .ok (list (receiver.map fun (key, _) => str key))
  | .values => .ok (list (receiver.map (·.2)))
  | .items => .ok (list (receiver.map fun (key, v) => list [str key, v]))
  | .get => do
    let key ← textArgument m.name args 0
    return (Dict.get? key receiver).getD ((args[1]?).getD Value.nothing)

end Inlay
