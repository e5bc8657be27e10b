import Inlay.Dict

/-!
# Tables of a TOML text

A TOML text builds a table of tables, entry by entry. How a table came about decides who may still
add to it: a header opens a table that no other header has opened, a dotted key goes through tables
that dotted keys have made, and a table written in braces is closed.

Floats, dates and arrays of tables are left out: nothing here reads them.

* `Datum`, `Table`: what a text holds.
* `Table.addDotted`, `Table.openHeader`, `Table.addBelow`: the ways to build a table.
-/

namespace Inlay.Toml

/-- How a table came about. -/
inductive Origin where
  /-- A header names it. -/
  | header
  /-- A header names a table in it. -/
  | implied
  /-- A dotted key leads through it. -/
  | dotted
  /-- It is written in braces. -/
  | closed
  deriving DecidableEq, Repr

/-- What a key stands for. -/
inductive Datum where
  | text (s : String)
  | integer (n : Int64)
  | truth (b : Bool)
  | list (items : List Datum)
  | table (origin : Origin) (entries : List (String × Datum))

/-- The entries of a table, by their keys. -/
abbrev Table : Type := Dict Datum

namespace Table

/-- Adds an entry under a key that is new. -/
def add (key : String) (v : Datum) (t : Table) : Option Table :=
  if Dict.contains key t then none else some (Dict.insert key v t)

/-- Adds an entry under a dotted key. All tables on the way are made by dotted keys, but for those
before the last one, which may stand above a table with a header. -/
def addDotted (v : Datum) : List String → Table → Option Table
  | [], _ => none
  | [key], t => add key v t
  | name :: keys, t =>
    match Dict.get? name t with
    | none => (addDotted v keys []).map fun inner => Dict.insert name (.table .dotted inner) t
    | some (.table origin inner) =>
      if origin = .dotted ∨ origin = .implied ∧ keys.length ≠ 1 then
        (addDotted v keys inner).map fun inner => Dict.insert name (.table origin inner) t
      else none
    | some _ => none

/-- Opens the table that a header names, unless there is one already. A table that was only implied
by another header is opened as it is. -/
def openHeader : List String → Table → Option Table
  | [], _ => none
  | [name], t =>
    match Dict.get? name t with
    | none => some (Dict.insert name (.table .header []) t)
    | some (.table .implied inner) => some (Dict.insert name (.table .header inner) t)
    | some _ => none
  | name :: names, t =>
    match Dict.get? name t with
    | none => (openHeader names []).map fun inner => Dict.insert name (.table .implied inner) t
    | some (.table .closed _) => none
    | some (.table origin inner) =>
      (openHeader names inner).map fun inner => Dict.insert name (.table origin inner) t
    | some _ => none

/-- Adds an entry under a dotted key to the table that a header names. -/
def addBelow (keys : List String) (v : Datum) : List String → Table → Option Table
  | [], t => addDotted v keys t
  | name :: names, t =>
    match Dict.get? name t with
    | some (.table origin inner) =>
      (addBelow keys v names inner).map fun inner => Dict.insert name (.table origin inner) t
    | _ => none

end Table

end Inlay.Toml
