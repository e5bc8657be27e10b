import Inlay.Dict
import Inlay.Program.Basic

/-!
# Blocks and their overrides

A template that is rendered knows a chain of programs for each of its blocks, the most derived one
first; the last one is its own. When a template inherits a parent, its chains go in front of those
of the parent. Blocks that the parent does not define are dropped.

* `BlockTable.ofProgram`, `BlockTable.get?`, `BlockTable.declares`.
* `BlockTable.override`: the table of a parent with the chains of a child.
-/

namespace Inlay

/-- The chain of programs of each block. -/
abbrev BlockTable : Type := Dict (List BlockProgram)

namespace BlockTable

/-- The blocks of a program, each with its own definition only. -/
def ofProgram (p : Program) : BlockTable :=
  p.blocks.mapEntries fun _ b => [b]

/-- Does the table have a block of this name? -/
def declares (t : BlockTable) (name : String) : Bool :=
  Dict.contains name t

/-- The program so many steps behind the most derived one. -/
def get? (t : BlockTable) (name : String) (depth : Nat) : Option BlockProgram :=
  Dict.get? name t >>= fun chain => chain[depth]?

/-- The table of a parent with the chains of a child in front of its own. -/
def override (parent child : BlockTable) : BlockTable :=
  Dict.mapEntries (fun name chain => (Dict.get? name child).getD [] ++ chain) parent

end BlockTable

end Inlay
