import Inlay.Dict
import Inlay.Span
import Inlay.Text.Search

/-!
# Files and directories

A tree of directories and files, and a place in it that relative paths start from. A path is walked
along its segments, between which stand slashes: each segment must be met in a directory, an empty
segment and `.` stay there, and `..` goes up, which at the top of the tree leads nowhere else.

* `Node`, `Files.Place`, `Files`: the tree.
* `Files.locate`: the place that a path leads to. `Files.read`: the content of the file there.
* `Files.write`: the tree with a file at a place.
-/

namespace Inlay

/-- A file or a directory. -/
inductive Node where
  | file (content : ByteArray)
  | directory (entries : List (String × Node))

/-- The names that lead from the top of a tree to a node. -/
abbrev Files.Place : Type := List String

/-- The entries at the top of a tree, and the place of the working directory. -/
structure Files where
  top : Dict Node
  here : Files.Place

/-- Why a path leads to no file. -/
inductive FileFault where
  | missing
  | notDirectory
  | isDirectory
  | badName
  | notText
  deriving DecidableEq, Repr

def FileFault.message : FileFault → String
  | missing => "no such file or directory"
  | notDirectory => "not a directory"
  | isDirectory => "is a directory"
  | badName => "no name of a file"
  | notText => "no text in UTF-8"

/-- The node that names lead to. -/
def Node.at? : Files.Place → Node → Option Node
  | [], n => some n
  | name :: place, .directory entries => Dict.get? name entries >>= at? place
  | _ :: _, .file _ => none

namespace Files

/-- How many bytes the name of a file may have. -/
def maxName : Nat :=
  255

/-- Walks along segments from a place. -/
def walk (top : Dict Node) : Place → List (List Char) → Except FileFault Place
  | place, [] => .ok place
  | place, s :: rest =>
    match (Node.directory top).at? place with
    | none => .error .missing
    | some (.file _) => .error .notDirectory
    | some (.directory entries) =>
      if s.isEmpty || s == ['.'] then walk top place rest
      else if s == ['.', '.'] then walk top place.dropLast rest
      else if maxName < byteLength s then .error .badName
      else if Dict.contains (String.ofList s) entries then
        walk top (place ++ [String.ofList s]) rest
      else .error .missing

/-- Does the path start at the top of the tree? -/
def isAbsolute (path : List Char) : Bool :=
  path.head? == some '/'

/-- The place that a path leads to, from a place unless it is absolute. -/
def locateFrom (files : Files) (start : Place) (path : List Char) : Except FileFault Place :=
  if path.contains '\x00' then .error .badName
  else walk files.top (if isAbsolute path then [] else start) (Text.splitOn ['/'] path)

/-- The place that a path leads to. The empty path leads nowhere. -/
def locate (files : Files) (path : String) : Except FileFault Place :=
  if path.isEmpty then .error .missing else files.locateFrom files.here path.toList

/-- The content of the file at a place. -/
def content (files : Files) (place : Place) : Except FileFault ByteArray :=
  match (Node.directory files.top).at? place with
  | some (.file bytes) => .ok bytes
  | some (.directory _) => .error .isDirectory
  | none => .error .missing

/-- The content of the file that a path leads to. -/
def read (files : Files) (path : String) : Except FileFault ByteArray :=
  files.locate path >>= files.content

/-- The content of the file that a path leads to, as a text. -/
def readText (files : Files) (path : String) : Except FileFault String := do
  match String.fromUTF8? (← files.read path) with
  | some text => return text
  | none => .error .notText

/-- A path behind the path of a directory. -/
def join (directory path : String) : String :=
  if directory.isEmpty || isAbsolute path.toList then path
  else if directory.toList.getLast? == some '/' then directory ++ path
  else s!"{directory}/{path}"

/-- Entries with a node at a place; directories are made on the way. -/
def put (n : Node) : Place → Dict Node → Dict Node
  | [], entries => entries
  | [name], entries => Dict.insert name n entries
  | name :: place, entries =>
    let inner := match Dict.get? name entries with
      | some (.directory inner) => inner
      | _ => []
    Dict.insert name (.directory (put n place inner)) entries

/-- The tree with a file at a place. -/
def write (files : Files) (place : Place) (content : ByteArray) : Files :=
  { files with top := put (.file content) place files.top }

end Files

end Inlay
