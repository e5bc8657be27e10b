import Inlay.Error

/-!
# Template paths

A path names a template by its segments, between which stand slashes or backslashes. A path that a
template writes is relative to the directory of that template, unless it begins with a separator.
Resolving a path walks its segments from that directory: empty segments and `.` stay, `..` goes up,
and any other segment goes down. No path leads above the root.

* `Path.segments`: the segments of a path.
* `Path.walk?`: the walk, on a stack of segments.
* `Path.resolve`: a path made into the segments from the root, with slashes between them.
-/

namespace Inlay.Path

def isSeparator (c : Char) : Bool :=
  c == '/' || c == '\\'

/-- The segments of a path: the pieces between its separators. -/
def segments : List Char → List (List Char)
  | [] => [[]]
  | c :: rest =>
    if isSeparator c then [] :: segments rest
    else Text.consPiece c (segments rest)

/-- The segments of the directory that a template with this path stands in. -/
def directory (path : List Char) : List (List Char) :=
  (segments path).dropLast

/-- Walks along segments from a place, which is a stack of segments with the innermost one first.
There is no way up from the root. -/
def walk? (place : List (List Char)) : List (List Char) → Option (List (List Char))
  | [] => some place
  | s :: rest =>
    if s.isEmpty || s == ['.'] then walk? place rest
    else if s == ['.', '.'] then
      match place with
      | [] => none
      | _ :: up => walk? up rest
    else walk? (s :: place) rest

/-- The place that a walk along the path begins at. -/
def startOf (path : List Char) (origin : Option (List Char)) : List (List Char) :=
  match path with
  | c :: _ => if isSeparator c then [] else fromOrigin
  | [] => fromOrigin
where
  /-- The directory of the template that writes the path. -/
  fromOrigin : List (List Char) := (origin.elim [] directory).reverse

/-- The place as a path from the root. -/
def join (place : List (List Char)) : List Char :=
  ['/'].intercalate place.reverse

/-- The path from the root that a path written in the template `origin` means. -/
def resolve (path : String) (origin : Option String) : Except Absence String :=
  match walk? (startOf path.toList (origin.map String.toList)) (segments path.toList) with
  | none => .error .escapesRoot
  | some [] => .error .namesNoFile
  | some place => .ok (String.ofList (join place))

end Inlay.Path
