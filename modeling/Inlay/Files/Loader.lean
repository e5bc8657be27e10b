import Inlay.Files.Basic
import Inlay.Finder

/-!
# Templates in a directory

A loader that reads templates below a directory, the root. What a path leads to counts as a
template only if it is below the root, however the path is written.

* `Files.loader`: the loader of a root.
-/

namespace Inlay

/-- The error of a path that leads nowhere. -/
def FileFault.toError (path candidate : String) : FileFault → Error
  | missing => .absent path .missing
  | _ => .unreadable candidate

/-- A place as an absolute path. -/
def Files.Place.path (p : Files.Place) : String :=
  "/" ++ "/".intercalate p

/-- The loader of the templates below a root. -/
def Files.loader (files : Files) (root : Files.Place) : Loader := fun path =>
  match files.locateFrom root path.toList with
  | .error f => .error (f.toError path (Files.join root.path path))
  | .ok place =>
    if root.isPrefixOf place then
      match files.content place with
      | .ok bytes => .ok bytes
      | .error _ => .error (.unreadable place.path)
    else .error (.absent path .outsideRoot)

end Inlay
