import Inlay.Path
import Inlay.Template

/-!
# Finding templates

An engine finds templates by their paths. The bytes of a source come from a loader, which knows
only paths from the root. With caching on, a template once found is found again as it is; what was
not found, or is malformed, leaves no trace.

* `Loader`, `Loader.ofDict`: where bytes come from.
* `Engine`: a configuration with a loader, or without one.
* `Finder`: the templates found so far, `Finder.find`.
-/

namespace Inlay

/-- The bytes under a path from the root. -/
abbrev Loader : Type := String → Except Error ByteArray

/-- The key under which sources in memory are kept: the path as templates would resolve it. -/
def Loader.key (path : String) : String :=
  match Path.resolve path none with
  | .ok key => key
  | .error _ => path

/-- A loader of sources in memory. -/
def Loader.ofDict (sources : Dict ByteArray) : Loader := fun path =>
  match sources.get? path with
  | some bytes => .ok bytes
  | none => .error (.absent path .missing)

/-- Where templates that name other templates have them looked up. -/
inductive Shelf where
  | loader (load : Loader)
  /-- There never was anything to look templates up in. -/
  | absent
  /-- There was, but it is gone. -/
  | gone

/-- What templates are rendered with. -/
structure Engine where
  config : Config
  shelf : Shelf

/-- The templates found so far: those kept, by their paths, and the number of all that were made. -/
structure Finder where
  cache : Dict Template
  made : Nat

namespace Finder

/-- Nothing found yet. -/
def empty : Finder :=
  ⟨[], 0⟩

/-- Makes the template under a path from the root. -/
def load (config : Config) (loader : Loader) (f : Finder) (key : String) :
    Except Error Template × Finder :=
  match loader key >>= Template.decode config key with
  | .error e => (.error e, f)
  | .ok t =>
    let t := { t with serial := f.made + 1 }
    (.ok t, ⟨if config.cache then f.cache.insert key t else f.cache, f.made + 1⟩)

/-- Finds the template that a path means in the template `origin`. -/
def find (config : Config) (loader : Loader) (f : Finder) (path : String)
    (origin : Option String) : Except Error Template × Finder :=
  match Path.resolve path origin with
  | .error why => (.error (.absent path why), f)
  | .ok key =>
    match if config.cache then f.cache.get? key else none with
    | some t => (.ok t, f)
    | none => f.load config loader key

end Finder

end Inlay
