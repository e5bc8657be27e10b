import Inlay.Command.Run

/-!
# The program

The program reads the files that its arguments name into a tree, and prints the answer of
`Command.run`. Only this module does input and output.
-/

namespace Inlay

/-- The names of the directories and the file along an absolute path. -/
def placeOf (path : String) : Files.Place :=
  (Text.splitOn ['/'] path.toList).filterMap fun s =>
    if s.isEmpty then none else some (String.ofList s)

/-- The file or the directory at a path, with all that is below it. -/
partial def readNode (path : String) : IO Node := do
  match ← (IO.FS.readBinFile path).toBaseIO with
  | .ok bytes => return .file bytes
  | .error _ =>
    let entries ← (← IO.FS.realPath path).readDir
    let mut nodes : Dict Node := []
    for entry in entries do
      match ← (readNode entry.path.toString).toBaseIO with
      | .ok n => nodes := nodes.insert entry.fileName n
      | .error _ => pure ()
    return .directory nodes

/-- The tree with what is found at a path. What is not found is left out. -/
def addPath (files : Files) (path : String) : IO Files := do
  match ← (do
      let real := (← IO.FS.realPath path).toString
      return (placeOf real, ← readNode real) : IO (Files.Place × Node)).toBaseIO with
  | .ok (place, n) => return { files with top := Files.put n place files.top }
  | .error _ => return files

/-- The files that a command reads. -/
def gather (files : Files) (command : Command) : IO Files := do
  let (target, paths) := match command with
    | .render t vars _ => (t, t.settings.toList ++ vars.toList)
    | .check t => (t, t.settings.toList)
  let files ← paths.foldlM addPath files
  match Command.settings files target with
  | .error _ => return files
  | .ok s =>
    let root := Command.rootOf target s
    match command with
    | .render .. => addPath files root
    | .check t => addPath files (Files.join root t.path)

end Inlay

open Inlay in
def main (args : List String) : IO UInt32 := do
  let answer ← match Command.read args with
    | .error r => pure (some (Command.refuse r))
    | .ok command => do
      let here := placeOf (← IO.currentDir).toString
      let files ← gather ⟨Files.put (.directory []) here [], here⟩ command
      pure (command.run files ampleFuel)
  match answer with
  | none => return 1
  | some a =>
    IO.print a.stdout
    IO.eprint a.stderr
    return UInt32.ofNat a.exit
