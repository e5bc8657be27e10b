import Inlay.Finder
import Inlay.Render.Action
import Inlay.Render.BlockTable

/-!
# What a rendering knows

* `Space`: one template while it is rendered: its variables, its blocks, its parent.
* `Frame`: one run of its body or of a block.
* `World`: a space with the templates found so far; expressions are evaluated in it.
* `Scene`: a world with a frame; steps run in it.
-/

namespace Inlay

/-- A template that is about to be rendered, and how many templates led to it. -/
structure Draft where
  template : Template
  program : Program
  depth : Nat

/-- A template while it is rendered. -/
structure Space where
  template : Template
  program : Program
  globals : Vars
  /-- What the child wrote that this template is the parent of. -/
  body : Option String
  parent : Option Draft
  blocks : BlockTable
  stage : Stage
  output : String
  depth : Nat

/-- The space of a template that has not been rendered. -/
def Draft.toSpace (d : Draft) (globals : Vars) : Space where
  template := d.template
  program := d.program
  globals := globals
  body := none
  parent := none
  blocks := .ofProgram d.program
  stage := .fresh
  output := ""
  depth := d.depth

/-- The space of a template on its own. -/
def Space.ofTemplate (t : Template) (globals : Vars) : Except Error Space := do
  return Draft.toSpace ⟨t, ← t.compile, 0⟩ globals

def Space.path (s : Space) : String :=
  s.template.path

/-- How a list of steps ends: at its end, or at a step that leaves the loop or its turn. -/
inductive Flow where
  | normal
  | breakLoop
  | continueLoop
  deriving DecidableEq, Repr

/-- One run of a body or of a block. -/
structure Frame where
  locals : Vars
  /-- The names that are bound in the space and not in the frame. -/
  declaredGlobal : List String
  /-- What has been written. -/
  buffer : String
  /-- The block that is run, and which program of its chain. -/
  block : Option (String × Nat)
  /-- The fault that an `except` clause is handling. -/
  handling : Option Fault

namespace Frame

/-- The frame of a body. -/
def ofBody : Frame :=
  ⟨[], [], "", none, none⟩

/-- The frame of a block. -/
def ofBlock (name : String) (depth : Nat) : Frame :=
  { ofBody with block := some (name, depth) }

/-- Is the name bound in the space? -/
def isGlobal (f : Frame) (name : String) : Bool :=
  f.declaredGlobal.contains name

end Frame

/-- A space, the templates found so far, and the number of functions made so far. -/
structure World where
  space : Space
  finder : Finder
  made : Nat

/-- A world with the frame of a run. -/
structure Scene where
  world : World
  frame : Frame

namespace Scene

/-- An action on the world that may look at the frame. -/
def inWorld {α : Type} (x : Frame → Action World α) : Action Scene α := fun s =>
  Action.focus Scene.world (fun w s => { s with world := w }) (x s.frame) s

/-- Binds a name, in the frame or, if it is declared global there, in the space. -/
def bind (name : String) (v : Value) (s : Scene) : Scene :=
  if s.frame.isGlobal name then
    { s with world.space.globals := s.world.space.globals.insert name v }
  else { s with frame.locals := s.frame.locals.insert name v }

/-- Writes text. Only a template that is being drawn writes. -/
def write (text : String) : Action Scene Unit := fun s =>
  if s.world.space.stage = .drawing then
    .done () { s with frame.buffer := s.frame.buffer ++ text }
  else .failed (.render (.notDrawing s.world.space.path s.world.space.stage)) s

end Scene

end Inlay
