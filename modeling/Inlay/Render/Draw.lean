import Inlay.Render.Run

/-!
# Rendering templates

Rendering draws the body of a template. If the body has named a parent, the parent is rendered in
its place: it gets the text drawn as its `body()`, the variables, and the blocks as overrides of its
own. Blocks and templates draw and render further ones, so both go by a bound on how deep this
nests.

* `drawBlock`, `renderSpace`: within a bound.
* `Space.render`, `Template.render`: from outside.
-/

namespace Inlay

/-- Moves the space of the world from one stage to another. -/
def transition (source target : Stage) : Action World Unit := fun w =>
  if w.space.stage = source then .done () { w with space.stage := target }
  else if w.space.stage = .finished then .failed (.render (.finishedBefore w.space.path)) w
  else .failed (.render (.startedBefore w.space.path)) w

/-- Runs steps in a frame of their own; the result is what they write. -/
def runFrame (frame : Frame) (run : Action Scene Flow) : Action World String := fun w =>
  match run ⟨w, frame⟩ with
  | .done _ s => .done s.frame.buffer s.world
  | .failed e s => .failed e s.world
  | .exhausted => .exhausted

/-- The space of a parent when its child has been drawn. -/
def Draft.ofChild (parent : Draft) (child : Space) : Space :=
  { parent.toSpace child.globals with
    body := some child.output
    blocks := (BlockTable.ofProgram parent.program).override child.blocks }

/-- Renders the parent of the space, if it has one, in the place of the space. -/
def renderParent (render : Action World String) : Action World Unit := do
  match (← Action.read).space.parent with
  | none => transition .drawing .finished
  | some parent => do
    Action.update fun w => { w with space.parent := none }
    transition .drawing .inheriting
    let parentSpace := parent.ofChild (← Action.read).space
    Action.update fun w => { w with space.output := "" }
    let text ← inSpace render parentSpace
    Action.update fun w => { w with space.output := text }
    transition .inheriting .finished

mutual

/-- Draws a block of the space, by its name and its place in the chain. -/
def drawBlock (engine : Engine) : Nat → DrawBlock
  | 0 => fun _ _ => Action.stop
  | fuel + 1 => fun name depth => do
    let space := (← Action.read).space
    match space.blocks.get? name depth with
    | none => Action.fail (.render (.noBlock name space.path))
    | some block =>
      let below : Below := ⟨fuel, drawBlock engine fuel, renderSpace engine fuel⟩
      runFrame (.ofBlock name depth) (runAll engine below block.body)

/-- Renders the space of the world. -/
def renderSpace (engine : Engine) : Nat → Action World String
  | 0 => Action.stop
  | fuel + 1 => do
    transition .fresh .drawing
    let below : Below := ⟨fuel, drawBlock engine fuel, renderSpace engine fuel⟩
    let body := (← Action.read).space.program.body
    let text ← runFrame .ofBody (runAll engine below body)
    Action.update fun w => { w with space.output := text }
    renderParent (renderSpace engine fuel)
    return (← Action.read).space.output

end

/-- A space rendered with the templates found so far. -/
def Space.render (engine : Engine) (fuel : Nat) (space : Space) (finder : Finder) :
    Outcome World String :=
  renderSpace engine fuel ⟨space, finder, 0⟩

/-- A bound on the nesting that no rendering reaches in practice. -/
def ampleFuel : Nat :=
  0x1000000000000000

/-- A template rendered with variables: its text or the error, and the templates found after it.
Without a result the rendering has not ended within the bound. -/
def Template.render (engine : Engine) (fuel : Nat) (t : Template) (vars : Vars)
    (finder : Finder) : Option (Except Error String × Finder) :=
  match Space.ofTemplate t vars with
  | .error e => some (.error e, finder)
  | .ok space =>
    match space.render engine fuel finder with
    | .done text w => some (.ok text, w.finder)
    | .failed e w => some (.error e, w.finder)
    | .exhausted => none

/-- A template found by its path and rendered. -/
def Finder.render (config : Config) (loader : Loader) (fuel : Nat) (f : Finder) (path : String)
    (vars : Vars) : Option (Except Error String × Finder) :=
  match f.find config loader path none with
  | (.error e, f) => some (.error e, f)
  | (.ok t, f) => t.render ⟨config, .loader loader⟩ fuel vars f

end Inlay
