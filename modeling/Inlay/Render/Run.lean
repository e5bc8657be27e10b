import Inlay.Render.Eval

/-!
# Running steps

Steps run in a scene. What goes beyond the structure of a list of steps is a parameter: drawing a
block, rendering an included template, and the number of turns that a `while` may take.

* `Space.spawn`: a template found from the space.
* `Below`: the parameter.
* `Step.run`, `Step.runAll`: steps and lists of steps.
-/

namespace Inlay

/-- How many templates may lead to a template. -/
def maxDepth : Nat :=
  64

/-- What steps ask for that goes beyond their structure. -/
structure Below where
  /-- The turns that a `while` may take. -/
  turns : Nat
  /-- Draws a block of the space. -/
  draw : DrawBlock
  /-- Renders the space of the world, which is fresh. -/
  render : Action World String

/-! ## Other templates -/

/-- The template that a path means in the template of the space, ready to be rendered. -/
def spawn (engine : Engine) (path : String) : Action World Draft := fun w =>
  let space := w.space
  if maxDepth ≤ space.depth then
    .failed (.render (.tooDeep path space.path maxDepth)) w
  else match engine.shelf with
    | .absent => .failed (.render (.noFinder path space.path false)) w
    | .gone => .failed (.render (.noFinder path space.path true)) w
    | .loader load =>
      let (found, finder) := w.finder.find engine.config load path (some space.path)
      let w := { w with finder := finder }
      match found with
      | .error e => .failed e w
      | .ok t => match t.compile with
        | .error e => .failed e w
        | .ok program => .done ⟨t, program, space.depth + 1⟩ w

/-- Another space rendered, and the space of the world kept. -/
def inSpace (render : Action World String) (space : Space) : Action World String :=
  Action.focus (fun w => { w with space := space }) (fun t w => { t with space := w.space }) render

/-- Renders the template that a path means. It sees the variables of the space as they are. -/
def include_ (engine : Engine) (below : Below) (path : String) : Action World String := do
  let draft ← spawn engine path
  inSpace below.render (draft.toSpace (← Action.read).space.globals)

/-- Makes the template that a path means the parent of the space. -/
def inherit_ (engine : Engine) (frame : Frame) (path : String) : Action World Unit := do
  let space := (← Action.read).space
  if frame.block.isSome then Action.fail (.render (.inheritInBlock space.path))
  else if space.parent.isSome then Action.fail (.render (.secondParent space.path))
  else
    let draft ← spawn engine path
    Action.update fun w => { w with space.parent := some draft }

/-! ## Binding -/

/-- Binds names to values, one to one. -/
def bindEach : List String → List Value → Scene → Scene
  | name :: names, v :: values, s => bindEach names values (s.bind name v)
  | _, _, s => s

/-- Binds targets: a single one to the value, several ones to its items. -/
def bindTargets (targets : List String) (v : Value) : Action Scene Unit :=
  match targets with
  | [target] => Action.update (·.bind target v)
  | targets => do
    let items ← Action.ofFault v.items
    if items.length < targets.length then
      Action.fail (.fault (.tooFewValues targets.length items.length))
    else if targets.length < items.length then
      Action.fail (.fault (.tooManyValues targets.length))
    else Action.update (bindEach targets items)

/-- The members of a module. -/
def membersOf (config : Config) (module : String) : Action Scene Vars :=
  match config.modules.get? module with
  | some members => pure members
  | none => Action.fail (.fault (.noModule module))

/-- Binds members of a module, one after the other. -/
def bindMembers (module : String) (members : Vars) :
    List (String × Option String) → Action Scene Unit
  | [] => pure ()
  | (name, newName) :: rest =>
    match members.get? name with
    | some v => do
      Action.update (·.bind (newName.getD name) v)
      bindMembers module members rest
    | none => Action.fail (.fault (.notInModule name module))

/-! ## Loops and faults -/

/-- Runs a body for each item; tells whether a turn left the loop. -/
def forItems (bind : Value → Action Scene Unit) (body : Action Scene Flow) :
    List Value → Action Scene Bool
  | [] => pure false
  | v :: rest => do
    bind v
    match ← body with
    | .breakLoop => return true
    | _ => forItems bind body rest

/-- Runs a body as long as a test holds, within so many turns; tells whether a turn left the
loop. -/
def whileTurns (test : Action Scene Bool) (body : Action Scene Flow) : Nat → Action Scene Bool
  | 0 => Action.stop
  | turns + 1 => do
    if ← test then
      match ← body with
      | .breakLoop => return true
      | _ => whileTurns test body turns
    else return false

/-- Runs the body of a handler while the fault is being handled. -/
def handling (fault : Fault) (body : Action Scene Flow) : Action Scene Flow := fun s =>
  let before := s.frame.handling
  let restore (s : Scene) : Scene := { s with frame.handling := before }
  match body { s with frame.handling := some fault } with
  | .done flow s => .done flow (restore s)
  | .failed e s => .failed e (restore s)
  | .exhausted => .exhausted

/-- Binds the name of a handler to the text of the fault. -/
def bindFault (newName : Option String) (fault : Fault) : Action Scene Unit :=
  match newName with
  | some name => Action.update (·.bind name (.str fault.text))
  | none => pure ()

/-- Does the handler handle the fault? -/
def ExceptHead.handles (head : ExceptHead) (fault : Fault) : Bool :=
  match head.kind with
  | none => true
  | some kind => kind == fault.kind

/-- Ends as a settled action did. -/
def unsettle : Except Error Flow → Action Scene Flow
  | .ok flow => pure flow
  | .error e => Action.fail e

/-! ## Steps -/

section

variable (engine : Engine) (below : Below)

/-- The value of an expression in a scene. -/
def evalIn (e : Expr) : Action Scene Value :=
  Scene.inWorld fun frame => e.eval engine.config below.draw frame

/-- Does an expression count as true? -/
def testIn (e : Expr) : Action Scene Bool := do
  return (← evalIn engine below e).truthy

/-- The path that an expression means. -/
def pathIn (e : Expr) : Action Scene String := do
  match ← evalIn engine below e with
  | .str path => return path
  | v => Action.fail (.fault (.pathNotText v.typeName))

/-- The text that an optional expression means. -/
def textIn : Option Expr → Action Scene String
  | some e => do return (← evalIn engine below e).text
  | none => pure ""

/-- The fault that a `raise` raises. -/
def raisedFault : Option RaiseHead → Action Scene Fault
  | some head => do return .raised head.kind (← textIn engine below head.message)
  | none => do return (← Action.read).frame.handling.getD .nothingToReraise

/-- Draws a block where it is defined, unless the parent has a block of this name: then the parent
draws it. -/
def drawSlot (name : String) : Action Scene Unit := do
  let parent := (← Action.read).world.space.parent
  if parent.any fun d => (BlockTable.ofProgram d.program).declares name then return ()
  else
    let text ← Scene.inWorld fun _ => below.draw name 0
    Scene.write text

mutual

/-- Runs a step. -/
def Step.run : Step → Action Scene Flow
  | .text s => do
    Scene.write s
    return .normal
  | .output filter e => do
    let v ← evalIn engine below e
    Scene.write (String.ofList (filter.apply v))
    return .normal
  | .block name => do
    drawSlot below name
    return .normal
  | .inclusion path => do
    let path ← pathIn engine below path
    let text ← Scene.inWorld fun _ => include_ engine below path
    Scene.write text
    return .normal
  | .inheritance path => do
    let path ← pathIn engine below path
    Scene.inWorld fun frame => inherit_ engine frame path
    return .normal
  | .choose branches otherwise => do
    match ← runBranches branches with
    | some flow => return flow
    | none => runOptional otherwise
  | .forEach targets iter body otherwise => do
    let items ← Action.ofFault (← evalIn engine below iter).items
    if ← forItems (bindTargets targets) (runAll body) items then return .normal
    else runOptional otherwise
  | .whileTest test body otherwise => do
    if ← whileTurns (testIn engine below test) (runAll body) below.turns then return .normal
    else runOptional otherwise
  | .withBinding e newName body => do
    let v ← evalIn engine below e
    match newName with
    | some name => Action.update (·.bind name v)
    | none => pure ()
    runAll body
  | .attempt body handlers otherwise finally_ => do
    let result ← match ← Action.settle (runAll body) with
      | .error (.fault f) => Action.settle (runHandler f handlers)
      | .ok .normal => Action.settle (runOptional otherwise)
      | other => pure other
    match ← runOptional finally_ with
    | .normal => unsettle result
    | flow => return flow
  | .assign targets e => do
    let v ← evalIn engine below e
    bindTargets targets v
    return .normal
  | .importModule head => do
    let members ← membersOf engine.config head.module
    Action.update (·.bind (head.newName.getD head.module) (.map members))
    return .normal
  | .importNames head => do
    let members ← membersOf engine.config head.module
    bindMembers head.module members head.names
    return .normal
  | .raise head => do
    Action.fail (.fault (← raisedFault engine below head))
  | .declareGlobal names => do
    Action.update fun s =>
      { s with frame.declaredGlobal := s.frame.declaredGlobal ++ names }
    return .normal
  | .assertion head => do
    if ← testIn engine below head.test then return .normal
    else Action.fail (.fault (.assertionFailed (← textIn engine below head.message)))
  | .breakLoop => return .breakLoop
  | .continueLoop => return .continueLoop
  | .comment _ => return .normal

/-- Runs steps up to their end or to one that leaves a loop or its turn. -/
def runAll : List Step → Action Scene Flow
  | [] => return .normal
  | s :: rest => do
    match ← s.run with
    | .normal => runAll rest
    | flow => return flow

/-- Runs steps if there are any. -/
def runOptional : Option (List Step) → Action Scene Flow
  | none => return .normal
  | some body => runAll body

/-- Runs the first branch whose test holds, if there is one. -/
def runBranches : List (Expr × List Step) → Action Scene (Option Flow)
  | [] => return none
  | (test, body) :: rest => do
    if ← testIn engine below test then return some (← runAll body)
    else runBranches rest

/-- Runs the first handler that handles the fault; without one the fault stays raised. -/
def runHandler (fault : Fault) : List (ExceptHead × List Step) → Action Scene Flow
  | [] => Action.fail (.fault fault)
  | (head, body) :: rest =>
    if head.handles fault then do
      bindFault head.newName fault
      handling fault (runAll body)
    else runHandler fault rest

end

end

end Inlay
