import Inlay.Render.World

/-!
# Evaluating expressions

An expression is evaluated in a world and a frame; it reads the frame and leaves it as it is. Three
functions need the space and not their arguments alone: `body`, `block` and `parent_block`. They
are known only where no variable has their name. Drawing a block is a parameter, so that evaluation
goes by the structure of the expression.

* `lookup?`: the value of a name.
* `Intrinsic`: the three functions.
* `Expr.eval`: the value of an expression.
-/

namespace Inlay

/-- The functions that need the space. -/
inductive Intrinsic where
  | body
  | block
  | parentBlock
  deriving DecidableEq, Repr

def Intrinsic.name : Intrinsic → String
  | body => "body"
  | block => "block"
  | parentBlock => "parent_block"

/-- The function of a name. -/
def Intrinsic.ofName? (name : String) : Option Intrinsic :=
  [body, block, parentBlock].find? fun i => i.name == name

/-- The value of a name: of the frame, unless the name is declared global there, then of the space,
then of the built-in functions. -/
def lookup? (config : Config) (frame : Frame) (space : Space) (name : String) : Option Value :=
  let found := if frame.isGlobal name then none else frame.locals.get? name
  found <|> space.globals.get? name <|> config.builtin? name

/-- How to draw a block of the space, by its name and its place in the chain. -/
abbrev DrawBlock : Type := String → Nat → Action World String

/-- The member of a value. A method looked up is a function of its own. -/
def evalMember (v : Value) (name : String) : Action World Value := fun w =>
  Action.ofFault (Value.member w.made v name) { w with made := w.made + 1 }

/-- The only argument of a function that takes the name of a block. -/
def blockArgument (i : Intrinsic) : List Value → Except Fault String
  | [.str name] => .ok name
  | _ => .error (.oneBlockName i.name)

/-- The place in the chain of a block that `parent_block` draws: behind the program that is being
run, or behind the most derived one in any other run. -/
def parentDepth (frame : Frame) (name : String) : Nat :=
  match frame.block with
  | some (current, depth) => if current == name then depth + 1 else 1
  | none => 1

/-- One of the functions that need the space, called. -/
def Intrinsic.call (draw : DrawBlock) (frame : Frame) (i : Intrinsic) (args : List Value) :
    Action World Value :=
  match i with
  | .body => do
    if !args.isEmpty then Action.fail (.fault (.bodyTakesNothing args.length))
    return .str ((← Action.read).space.body.getD "")
  | .block => do
    let name ← Action.ofFault (blockArgument .block args)
    return .str (← draw name 0)
  | .parentBlock => do
    let name ← Action.ofFault (blockArgument .parentBlock args)
    let depth := parentDepth frame name
    let space := (← Action.read).space
    if (space.blocks.get? name depth).isNone then
      Action.fail (.render (.noParentBlock name space.path))
    return .str (← draw name depth)

/-- The function that a callee means if it is not bound to a value. -/
def intrinsicOf? (config : Config) (frame : Frame) (space : Space) (callee : Expr) :
    Option Intrinsic :=
  match callee with
  | .name n => if (lookup? config frame space n).isNone then Intrinsic.ofName? n else none
  | _ => none

/-- A value called. -/
def callValue (config : Config) (f : Value) (args : List Value) : Action World Value :=
  match f with
  | .function _ routine => Action.ofFault (routine.call args config.host)
  | v => Action.fail (.fault (.notCallable v.typeName))

/-- Refuses a value that cannot be called. -/
def checkCallable : Value → Action World Unit
  | .function .. => pure ()
  | v => Action.fail (.fault (.notCallable v.typeName))

/-- The key of an entry. -/
def entryKey : Value → Action World String
  | .str key => pure key
  | v => Action.fail (.fault (.keyNotText v.typeName))

mutual

/-- The value of an expression. -/
def Expr.eval (config : Config) (draw : DrawBlock) (frame : Frame) : Expr → Action World Value
  | .lit v => pure v
  | .name n => do
    match lookup? config frame (← Action.read).space n with
    | some v => return v
    | none => Action.fail (.fault (.unboundName n))
  | .list items => do return .list (← evalAll config draw frame items)
  | .map entries => do return .map (← evalEntries config draw frame [] entries)
  | .member e name => do evalMember (← e.eval config draw frame) name
  | .index e i => do
    let v ← e.eval config draw frame
    let at_ ← i.eval config draw frame
    Action.ofFault (Value.index v at_)
  | .call f args => do
    match intrinsicOf? config frame (← Action.read).space f with
    | some i => do
      let values ← evalAll config draw frame args
      i.call draw frame values
    | none => do
      let callee ← f.eval config draw frame
      checkCallable callee
      let values ← evalAll config draw frame args
      callValue config callee values
  | .neg e => do Action.ofFault (Value.negate (← e.eval config draw frame))
  | .not e => do return .bool (!(← e.eval config draw frame).truthy)
  | .binary op a b => do
    let x ← a.eval config draw frame
    let y ← b.eval config draw frame
    Action.ofFault (Value.binary config.limit op x y)
  | .and a b => do
    let x ← a.eval config draw frame
    if x.truthy then b.eval config draw frame else return x
  | .or a b => do
    let x ← a.eval config draw frame
    if x.truthy then return x else b.eval config draw frame
  | .cond test a b => do
    if (← test.eval config draw frame).truthy then a.eval config draw frame
    else b.eval config draw frame

/-- The values of expressions, from the first one to the last. -/
def evalAll (config : Config) (draw : DrawBlock) (frame : Frame) :
    List Expr → Action World (List Value)
  | [] => pure []
  | e :: rest => do
    let v ← e.eval config draw frame
    let values ← evalAll config draw frame rest
    return v :: values

/-- The entries of a map behind those evaluated so far. -/
def evalEntries (config : Config) (draw : DrawBlock) (frame : Frame) (found : Dict Value) :
    List (Expr × Expr) → Action World (Dict Value)
  | [] => pure found
  | (k, e) :: rest => do
    let key ← entryKey (← k.eval config draw frame)
    let v ← e.eval config draw frame
    evalEntries config draw frame (found.insert key v) rest

end

end Inlay
