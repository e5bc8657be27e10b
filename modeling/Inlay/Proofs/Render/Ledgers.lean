import Inlay.Proofs.Render.Records
import Inlay.Proofs.Render.Rendering

/-!
# The record of a run

What a run of steps records is put together from what is recorded of the things that steps are made of, in
the order in which the run comes to them.  So what a run does to its scene can be told from its record if
that is so of evaluating an expression, of drawing a block, and of including and inheriting a template.

* `Recorder`: what is recorded of the things that steps are made of.
* `Step.record`, `recordAll`: the record of a step and of a list of steps.
* `Ledger`: what these things do can be told from what is recorded of them.
* `Ledger.runAll`: then what a run does can be told from its record.
-/

namespace Inlay

open Inlay.Action (EndsIn Accounts Quiet)

variable {α ε : Type}

/-! ## The record of a run -/

/-- What is recorded of the things that steps are made of. -/
structure Recorder (ε : Type) where
  expr : Expr → Scene → List ε
  /-- At a block, which is drawn where it is defined. -/
  slot : String → Scene → List ε
  inclusion : String → Scene → List ε
  inheritance : String → Scene → List ε
  declared : List String → List ε

/-- The record of a loop over items, in which the body has records of its own. -/
def recordItems (bind : Value → Action Scene Unit) (body : Action Scene Flow)
    (log : Scene → List ε) : List Value → Scene → List ε
  | [] => fun _ => []
  | v :: rest => (bind v).behind fun _ s => log s ++ body.behind (fun flow =>
      match flow with
      | .breakLoop => fun _ => []
      | .normal | .continueLoop => recordItems bind body log rest) s

/-- The record of a loop with a test. -/
def recordTurns (test : Action Scene Bool) (body : Action Scene Flow) (tests log : Scene → List ε) :
    Nat → Scene → List ε
  | 0 => fun _ => []
  | turns + 1 => fun s => tests s ++ test.behind (fun holds =>
      if holds then fun s => log s ++ body.behind (fun flow =>
        match flow with
        | .breakLoop => fun _ => []
        | .normal | .continueLoop => recordTurns test body tests log turns) s
      else fun _ => []) s

section

variable (engine : Engine) (below : Below) (r : Recorder ε)

/-- The record of an optional expression. -/
def Recorder.optional : Option Expr → Scene → List ε
  | none => fun _ => []
  | some e => r.expr e

mutual

/-- **The record of a step.** -/
def Step.record : Step → Scene → List ε
  | .text _ | .importModule _ | .importNames _ | .breakLoop | .continueLoop | .comment _ =>
    fun _ => []
  | .output _ e | .assign _ e => r.expr e
  | .block name => r.slot name
  | .inclusion e => fun s => r.expr e s ++ (pathIn engine below e).behind r.inclusion s
  | .inheritance e => fun s => r.expr e s ++ (pathIn engine below e).behind r.inheritance s
  | .choose branches otherwise => fun s =>
    recordBranches branches s ++ (runBranches engine below branches).behind (fun flow =>
      match flow with
      | some _ => fun _ => []
      | none => recordOptional otherwise) s
  | .forEach targets iter body otherwise => fun s =>
    r.expr iter s ++ (evalIn engine below iter).behind (fun v =>
      (Action.ofFault v.items).behind fun items s =>
        recordItems (bindTargets targets) (runAll engine below body) (recordAll body) items s ++
          (forItems (bindTargets targets) (runAll engine below body) items).behind (fun left =>
            if left then fun _ => [] else recordOptional otherwise) s) s
  | .whileTest test body otherwise => fun s =>
    recordTurns (testIn engine below test) (runAll engine below body) (r.expr test) (recordAll body)
        below.turns s ++
      (whileTurns (testIn engine below test) (runAll engine below body) below.turns).behind
        (fun left => if left then fun _ => [] else recordOptional otherwise) s
  | .withBinding e newName body => fun s =>
    r.expr e s ++ (evalIn engine below e).behind (fun v s =>
      recordAll body (newName.elim s fun name => s.bind name v)) s
  | .attempt body handlers otherwise finally_ => fun s =>
    (recordAll body s ++ (Action.settle (runAll engine below body)).behind (fun result =>
        match result with
        | .error (.fault f) => recordHandlers f handlers
        | .ok .normal => recordOptional otherwise
        | _ => fun _ => []) s) ++
      (tried engine below body handlers otherwise).behind (fun _ => recordOptional finally_) s
  | .raise head => r.optional (head.bind RaiseHead.message)
  | .declareGlobal names => fun _ => r.declared names
  | .assertion head => fun s =>
    r.expr head.test s ++ (testIn engine below head.test).behind (fun holds =>
      if holds then fun _ => [] else r.optional head.message) s

/-- **The record of a list of steps.** -/
def recordAll : List Step → Scene → List ε
  | [] => fun _ => []
  | step :: rest => fun s => step.record s ++ (step.run engine below).behind (fun flow =>
      match flow with
      | .normal => recordAll rest
      | .breakLoop | .continueLoop => fun _ => []) s

/-- The record of steps if there are any. -/
def recordOptional : Option (List Step) → Scene → List ε
  | none => fun _ => []
  | some body => recordAll body

/-- The record of a choice of a branch, and of the branch that is chosen. -/
def recordBranches : List (Expr × List Step) → Scene → List ε
  | [] => fun _ => []
  | (test, body) :: rest => fun s => r.expr test s ++ (testIn engine below test).behind (fun holds =>
      if holds then recordAll body else recordBranches rest) s

/-- The record of the handler of a fault. -/
def recordHandlers (fault : Fault) : List (ExceptHead × List Step) → Scene → List ε
  | [] => fun _ => []
  | (head, body) :: rest =>
    if head.handles fault then
      (bindFault head.newName fault).behind fun _ s =>
        recordAll body { s with frame.handling := some fault }
    else recordHandlers fault rest

end

end

/-! ## What a run does can be told from its record -/

/-- What the things that steps are made of do to a scene can be told from what is recorded of them. -/
structure Ledger (engine : Engine) (below : Below) (r : Recorder ε)
    (R : Scene → List ε → Scene → Prop) : Prop extends Composes R where
  write (text : String) : Quiet R (Scene.write text)
  bind (name : String) (v : Value) (s : Scene) : R s [] (s.bind name v)
  declare (names : List String) (s : Scene) : R s (r.declared names)
    { s with frame.declaredGlobal := s.frame.declaredGlobal ++ names }
  /-- A handler leaves behind the fault that was being handled before. -/
  handling {fault : Option Fault} {s t : Scene} {log : List ε}
    (h : R { s with frame.handling := fault } log t) :
    R s log { t with frame.handling := s.frame.handling }
  expr (e : Expr) : Accounts R (evalIn engine below e) (r.expr e)
  slot (name : String) : Accounts R (drawSlot below name) (r.slot name)
  inclusion (target : String) :
    Accounts R (Scene.inWorld fun _ => include_ engine below target) (r.inclusion target)
  inheritance (target : String) :
    Accounts R (Scene.inWorld fun frame => inherit_ engine frame target) (r.inheritance target)

namespace Ledger

variable {engine : Engine} {below : Below} {r : Recorder ε} {R : Scene → List ε → Scene → Prop}

theorem bindEach (l : Ledger engine below r R) (targets : List String) (items : List Value)
    (s : Scene) : R s [] (Inlay.bindEach targets items s) := by
  induction targets generalizing items s with
  | nil => exact l.refl s
  | cons target targets ih =>
    cases items with
    | nil => exact l.refl s
    | cons v items => exact l.trans (l.bind target v s) (ih items _)

theorem bindTargets (l : Ledger engine below r R) (targets : List String) (v : Value) :
    Quiet R (Inlay.bindTargets targets v) := by
  have c := l.toComposes
  have several : Quiet R (Action.ofFault v.items >>= fun items =>
      if items.length < targets.length then
        Action.fail (.fault (.tooFewValues targets.length items.length))
      else if targets.length < items.length then
        Action.fail (.fault (.tooManyValues targets.length))
      else Action.update (Inlay.bindEach targets items)) := by
    refine Accounts.andThen c (Quiet.ofFault c v.items) fun items => ?_
    split
    · exact .fail c _
    · split
      · exact .fail c _
      · exact .update fun s => l.bindEach targets items s
  match targets with
  | [target] => exact .update fun s => l.bind target v s
  | [] => exact several
  | _ :: _ :: _ => exact several

theorem membersOf (l : Ledger engine below r R) (module : String) :
    Quiet R (Inlay.membersOf engine.config module) := by
  rw [Inlay.membersOf]
  split
  · exact .pure l.toComposes _
  · exact .fail l.toComposes _

theorem bindMembers (l : Ledger engine below r R) (module : String) (members : Vars)
    (names : List (String × Option String)) : Quiet R (Inlay.bindMembers module members names) := by
  induction names with
  | nil => exact .pure l.toComposes ()
  | cons entry rest ih =>
    obtain ⟨name, newName⟩ := entry
    rw [Inlay.bindMembers]
    split
    · exact Accounts.andThen l.toComposes (Accounts.update fun s => l.bind _ _ s) fun _ => ih
    · exact .fail l.toComposes _

theorem bindFault (l : Ledger engine below r R) (newName : Option String) (fault : Fault) :
    Quiet R (Inlay.bindFault newName fault) := by
  cases newName with
  | none => exact .pure l.toComposes ()
  | some name => exact .update fun s => l.bind _ _ s

theorem forItems (l : Ledger engine below r R) (targets : List String) {body : Action Scene Flow}
    {log : Scene → List ε} (hbody : Accounts R body log) (items : List Value) :
    Accounts R (Inlay.forItems (Inlay.bindTargets targets) body items)
      (recordItems (Inlay.bindTargets targets) body log items) := by
  have c := l.toComposes
  induction items with
  | nil => exact Quiet.pure c false
  | cons v rest ih =>
    rw [Inlay.forItems]
    refine Quiet.bind c (l.bindTargets targets v) fun _ => hbody.bind c fun flow => ?_
    cases flow with
    | breakLoop => exact Quiet.pure c true
    | normal | continueLoop => exact ih

theorem whileTurns (c : Composes R) {test : Action Scene Bool} {body : Action Scene Flow}
    {tests log : Scene → List ε} (htest : Accounts R test tests) (hbody : Accounts R body log)
    (turns : Nat) :
    Accounts R (Inlay.whileTurns test body turns) (recordTurns test body tests log turns) := by
  induction turns with
  | zero => exact Quiet.stop
  | succ turns ih =>
    rw [Inlay.whileTurns]
    refine htest.bind c fun holds => .ite (fun _ => hbody.bind c fun flow => ?_) fun _ => ?_
    · cases flow with
      | breakLoop => exact Quiet.pure c true
      | normal | continueLoop => exact ih
    · exact Quiet.pure c false

theorem handlingFault (l : Ledger engine below r R) (fault : Fault) {body : Action Scene Flow}
    {log : Scene → List ε} (hbody : Accounts R body log) :
    Accounts R (Inlay.handling fault body)
      fun s => log { s with frame.handling := some fault } := by
  intro s t h
  have hbody := @hbody { s with frame.handling := some fault }
  cases hend : body { s with frame.handling := some fault } with
  | done flow u =>
    have hall : Inlay.handling fault body s =
        .done flow { u with frame.handling := s.frame.handling } := by rw [Inlay.handling, hend]
    obtain rfl := (Action.endsIn_of_done hall).mp h
    exact l.handling (hbody (Or.inl ⟨flow, hend⟩))
  | failed e u =>
    have hall : Inlay.handling fault body s =
        .failed e { u with frame.handling := s.frame.handling } := by rw [Inlay.handling, hend]
    obtain rfl := (Action.endsIn_of_failed hall).mp h
    exact l.handling (hbody (Or.inr ⟨e, hend⟩))
  | exhausted =>
    have hall : Inlay.handling fault body s = .exhausted := by rw [Inlay.handling, hend]
    exact absurd h (Action.not_endsIn_of_exhausted hall)

theorem testIn (l : Ledger engine below r R) (e : Expr) :
    Accounts R (Inlay.testIn engine below e) (r.expr e) :=
  (l.expr e).andThen l.toComposes fun _ => .pure l.toComposes _

theorem pathIn (l : Ledger engine below r R) (e : Expr) :
    Accounts R (Inlay.pathIn engine below e) (r.expr e) := by
  refine (l.expr e).andThen l.toComposes fun v => ?_
  split
  · exact .pure l.toComposes _
  · exact .fail l.toComposes _

theorem textIn (l : Ledger engine below r R) (e : Option Expr) :
    Accounts R (Inlay.textIn engine below e) (r.optional e) := by
  cases e with
  | none => exact Quiet.pure l.toComposes ""
  | some e => exact (l.expr e).andThen l.toComposes fun _ => .pure l.toComposes _

theorem raisedFault (l : Ledger engine below r R) (head : Option RaiseHead) :
    Accounts R (Inlay.raisedFault engine below head) (r.optional (head.bind RaiseHead.message)) := by
  cases head with
  | none => exact Accounts.andThen l.toComposes (Quiet.read l.toComposes) fun _ => .pure l.toComposes _
  | some head => exact (l.textIn head.message).andThen l.toComposes fun _ => .pure l.toComposes _

theorem unsettle (c : Composes R) (result : Except Error Flow) : Quiet R (Inlay.unsettle result) := by
  cases result with
  | ok flow => exact .pure c flow
  | error e => exact .fail c e

mutual

theorem run (l : Ledger engine below r R) : ∀ step : Step,
    Accounts R (step.run engine below) (step.record engine below r)
  | .text s => by
    rw [Step.run]
    exact Accounts.andThen l.toComposes (l.write s) fun _ => .pure l.toComposes _
  | .output filter e => by
    rw [Step.run]
    refine (l.expr e).andThen l.toComposes fun v => ?_
    exact Accounts.andThen l.toComposes (l.write _) fun _ => .pure l.toComposes _
  | .block name => by
    rw [Step.run]
    exact (l.slot name).andThen l.toComposes fun _ => .pure l.toComposes _
  | .inclusion path => by
    rw [Step.run]
    refine (l.pathIn path).bind l.toComposes fun target => ?_
    refine (l.inclusion target).andThen l.toComposes fun text => ?_
    exact Accounts.andThen l.toComposes (l.write text) fun _ => .pure l.toComposes _
  | .inheritance path => by
    rw [Step.run]
    refine (l.pathIn path).bind l.toComposes fun target => ?_
    exact (l.inheritance target).andThen l.toComposes fun _ => .pure l.toComposes _
  | .choose branches otherwise => by
    rw [Step.run]
    refine (runBranches l branches).bind l.toComposes fun flow => ?_
    cases flow with
    | some flow => exact Quiet.pure l.toComposes flow
    | none => exact runOptional l otherwise
  | .forEach targets iter body otherwise => by
    rw [Step.run]
    refine (l.expr iter).bind l.toComposes fun v => ?_
    refine Quiet.bind l.toComposes (.ofFault l.toComposes v.items) fun items => ?_
    refine (l.forItems targets (runAll l body) items).bind l.toComposes fun left => ?_
    exact .ite (fun _ => Quiet.pure l.toComposes _) fun _ => runOptional l otherwise
  | .whileTest test body otherwise => by
    rw [Step.run]
    refine (whileTurns l.toComposes (l.testIn test) (runAll l body) below.turns).bind l.toComposes
      fun left => ?_
    exact .ite (fun _ => Quiet.pure l.toComposes _) fun _ => runOptional l otherwise
  | .withBinding e newName body => by
    rw [Step.run]
    refine (l.expr e).bind l.toComposes fun v => ?_
    cases newName with
    | none => exact runAll l body
    | some name =>
      exact Quiet.bind l.toComposes (.update fun s => l.bind name v s) fun _ => runAll l body
  | .attempt body handlers otherwise finally_ => by
    rw [Step.run_attempt, tried]
    refine Accounts.bind l.toComposes ?_ fun result => ?_
    · refine (runAll l body).settle.bind l.toComposes fun result => ?_
      cases result with
      | ok flow =>
        cases flow with
        | normal => exact (runOptional l otherwise).settle
        | breakLoop | continueLoop => exact Quiet.pure l.toComposes _
      | error e =>
        cases e with
        | fault f => exact (runHandler l f handlers).settle
        | _ => exact Quiet.pure l.toComposes _
    · refine (runOptional l finally_).andThen l.toComposes fun flow => ?_
      cases flow with
      | normal => exact unsettle l.toComposes result
      | breakLoop | continueLoop => exact .pure l.toComposes _
  | .assign targets e => by
    rw [Step.run]
    refine (l.expr e).andThen l.toComposes fun v => ?_
    exact Accounts.andThen l.toComposes (l.bindTargets targets v) fun _ => .pure l.toComposes _
  | .importModule head => by
    rw [Step.run]
    refine Accounts.andThen l.toComposes (l.membersOf head.module) fun members => ?_
    exact Accounts.andThen l.toComposes (Accounts.update fun s => l.bind _ _ s) fun _ =>
      .pure l.toComposes _
  | .importNames head => by
    rw [Step.run]
    refine Accounts.andThen l.toComposes (l.membersOf head.module) fun members => ?_
    exact Accounts.andThen l.toComposes (l.bindMembers head.module members head.names) fun _ =>
      .pure l.toComposes _
  | .raise head => by
    rw [Step.run]
    exact (l.raisedFault head).andThen l.toComposes fun f => .fail l.toComposes _
  | .declareGlobal names => by
    rw [Step.run]
    exact Accounts.andThen l.toComposes (.update (l.declare names)) fun _ => .pure l.toComposes _
  | .assertion head => by
    rw [Step.run]
    refine (l.testIn head.test).bind l.toComposes fun holds => ?_
    refine .ite (fun _ => Quiet.pure l.toComposes _) fun _ => ?_
    exact (l.textIn head.message).andThen l.toComposes fun _ => .fail l.toComposes _
  | .breakLoop | .continueLoop | .comment _ => by
    rw [Step.run]
    exact Quiet.pure l.toComposes _

/-- **What a run does can be told from its record**, if this is so of what steps are made of. -/
theorem runAll (l : Ledger engine below r R) : ∀ steps : List Step,
    Accounts R (Inlay.runAll engine below steps) (recordAll engine below r steps)
  | [] => by
    rw [Inlay.runAll]
    exact Quiet.pure l.toComposes _
  | step :: rest => by
    rw [Inlay.runAll]
    refine (run l step).bind l.toComposes fun flow => ?_
    cases flow with
    | normal => exact runAll l rest
    | breakLoop | continueLoop => exact Quiet.pure l.toComposes _

theorem runOptional (l : Ledger engine below r R) : ∀ steps : Option (List Step),
    Accounts R (Inlay.runOptional engine below steps) (recordOptional engine below r steps)
  | none => by
    rw [Inlay.runOptional]
    exact Quiet.pure l.toComposes _
  | some body => by
    rw [Inlay.runOptional]
    exact runAll l body

theorem runBranches (l : Ledger engine below r R) : ∀ branches : List (Expr × List Step),
    Accounts R (Inlay.runBranches engine below branches) (recordBranches engine below r branches)
  | [] => by
    rw [Inlay.runBranches]
    exact Quiet.pure l.toComposes _
  | (test, body) :: rest => by
    rw [Inlay.runBranches]
    refine (l.testIn test).bind l.toComposes fun holds => .ite (fun _ => ?_) fun _ =>
      runBranches l rest
    exact (runAll l body).andThen l.toComposes fun _ => .pure l.toComposes _

theorem runHandler (l : Ledger engine below r R) (fault : Fault) :
    ∀ handlers : List (ExceptHead × List Step),
      Accounts R (Inlay.runHandler engine below fault handlers)
        (recordHandlers engine below r fault handlers)
  | [] => by
    rw [Inlay.runHandler]
    exact Quiet.fail l.toComposes _
  | (head, body) :: rest => by
    rw [Inlay.runHandler]
    refine .ite (fun _ => ?_) fun _ => runHandler l fault rest
    exact Quiet.bind l.toComposes (l.bindFault head.newName fault) fun _ =>
      l.handlingFault fault (runAll l body)

end

end Ledger

/-! ## From worlds to scenes and back -/

/-- What is recorded if only blocks have something to record. -/
def Recorder.ofBlocks (engine : Engine) (below : Below) (draws : String → Nat → World → List ε) :
    Recorder ε where
  expr e s := e.record engine.config below.draw s.frame draws s.world
  slot name := Action.read.behind fun s =>
    if s.world.space.parent.any fun d => (BlockTable.ofProgram d.program).declares name then
      fun _ => []
    else fun s => draws name 0 s.world
  inclusion _ _ := []
  inheritance _ _ := []
  declared _ := []

/-- The record of drawing a block within a bound. -/
def recordBlock (engine : Engine) (fuel : Nat) (r : Recorder ε) (name : String) (depth : Nat) :
    World → List ε :=
  Action.read.behind fun w =>
    match w.space.blocks.get? name depth with
    | none => fun _ => []
    | some block => fun w =>
      recordAll engine (belowAt engine fuel) r block.body ⟨w, .ofBlock name depth⟩

namespace Action.Accounts

variable {Q : World → List ε → World → Prop} {R : Scene → List ε → Scene → Prop}

theorem inWorld {x : Frame → Action World α} {log : Frame → World → List ε}
    (lift : ∀ {w w' : World} {log : List ε} (frame : Frame), Q w log w' → R ⟨w, frame⟩ log ⟨w', frame⟩)
    (hx : ∀ frame, Accounts Q (x frame) (log frame)) :
    Accounts R (Scene.inWorld x) fun s => log s.frame s.world := by
  intro s u h
  obtain ⟨w, hw, rfl⟩ := Action.endsIn_focus h
  exact lift s.frame (hx s.frame hw)

theorem drawSlot (c : Composes R) {below : Below} {draws : String → Nat → World → List ε}
    (lift : ∀ {w w' : World} {log : List ε} (frame : Frame), Q w log w' → R ⟨w, frame⟩ log ⟨w', frame⟩)
    (hdraw : ∀ name depth, Accounts Q (below.draw name depth) (draws name depth))
    (hwrite : ∀ text, Quiet R (Scene.write text)) (engine : Engine) (name : String) :
    Accounts R (Inlay.drawSlot below name) ((Recorder.ofBlocks engine below draws).slot name) := by
  unfold Inlay.drawSlot Recorder.ofBlocks
  dsimp only
  refine Quiet.bind c (.read c) fun s => .ite (fun _ => Quiet.pure c ()) fun _ => ?_
  exact (inWorld lift fun _ => hdraw name 0).andThen c hwrite

/-- A run in a frame of its own. -/
theorem runFrame {frame : Frame} {run : Action Scene Flow} {log : Scene → List ε}
    (lower : ∀ {w : World} {t : Scene} {log : List ε}, R ⟨w, frame⟩ log t → Q w log t.world)
    (hrun : Accounts R run log) : Accounts Q (Inlay.runFrame frame run) fun w => log ⟨w, frame⟩ := by
  intro w w' h
  have hrun := @hrun ⟨w, frame⟩
  cases hend : run ⟨w, frame⟩ with
  | done flow t =>
    have hall : Inlay.runFrame frame run w = .done t.frame.buffer t.world := by
      rw [Inlay.runFrame, hend]
    obtain rfl := (Action.endsIn_of_done hall).mp h
    exact lower (hrun (Or.inl ⟨flow, hend⟩))
  | failed e t =>
    have hall : Inlay.runFrame frame run w = .failed e t.world := by rw [Inlay.runFrame, hend]
    obtain rfl := (Action.endsIn_of_failed hall).mp h
    exact lower (hrun (Or.inr ⟨e, hend⟩))
  | exhausted =>
    have hall : Inlay.runFrame frame run w = .exhausted := by rw [Inlay.runFrame, hend]
    exact absurd h (Action.not_endsIn_of_exhausted hall)

/-- What drawing a block does can be told from its record, if this is so of what its steps are made
of. -/
theorem drawBlock (c : Composes Q) {engine : Engine} {fuel : Nat} {r : Recorder ε} {name : String}
    {depth : Nat} (l : Ledger engine (belowAt engine fuel) r R)
    (lower : ∀ {w : World} {t : Scene} {log : List ε},
      R ⟨w, .ofBlock name depth⟩ log t → Q w log t.world) :
    Accounts Q (Inlay.drawBlock engine (fuel + 1) name depth)
      (recordBlock engine fuel r name depth) := by
  rw [Inlay.drawBlock]
  refine Quiet.bind c (.read c) fun w => ?_
  dsimp only
  cases w.space.blocks.get? name depth with
  | none => exact Quiet.fail c _
  | some block => exact runFrame lower (l.runAll block.body)

end Action.Accounts

end Inlay
