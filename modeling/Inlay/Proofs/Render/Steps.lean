import Inlay.Proofs.Program.Marks
import Inlay.Proofs.Render.Agreement
import Inlay.Render.Run

/-!
# Steps that agree

One list of steps is run in two ways, by two engines, with different means to draw blocks and to render
templates, or from related scenes.  The two runs agree if what the steps are made of agrees.  Nothing more
is needed of loops, branches, handlers or the order of steps.

* `Primitives`: what steps are made of agrees, for the statements with a property.
* `Primitives.runAll`: then all steps agree whose statements have the property.
-/

namespace Inlay

open Inlay.Action (Agree Steady)

/-- What the steps are made of agrees in the two ways to run them. -/
structure Primitives (engine engine' : Engine) (below below' : Below) (S : Scene → Scene → Prop)
    (E : Error → Error → Prop) (P : StatementKind → Prop) : Prop where
  turns : below.turns = below'.turns
  modules : engine.config.modules = engine'.config.modules
  eval {kind : StatementKind} (hkind : P kind) {e : Expr} (he : e ∈ kind.exprs) :
    Agree S E Eq (evalIn engine below e) (evalIn engine' below' e)
  block {name : String} (hkind : P (.block name)) :
    Agree S E Eq ((Step.block name).run engine below) ((Step.block name).run engine' below')
  inclusion {path : Expr} (hkind : P (.inclusion path)) :
    Agree S E Eq ((Step.inclusion path).run engine below)
      ((Step.inclusion path).run engine' below')
  inheritance {path : Expr} (hkind : P (.inheritance path)) :
    Agree S E Eq ((Step.inheritance path).run engine below)
      ((Step.inheritance path).run engine' below')
  plain {text : String} (hkind : P (.plain text)) : Steady S E (Scene.write text)
  output {filter : Filter} {e : Expr} (hkind : P (.output filter e)) (v : Value) :
    Steady S E (Scene.write (String.ofList (filter.apply v)))
  bind (name : String) (v : Value) {s s' : Scene} (hs : S s s') :
    S (s.bind name v) (s'.bind name v)
  declare (names : List String) {s s' : Scene} (hs : S s s') :
    S { s with frame.declaredGlobal := s.frame.declaredGlobal ++ names }
      { s' with frame.declaredGlobal := s'.frame.declaredGlobal ++ names }
  handling {s s' : Scene} (hs : S s s') : s.frame.handling = s'.frame.handling
  setHandling (fault : Option Fault) {s s' : Scene} (hs : S s s') :
    S { s with frame.handling := fault } { s' with frame.handling := fault }
  fault (f : Fault) : E (.fault f) (.fault f)
  sameFault {e e' : Error} (he : E e e') : (∃ f, e = .fault f ∧ e' = .fault f) ∨
    (∀ f, e ≠ .fault f) ∧ ∀ f, e' ≠ .fault f

namespace Primitives

variable {engine engine' : Engine} {below below' : Below} {S : Scene → Scene → Prop}
  {E : Error → Error → Prop} {P : StatementKind → Prop}

/-! ## Binding -/

theorem bindEach (h : Primitives engine engine' below below' S E P) (targets : List String)
    (items : List Value) {s s' : Scene} (hs : S s s') :
    S (Inlay.bindEach targets items s) (Inlay.bindEach targets items s') := by
  induction targets generalizing items s s' with
  | nil => exact hs
  | cons target targets ih =>
    cases items with
    | nil => exact hs
    | cons v items => exact ih items (h.bind target v hs)

theorem bindTargets (h : Primitives engine engine' below below' S E P) (targets : List String)
    (v : Value) : Steady S E (Inlay.bindTargets targets v) := by
  have several : Steady S E (Action.ofFault v.items >>= fun items =>
      if items.length < targets.length then
        Action.fail (.fault (.tooFewValues targets.length items.length))
      else if targets.length < items.length then
        Action.fail (.fault (.tooManyValues targets.length))
      else Action.update (Inlay.bindEach targets items)) := by
    refine (Agree.ofFault h.fault v.items).andThen fun items => ?_
    split
    · exact .fail (h.fault _)
    · split
      · exact .fail (h.fault _)
      · exact .update fun hs => h.bindEach targets items hs
  match targets with
  | [target] => exact .update fun hs => h.bind target v hs
  | [] => exact several
  | _ :: _ :: _ => exact several

theorem membersOf (h : Primitives engine engine' below below' S E P) (module : String) :
    Agree S E Eq (Inlay.membersOf engine.config module) (Inlay.membersOf engine'.config module) := by
  rw [Inlay.membersOf, Inlay.membersOf, ← h.modules]
  split
  · exact .pure rfl
  · exact .fail (h.fault _)

theorem bindMembers (h : Primitives engine engine' below below' S E P) (module : String) (members : Vars)
    (names : List (String × Option String)) :
    Steady S E (Inlay.bindMembers module members names) := by
  induction names with
  | nil => exact .pure rfl
  | cons entry rest ih =>
    obtain ⟨name, newName⟩ := entry
    rw [Inlay.bindMembers]
    split
    · exact (Agree.update fun hs => h.bind _ _ hs).andThen fun _ => ih
    · exact .fail (h.fault _)

theorem bindFault (h : Primitives engine engine' below below' S E P) (newName : Option String)
    (fault : Fault) : Steady S E (Inlay.bindFault newName fault) := by
  cases newName with
  | none => exact .pure rfl
  | some name => exact .update fun hs => h.bind _ _ hs

/-! ## Loops and faults -/

theorem forItems (h : Primitives engine engine' below below' S E P) (targets : List String)
    {body body' : Action Scene Flow} (hbody : Agree S E Eq body body') (items : List Value) :
    Agree S E Eq (Inlay.forItems (Inlay.bindTargets targets) body items)
      (Inlay.forItems (Inlay.bindTargets targets) body' items) := by
  induction items with
  | nil => exact .pure rfl
  | cons v rest ih =>
    rw [Inlay.forItems, Inlay.forItems]
    refine (h.bindTargets targets v).andThen fun _ => hbody.andThen fun flow => ?_
    cases flow with
    | breakLoop => exact .pure rfl
    | normal | continueLoop => exact ih

theorem whileTurns {test test' : Action Scene Bool} {body body' : Action Scene Flow}
    (htest : Agree S E Eq test test') (hbody : Agree S E Eq body body') (turns : Nat) :
    Agree S E Eq (Inlay.whileTurns test body turns) (Inlay.whileTurns test' body' turns) := by
  induction turns with
  | zero => exact .stop
  | succ turns ih =>
    rw [Inlay.whileTurns, Inlay.whileTurns]
    refine htest.andThen fun holds => ?_
    cases holds with
    | false => exact .pure rfl
    | true =>
      refine hbody.andThen fun flow => ?_
      cases flow with
      | breakLoop => exact .pure rfl
      | normal | continueLoop => exact ih

theorem handlingFault (h : Primitives engine engine' below below' S E P) (fault : Fault)
    {body body' : Action Scene Flow} (hbody : Agree S E Eq body body') :
    Agree S E Eq (Inlay.handling fault body) (Inlay.handling fault body') := by
  intro s s' hs
  have hend := hbody (h.setHandling (some fault) hs)
  have hbefore := h.handling hs
  rw [Inlay.handling, Inlay.handling, hbefore]
  generalize body { s with frame.handling := some fault } = o at hend
  generalize body' { s' with frame.handling := some fault } = o' at hend
  cases hend with
  | done value state => exact .done value (h.setHandling _ state)
  | failed error state => exact .failed error (h.setHandling _ state)
  | exhausted => exact .exhausted

/-! ## Expressions in steps -/

section

variable {e : Expr} {kind : StatementKind}

theorem testIn (h : Primitives engine engine' below below' S E P) (hkind : P kind) (he : e ∈ kind.exprs) :
    Agree S E Eq (Inlay.testIn engine below e) (Inlay.testIn engine' below' e) :=
  (h.eval hkind he).andThen fun _ => .pure rfl

theorem textIn (h : Primitives engine engine' below below' S E P) (hkind : P kind) (e : Option Expr)
    (he : ∀ e' ∈ e.toList, e' ∈ kind.exprs) :
    Agree S E Eq (Inlay.textIn engine below e) (Inlay.textIn engine' below' e) := by
  cases e with
  | none => exact .pure rfl
  | some e => exact (h.eval hkind (he e (List.mem_singleton_self e))).andThen fun _ => .pure rfl

theorem raisedFault (h : Primitives engine engine' below below' S E P) {head : Option RaiseHead}
    (hkind : P (.inline (.raise head))) :
    Agree S E Eq (Inlay.raisedFault engine below head) (Inlay.raisedFault engine' below' head) := by
  cases head with
  | none =>
    refine Agree.read_bind fun hs => ?_
    exact .done (congrArg (·.getD Fault.nothingToReraise) (h.handling hs)) hs
  | some head => exact (h.textIn hkind head.message fun _ he => he).andThen fun _ => .pure rfl

end

theorem unsettle {r r' : Except Error Flow} (h : Settled.Agree E Eq r r') :
    Agree S E Eq (Inlay.unsettle r) (Inlay.unsettle r') := by
  cases h with
  | ok value => exact .pure value
  | error error => exact .fail error

/-! ## All steps -/

mutual

theorem run (h : Primitives engine engine' below below' S E P) : ∀ step : Step, Marked P step.outline →
    Agree S E Eq (step.run engine below) (step.run engine' below')
  | .text s => fun hstep => by
    rw [Step.run, Step.run]
    rw [Step.outline, marked_nest] at hstep
    exact (h.plain hstep.1).andThen fun _ => .pure rfl
  | .output filter e => fun hstep => by
    rw [Step.run, Step.run]
    rw [Step.outline, marked_nest] at hstep
    refine (h.eval hstep.1 (List.mem_singleton_self e)).andThen fun v => ?_
    exact (h.output hstep.1 v).andThen fun _ => .pure rfl
  | .block name => fun hstep => by
    rw [Step.outline, marked_nest] at hstep
    exact h.block hstep.1
  | .inclusion path => fun hstep => by
    rw [Step.outline, marked_nest] at hstep
    exact h.inclusion hstep.1
  | .inheritance path => fun hstep => by
    rw [Step.outline, marked_nest] at hstep
    exact h.inheritance hstep.1
  | .choose branches otherwise => fun hstep => by
    rw [Step.run, Step.run]
    rw [Step.outline, marked_append] at hstep
    refine (runBranches h branches hstep.1).andThen fun flow => ?_
    cases flow with
    | some flow => exact .pure rfl
    | none => exact runOptional h _ otherwise hstep.2
  | .forEach targets iter body otherwise => fun hstep => by
    rw [Step.run, Step.run]
    rw [Step.outline, marked_append, marked_nest] at hstep
    obtain ⟨⟨hkind, hbody⟩, hotherwise⟩ := hstep
    refine (h.eval hkind (List.mem_singleton_self iter)).andThen fun v => ?_
    refine (Agree.ofFault h.fault v.items).andThen fun items => ?_
    refine (h.forItems targets (runAll h body hbody) items).andThen fun left => ?_
    cases left with
    | true => exact .pure rfl
    | false => exact runOptional h _ otherwise hotherwise
  | .whileTest test body otherwise => fun hstep => by
    rw [Step.run, Step.run, h.turns]
    rw [Step.outline, marked_append, marked_nest] at hstep
    obtain ⟨⟨hkind, hbody⟩, hotherwise⟩ := hstep
    have htest := h.testIn hkind (List.mem_singleton_self test)
    refine (whileTurns htest (runAll h body hbody) below'.turns).andThen fun left => ?_
    cases left with
    | true => exact .pure rfl
    | false => exact runOptional h _ otherwise hotherwise
  | .withBinding e newName body => fun hstep => by
    rw [Step.run, Step.run]
    rw [Step.outline, marked_nest] at hstep
    refine (h.eval hstep.1 (List.mem_singleton_self e)).andThen fun v => ?_
    have hbody := runAll h body hstep.2
    cases newName with
    | none => exact hbody
    | some name => exact (Agree.update fun hs => h.bind name v hs).andThen fun _ => hbody
  | .attempt body handlers otherwise finally_ => fun hstep => by
    rw [Step.run, Step.run]
    simp only [Step.outline, marked_append, marked_nest] at hstep
    obtain ⟨⟨-, hbody⟩, hhandlers, hotherwise, hfinally⟩ := hstep
    refine (runAll h body hbody).settle.bind fun r r' hr => ?_
    have hend : ∀ r r', Settled.Agree E Eq r r' → Agree S E Eq
        (Inlay.runOptional engine below finally_ >>= fun flow => match flow with
          | .normal => Inlay.unsettle r
          | flow => Pure.pure flow)
        (Inlay.runOptional engine' below' finally_ >>= fun flow => match flow with
          | .normal => Inlay.unsettle r'
          | flow => Pure.pure flow) := by
      intro r r' hr
      refine (runOptional h _ finally_ hfinally).andThen fun flow => ?_
      cases flow with
      | normal => exact unsettle hr
      | breakLoop | continueLoop => exact .pure rfl
    cases hr with
    | @ok flow _ value =>
      subst value
      cases flow with
      | normal => exact (runOptional h _ otherwise hotherwise).settle.bind hend
      | breakLoop | continueLoop => exact (Agree.pure (.ok rfl)).bind hend
    | error error =>
      rcases h.sameFault error with ⟨f, rfl, rfl⟩ | ⟨hne, hne'⟩
      · exact (runHandler h f handlers hhandlers).settle.bind hend
      · split
        · exact absurd (Except.error.inj ‹_›) (hne _)
        · rename_i heq
          cases heq
        · split
          · exact absurd (Except.error.inj ‹_›) (hne' _)
          · rename_i heq
            cases heq
          · exact (Agree.pure (.error error)).bind hend
  | .assign targets e => fun hstep => by
    rw [Step.run, Step.run]
    rw [Step.outline, marked_nest] at hstep
    refine (h.eval hstep.1 (List.mem_singleton_self e)).andThen fun v => ?_
    exact (h.bindTargets targets v).andThen fun _ => .pure rfl
  | .importModule head => fun _ => by
    rw [Step.run, Step.run]
    refine (h.membersOf head.module).andThen fun members => ?_
    exact (Agree.update fun hs => h.bind _ _ hs).andThen fun _ => .pure rfl
  | .importNames head => fun _ => by
    rw [Step.run, Step.run]
    refine (h.membersOf head.module).andThen fun members => ?_
    exact (h.bindMembers head.module members head.names).andThen fun _ => .pure rfl
  | .raise head => fun hstep => by
    rw [Step.run, Step.run]
    rw [Step.outline, marked_nest] at hstep
    exact (h.raisedFault hstep.1).andThen fun f => .fail (h.fault f)
  | .declareGlobal names => fun _ => by
    rw [Step.run, Step.run]
    exact (Agree.update fun hs => h.declare names hs).andThen fun _ => .pure rfl
  | .assertion head => fun hstep => by
    rw [Step.run, Step.run]
    rw [Step.outline, marked_nest] at hstep
    refine (h.testIn hstep.1 (List.mem_cons_self ..)).andThen fun holds => ?_
    cases holds with
    | true => exact .pure rfl
    | false =>
      refine (h.textIn hstep.1 head.message fun _ he => List.mem_cons_of_mem _ he).andThen ?_
      exact fun text => .fail (h.fault _)
  | .breakLoop => fun _ => by
    rw [Step.run, Step.run]
    exact .pure rfl
  | .continueLoop => fun _ => by
    rw [Step.run, Step.run]
    exact .pure rfl
  | .comment _ => fun _ => by
    rw [Step.run, Step.run]
    exact .pure rfl

theorem runAll (h : Primitives engine engine' below below' S E P) :
    ∀ steps : List Step, Marked P (Step.outlineAll steps) →
      Agree S E Eq (Inlay.runAll engine below steps) (Inlay.runAll engine' below' steps)
  | [] => fun _ => by
    rw [Inlay.runAll, Inlay.runAll]
    exact .pure rfl
  | step :: rest => fun hsteps => by
    rw [Inlay.runAll, Inlay.runAll]
    rw [Step.outlineAll_cons, marked_append] at hsteps
    refine (run h step hsteps.1).andThen fun flow => ?_
    cases flow with
    | normal => exact runAll h rest hsteps.2
    | breakLoop | continueLoop => exact .pure rfl

theorem runOptional (h : Primitives engine engine' below below' S E P) (c : Clause) :
    ∀ steps : Option (List Step), Marked P (Step.outlineClause c steps) →
      Agree S E Eq (Inlay.runOptional engine below steps) (Inlay.runOptional engine' below' steps)
  | none => fun _ => by
    rw [Inlay.runOptional, Inlay.runOptional]
    exact .pure rfl
  | some body => fun hsteps => by
    rw [Inlay.runOptional, Inlay.runOptional]
    rw [Step.outlineClause, marked_nest] at hsteps
    exact runAll h body hsteps.2

theorem runElifs (h : Primitives engine engine' below below' S E P) :
    ∀ branches : List (Expr × List Step), Marked P (Step.outlineElifs branches) →
      Agree S E Eq (Inlay.runBranches engine below branches)
        (Inlay.runBranches engine' below' branches)
  | [] => fun _ => by
    rw [Inlay.runBranches, Inlay.runBranches]
    exact .pure rfl
  | (test, body) :: rest => fun hbranches => by
    rw [Inlay.runBranches, Inlay.runBranches]
    rw [Step.outlineElifs, marked_append, marked_nest] at hbranches
    obtain ⟨⟨hkind, hbody⟩, hrest⟩ := hbranches
    refine (h.testIn hkind (List.mem_singleton_self test)).andThen fun holds => ?_
    cases holds with
    | true => exact (runAll h body hbody).andThen fun _ => .pure rfl
    | false => exact runElifs h rest hrest

theorem runBranches (h : Primitives engine engine' below below' S E P) :
    ∀ branches : List (Expr × List Step), Marked P (Step.outlineBranches branches) →
      Agree S E Eq (Inlay.runBranches engine below branches)
        (Inlay.runBranches engine' below' branches)
  | [] => fun _ => by
    rw [Inlay.runBranches, Inlay.runBranches]
    exact .pure rfl
  | (test, body) :: rest => fun hbranches => by
    rw [Inlay.runBranches, Inlay.runBranches]
    rw [Step.outlineBranches, marked_append, marked_nest] at hbranches
    obtain ⟨⟨hkind, hbody⟩, hrest⟩ := hbranches
    refine (h.testIn hkind (List.mem_singleton_self test)).andThen fun holds => ?_
    cases holds with
    | true => exact (runAll h body hbody).andThen fun _ => .pure rfl
    | false => exact runElifs h rest hrest

theorem runHandler (h : Primitives engine engine' below below' S E P) (fault : Fault) :
    ∀ handlers : List (ExceptHead × List Step), Marked P (Step.outlineHandlers handlers) →
      Agree S E Eq (Inlay.runHandler engine below fault handlers)
        (Inlay.runHandler engine' below' fault handlers)
  | [] => fun _ => by
    rw [Inlay.runHandler, Inlay.runHandler]
    exact .fail (h.fault fault)
  | (head, body) :: rest => fun hhandlers => by
    rw [Inlay.runHandler, Inlay.runHandler]
    rw [Step.outlineHandlers, marked_append, marked_nest] at hhandlers
    obtain ⟨⟨-, hbody⟩, hrest⟩ := hhandlers
    split
    · exact (h.bindFault head.newName fault).andThen fun _ =>
        h.handlingFault fault (runAll h body hbody)
    · exact runHandler h fault rest hrest

end

end Primitives

end Inlay
