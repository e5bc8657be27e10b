import Inlay.Proofs.Program.Loops
import Inlay.Proofs.Render.Rendering
import Inlay.Proofs.Render.Writers
import Mathlib

/-!
# Leaving loops

A `break` or a `continue` ends the run of every list of steps that it stands in, up to the body of the
innermost loop around it: through branches, `with`, handlers and the clauses of a `try`, and through the
`else` clause of a loop, which stands outside of it.  There the loop takes it.  Only a `finally` clause that
does not come to its end itself puts what it ends with in the place of a `break` or a `continue` that
was pending.

* `Action.Gives`: what an action may end with; `Step.gives_run`: a list of steps that is no part of a loop
  comes to its end.
* `ReachesAll`: a run of steps comes to a step outside of the bodies of its loops.
* `ReachesAll.ends`: a `break` or a `continue` that it comes to in this way ends it, or is overridden.
* `Step.Turn`: a turn of a loop, and what the loop does behind it; `Step.Takes`: a loop takes the flow of a
  step in a turn of its body.
* `MeetsAll.innermost`: wherever a run comes to a step that leaves, a loop takes its flow, or the run is in
  a loop itself.
* `Template.leaves_no_body`: all together, for templates that parse.
-/

namespace Inlay

/-! ## What an action may end with -/

namespace Action

variable {σ α β : Type}

/-- Whatever result the action ends with, `P` holds of it. -/
def Gives (x : Action σ α) (P : α → Prop) : Prop :=
  ∀ ⦃s : σ⦄ ⦃a : α⦄ ⦃t : σ⦄, x s = .done a t → P a

namespace Gives

variable {x : Action σ α} {f : α → Action σ β} {P : α → Prop} {Q : β → Prop}

theorem pure {a : α} (h : P a) : Gives (Pure.pure a : Action σ α) P := by
  intro s b t hend
  cases hend
  exact h

theorem fail (e : Error) : Gives (Action.fail e : Action σ α) P := by
  intro s a t h
  cases h

theorem bind (hx : Gives x P) (hf : ∀ a, P a → Gives (f a) Q) : Gives (x >>= f) Q := by
  intro s b u h
  cases hend : x s with
  | done a t =>
    rw [bind_of_done hend] at h
    exact hf a (hx hend) h
  | failed e t =>
    rw [bind_of_failed hend] at h
    cases h
  | exhausted =>
    rw [bind_of_exhausted hend] at h
    cases h

/-- What comes last decides. -/
theorem last (hf : ∀ a, Gives (f a) Q) : Gives (x >>= f) Q :=
  bind (P := fun _ => True) (fun _ _ _ _ => trivial) fun a _ => hf a

theorem settle (hx : Gives x P) : Gives (Action.settle x) fun r => ∀ a, r = .ok a → P a := by
  intro s r t h a hr
  subst hr
  rw [Action.settle] at h
  split at h
  · cases h
    exact hx ‹_›
  · cases h
  · cases h

end Gives

end Action

/-- The flows that may leave a list of steps: in the body of a loop all of them. -/
def Flow.Leaves (inLoop : Bool) (flow : Flow) : Prop :=
  flow ≠ .normal → inLoop = true

section

variable {engine : Engine} {below : Below}

open Inlay.Action (Gives)

theorem Gives.normal {inLoop : Bool} : Gives (pure .normal : Action Scene Flow) (Flow.Leaves inLoop) :=
  .pure fun h => absurd rfl h

theorem gives_handling {inLoop : Bool} {fault : Fault} {body : Action Scene Flow}
    (h : Gives body (Flow.Leaves inLoop)) : Gives (handling fault body) (Flow.Leaves inLoop) := by
  intro s flow t hend
  rw [handling] at hend
  split at hend
  · cases hend
    exact h ‹_›
  · cases hend
  · cases hend

theorem gives_unsettle {inLoop : Bool} {result : Except Error Flow}
    (h : ∀ flow, result = .ok flow → flow.Leaves inLoop) :
    Gives (unsettle result) (Flow.Leaves inLoop) := by
  cases result with
  | ok flow => exact .pure (h flow rfl)
  | error e => exact .fail e

mutual

/-- **A run that stands in no loop is left by no `break` and no `continue`.** -/
theorem Step.gives_run {inLoop : Bool} : ∀ step : Step, step.Sheltered inLoop →
    Gives (step.run engine below) (Flow.Leaves inLoop)
  | .breakLoop | .continueLoop => fun h => by
    rw [Step.run]
    exact .pure fun _ => h
  | .choose branches otherwise => fun h => by
    rw [Step.run]
    refine .bind (gives_runBranches branches h.1) fun flow hflow => ?_
    cases flow with
    | some flow => exact .pure (hflow flow rfl)
    | none => exact gives_runOptional otherwise h.2
  | .forEach targets iter body otherwise => fun h => by
    rw [Step.run]
    refine .last fun v => .last fun items => .last fun left => ?_
    cases left with
    | true => exact Gives.normal
    | false => exact gives_runOptional otherwise h.2
  | .whileTest test body otherwise => fun h => by
    rw [Step.run]
    refine .last fun left => ?_
    cases left with
    | true => exact Gives.normal
    | false => exact gives_runOptional otherwise h.2
  | .withBinding e newName body => fun h => by
    rw [Step.run]
    refine .last fun v => ?_
    have hbody := gives_runAll body h
    cases newName with
    | none => exact hbody
    | some name => exact .last fun _ => hbody
  | .attempt body handlers otherwise finally_ => fun h => by
    obtain ⟨hbody, hhandlers, hotherwise, hfinally⟩ := h
    have htried : Gives (tried engine below body handlers otherwise)
        fun r => ∀ flow, r = .ok flow → flow.Leaves inLoop := by
      rw [tried]
      refine .bind (gives_runAll body hbody).settle fun result hresult => ?_
      cases result with
      | ok flow =>
        cases flow with
        | normal => exact (gives_runOptional otherwise hotherwise).settle
        | breakLoop | continueLoop => exact .pure hresult
      | error e =>
        cases e with
        | fault f => exact (gives_runHandler f handlers hhandlers).settle
        | _ => exact .pure hresult
    rw [Step.run_attempt]
    refine .bind htried fun result hresult => ?_
    refine .bind (gives_runOptional finally_ hfinally) fun flow hflow => ?_
    cases flow with
    | normal => exact gives_unsettle hresult
    | breakLoop | continueLoop => exact .pure hflow
  | .text _ | .block _ | .declareGlobal _ => fun _ => by
    rw [Step.run]
    exact .last fun _ => Gives.normal
  | .output .. | .inheritance _ | .assign .. | .importModule _ | .importNames _ => fun _ => by
    rw [Step.run]
    exact .last fun _ => .last fun _ => Gives.normal
  | .inclusion _ => fun _ => by
    rw [Step.run]
    exact .last fun _ => .last fun _ => .last fun _ => Gives.normal
  | .raise _ => fun _ => by
    rw [Step.run]
    exact .last fun _ => .fail _
  | .assertion head => fun _ => by
    rw [Step.run]
    refine .last fun holds => ?_
    cases holds with
    | true => exact Gives.normal
    | false => exact .last fun _ => .fail _
  | .comment _ => fun _ => by
    rw [Step.run]
    exact Gives.normal

theorem gives_runAll {inLoop : Bool} : ∀ steps : List Step, Step.AllSheltered inLoop steps →
    Gives (runAll engine below steps) (Flow.Leaves inLoop)
  | [] => fun _ => by
    rw [runAll]
    exact Gives.normal
  | step :: rest => fun h => by
    rw [runAll]
    refine .bind (Step.gives_run step h.1) fun flow hflow => ?_
    cases flow with
    | normal => exact gives_runAll rest h.2
    | breakLoop | continueLoop => exact .pure hflow

theorem gives_runOptional {inLoop : Bool} : ∀ steps : Option (List Step),
    Step.OptionalSheltered inLoop steps →
      Gives (runOptional engine below steps) (Flow.Leaves inLoop)
  | none => fun _ => by
    rw [runOptional]
    exact Gives.normal
  | some body => fun h => by
    rw [runOptional]
    exact gives_runAll body h

theorem gives_runBranches {inLoop : Bool} : ∀ branches : List (Expr × List Step),
    Step.BranchesSheltered inLoop branches →
      Gives (runBranches engine below branches) fun r => ∀ flow, r = some flow → flow.Leaves inLoop
  | [] => fun _ => by
    rw [runBranches]
    exact .pure fun _ h => nomatch h
  | (test, body) :: rest => fun h => by
    rw [runBranches]
    refine .last fun holds => ?_
    cases holds with
    | true =>
      refine .bind (gives_runAll body h.1) fun flow hflow => .pure ?_
      rintro _ ⟨⟩
      exact hflow
    | false => exact gives_runBranches rest h.2

theorem gives_runHandler {inLoop : Bool} (fault : Fault) :
    ∀ handlers : List (ExceptHead × List Step), Step.HandlersSheltered inLoop handlers →
      Gives (runHandler engine below fault handlers) (Flow.Leaves inLoop)
  | [] => fun _ => by
    rw [runHandler]
    exact .fail _
  | (head, body) :: rest => fun h => by
    rw [runHandler]
    split
    · exact .last fun _ => gives_handling (gives_runAll body h.1)
    · exact gives_runHandler fault rest h.2

end

end

/-! ## What a run comes to outside of its loops -/

section

variable (engine : Engine) (below : Below) (watch : Step → Scene → Prop)

mutual

/-- A run of the step comes to a step that is watched for, outside of the bodies of its loops, the step
itself apart. -/
def Step.ReachesWithin : Step → Scene → Prop
  | .choose branches otherwise => fun s =>
    BranchesReach branches s ∨ (runBranches engine below branches).Then (fun flow t =>
      flow = none ∧ OptionalReaches otherwise t) s
  | .forEach targets iter body otherwise => fun s =>
    (evalIn engine below iter).Then (fun v t => ∃ items, v.items = .ok items ∧
      (forItems (bindTargets targets) (runAll engine below body) items).Then (fun left u =>
        left = false ∧ OptionalReaches otherwise u) t) s
  | .whileTest test body otherwise => fun s =>
    (whileTurns (testIn engine below test) (runAll engine below body) below.turns).Then
      (fun left t => left = false ∧ OptionalReaches otherwise t) s
  | .withBinding e newName body => fun s => (evalIn engine below e).Then (fun v t =>
      ReachesAll body (newName.elim t fun name => t.bind name v)) s
  | .attempt body handlers otherwise finally_ => fun s =>
    ReachesAll body s ∨
      (∃ f t, runAll engine below body s = .failed (.fault f) t ∧ HandlersReach f handlers t) ∨
      (∃ t, runAll engine below body s = .done .normal t ∧ OptionalReaches otherwise t) ∨
      (tried engine below body handlers otherwise).Then (fun _ => OptionalReaches finally_) s
  | .text _ | .output .. | .block _ | .inclusion _ | .inheritance _ | .assign .. | .importModule _
  | .importNames _ | .raise _ | .declareGlobal _ | .assertion _ | .breakLoop | .continueLoop
  | .comment _ => fun _ => False

/-- **A run of steps comes to a step that is watched for, outside of the bodies of its loops.** -/
def ReachesAll : List Step → Scene → Prop
  | [] => fun _ => False
  | step :: rest => fun s =>
    watch step s ∨ step.ReachesWithin s ∨
      (step.run engine below).Then (fun flow t => flow = .normal ∧ ReachesAll rest t) s

/-- So does a run of steps if there are any. -/
def OptionalReaches : Option (List Step) → Scene → Prop
  | none => fun _ => False
  | some body => ReachesAll body

/-- So does the branch of a choice that is chosen. -/
def BranchesReach : List (Expr × List Step) → Scene → Prop
  | [] => fun _ => False
  | (test, body) :: rest => fun s => (testIn engine below test).Then (fun holds t =>
      (holds = true ∧ ReachesAll body t) ∨ (holds = false ∧ BranchesReach rest t)) s

/-- So does the handler of a fault. -/
def HandlersReach (fault : Fault) : List (ExceptHead × List Step) → Scene → Prop
  | [] => fun _ => False
  | (head, body) :: rest => fun s =>
    (head.handles fault = true ∧ (bindFault head.newName fault).Then (fun _ t =>
      ReachesAll body { t with frame.handling := some fault }) s) ∨
      (head.handles fault = false ∧ HandlersReach fault rest s)

end

end

/-- The step leaves a loop or its turn, in a certain scene. -/
def Step.Leaves (flow : Flow) (u : Scene) : Step → Scene → Prop
  | .breakLoop, s => flow = .breakLoop ∧ s = u
  | .continueLoop, s => flow = .continueLoop ∧ s = u
  | _, _ => False

/-- The step is a `try` with a step in it that leaves, and its `finally` clause begins while the flow of
this step is pending, and does not come to its end.  What it comes to instead takes the place of the
flow. -/
def Step.Overrides (engine : Engine) (below : Below) (flow : Flow) (u : Scene) : Step → Scene → Prop
  | .attempt body handlers otherwise finally_, s =>
    (Step.attempt body handlers otherwise finally_).ReachesWithin engine below (Step.Leaves flow u) s ∧
      ∃ t, tried engine below body handlers otherwise s = .done (.ok flow) t ∧
        (∀ v, runOptional engine below finally_ t ≠ .done .normal v) ∧
        (Step.attempt body handlers otherwise finally_).run engine below s =
          runOptional engine below finally_ t
  | _, _ => False

section

variable {engine : Engine} {below : Below} {flow : Flow} {u : Scene}

theorem Step.Leaves.ne_normal {step : Step} {s : Scene} (h : step.Leaves flow u s) :
    flow ≠ .normal := by
  unfold Step.Leaves at h
  split at h
  · exact h.1 ▸ Flow.noConfusion
  · exact h.1 ▸ Flow.noConfusion
  · exact h.elim

theorem Step.Leaves.run_eq {step : Step} {s : Scene} (h : step.Leaves flow u s) :
    step.run engine below s = .done flow s := by
  unfold Step.Leaves at h
  split at h
  · obtain ⟨rfl, rfl⟩ := h
    rw [Step.run]
    rfl
  · obtain ⟨rfl, rfl⟩ := h
    rw [Step.run]
    rfl
  · exact h.elim

/-- A step that leaves stands in a loop. -/
theorem Step.Leaves.inLoop {inLoop : Bool} {step : Step} {s : Scene} (hstep : step.Sheltered inLoop)
    (h : step.Leaves flow u s) : inLoop = true := by
  unfold Step.Leaves at h
  split at h
  · exact hstep
  · exact hstep
  · exact h.elim

/-- A flow that is pending in a `try` leaves it, or is overridden. -/
theorem ends_or_overrides {body : List Step} {handlers : List (ExceptHead × List Step)}
    {otherwise finally_ : Option (List Step)} {s t : Scene}
    (hreaches : (Step.attempt body handlers otherwise finally_).ReachesWithin engine below
      (Step.Leaves flow u) s)
    (h : tried engine below body handlers otherwise s = .done (.ok flow) t) :
    (∃ t, (Step.attempt body handlers otherwise finally_).run engine below s = .done flow t) ∨
      (Step.attempt body handlers otherwise finally_).Overrides engine below flow u s := by
  have hrun := (congrFun (Step.run_attempt body handlers otherwise finally_) s).trans
    (Action.bind_of_done h _)
  have hcut (hend : ∀ v, runOptional engine below finally_ t ≠ .done .normal v)
      (hsame : (Step.attempt body handlers otherwise finally_).run engine below s =
        runOptional engine below finally_ t) :
      (Step.attempt body handlers otherwise finally_).Overrides engine below flow u s :=
    ⟨hreaches, t, h, hend, hsame⟩
  cases hend : runOptional engine below finally_ t with
  | done last v =>
    replace hrun := hrun.trans (Action.bind_of_done hend _)
    rw [hend] at hcut
    cases last with
    | normal => exact Or.inl ⟨v, hrun⟩
    | breakLoop | continueLoop => exact Or.inr (hcut (fun _ h => nomatch h) hrun)
  | failed e v =>
    rw [hend] at hcut
    exact Or.inr (hcut (fun _ h => nomatch h) (hrun.trans (Action.bind_of_failed hend _)))
  | exhausted =>
    rw [hend] at hcut
    exact Or.inr (hcut (fun _ h => nomatch h) (hrun.trans (Action.bind_of_exhausted hend _)))

theorem tried_of_body {body : List Step} {handlers : List (ExceptHead × List Step)}
    {otherwise : Option (List Step)} {s t : Scene} (h : runAll engine below body s = .done flow t)
    (hflow : flow ≠ .normal) :
    tried engine below body handlers otherwise s = .done (.ok flow) t := by
  refine (Action.bind_of_done (Action.settle_of_done h) _).trans ?_
  cases flow with
  | normal => exact absurd rfl hflow
  | breakLoop | continueLoop => rfl

theorem tried_of_handler {body : List Step} {handlers : List (ExceptHead × List Step)}
    {otherwise : Option (List Step)} {s t v : Scene} {f : Fault}
    (h : runAll engine below body s = .failed (.fault f) t)
    (hhandler : runHandler engine below f handlers t = .done flow v) :
    tried engine below body handlers otherwise s = .done (.ok flow) v :=
  (Action.bind_of_done (Action.settle_of_failed h) _).trans (Action.settle_of_done hhandler)

theorem tried_of_otherwise {body : List Step} {handlers : List (ExceptHead × List Step)}
    {otherwise : Option (List Step)} {s t v : Scene}
    (h : runAll engine below body s = .done .normal t)
    (hotherwise : runOptional engine below otherwise t = .done flow v) :
    tried engine below body handlers otherwise s = .done (.ok flow) v :=
  (Action.bind_of_done (Action.settle_of_done h) _).trans (Action.settle_of_done hotherwise)

end

/-! ## A step that leaves ends what it stands in -/

section

variable {engine : Engine} {below : Below} {flow : Flow} {u : Scene}

mutual

theorem Step.ReachesWithin.ends (hflow : flow ≠ .normal) : ∀ (step : Step) (s : Scene),
    step.ReachesWithin engine below (Step.Leaves flow u) s →
      (∃ t, step.run engine below s = .done flow t) ∨ step.Overrides engine below flow u s ∨
        step.ReachesWithin engine below (Step.Overrides engine below flow u) s
  | .choose branches otherwise, s => by
    rw [Step.run]
    rintro (h | ⟨_, t, hbranches, rfl, h⟩)
    · rcases BranchesReach.ends hflow branches s h with ⟨t, ht⟩ | h
      · exact Or.inl ⟨t, Action.bind_of_done ht _⟩
      · exact Or.inr (Or.inr (Or.inl h))
    · rcases OptionalReaches.ends hflow otherwise t h with ⟨v, hv⟩ | h
      · exact Or.inl ⟨v, (Action.bind_of_done hbranches _).trans hv⟩
      · exact Or.inr (Or.inr (Or.inr ⟨none, t, hbranches, rfl, h⟩))
  | .forEach targets iter body otherwise, s => by
    rw [Step.run]
    rintro ⟨v, t, hiter, items, hitems, _, w, hloop, rfl, h⟩
    rcases OptionalReaches.ends hflow otherwise w h with ⟨x, hx⟩ | h
    · refine Or.inl ⟨x, (Action.bind_of_done hiter _).trans ?_⟩
      rw [hitems]
      exact (Action.bind_of_done hloop _).trans hx
    · exact Or.inr (Or.inr ⟨v, t, hiter, items, hitems, false, w, hloop, rfl, h⟩)
  | .whileTest test body otherwise, s => by
    rw [Step.run]
    rintro ⟨_, t, hloop, rfl, h⟩
    rcases OptionalReaches.ends hflow otherwise t h with ⟨v, hv⟩ | h
    · exact Or.inl ⟨v, (Action.bind_of_done hloop _).trans hv⟩
    · exact Or.inr (Or.inr ⟨false, t, hloop, rfl, h⟩)
  | .withBinding e newName body, s => by
    rw [Step.run]
    rintro ⟨v, t, he, h⟩
    rcases ReachesAll.ends hflow body _ h with ⟨w, hw⟩ | h
    · refine Or.inl ⟨w, (Action.bind_of_done he _).trans ?_⟩
      cases newName with
      | none => exact hw
      | some name => exact hw
    · exact Or.inr (Or.inr ⟨v, t, he, h⟩)
  | .attempt body handlers otherwise finally_, s => by
    rintro (h | ⟨f, t, hbody, h⟩ | ⟨t, hbody, h⟩ | ⟨result, t, htried, h⟩)
    · rcases ReachesAll.ends hflow body s h with ⟨t, ht⟩ | h
      · exact (ends_or_overrides (Or.inl h) (tried_of_body ht hflow)).imp_right Or.inl
      · exact Or.inr (Or.inr (Or.inl h))
    · rcases HandlersReach.ends hflow f handlers t h with ⟨v, hv⟩ | h
      · refine (ends_or_overrides ?_ (tried_of_handler hbody hv)).imp_right Or.inl
        exact Or.inr (Or.inl ⟨f, t, hbody, h⟩)
      · exact Or.inr (Or.inr (Or.inr (Or.inl ⟨f, t, hbody, h⟩)))
    · rcases OptionalReaches.ends hflow otherwise t h with ⟨v, hv⟩ | h
      · refine (ends_or_overrides ?_ (tried_of_otherwise hbody hv)).imp_right Or.inl
        exact Or.inr (Or.inr (Or.inl ⟨t, hbody, h⟩))
      · exact Or.inr (Or.inr (Or.inr (Or.inr (Or.inl ⟨t, hbody, h⟩))))
    · rcases OptionalReaches.ends hflow finally_ t h with ⟨v, hv⟩ | h
      · refine Or.inl ⟨v, ?_⟩
        rw [Step.run_attempt, Action.bind_of_done htried, Action.bind_of_done hv]
        cases flow with
        | normal => exact absurd rfl hflow
        | breakLoop | continueLoop => rfl
      · exact Or.inr (Or.inr (Or.inr (Or.inr (Or.inr ⟨result, t, htried, h⟩))))
  | .text _, _ | .output .., _ | .block _, _ | .inclusion _, _ | .inheritance _, _ | .assign .., _
  | .importModule _, _ | .importNames _, _ | .raise _, _ | .declareGlobal _, _ | .assertion _, _
  | .breakLoop, _ | .continueLoop, _ | .comment _, _ => False.elim

/-- **A `break` or a `continue` ends the run that comes to it outside of its loops**, unless a `finally`
clause overrides it. -/
theorem ReachesAll.ends (hflow : flow ≠ .normal) : ∀ (steps : List Step) (s : Scene),
    ReachesAll engine below (Step.Leaves flow u) steps s →
      (∃ t, runAll engine below steps s = .done flow t) ∨
        ReachesAll engine below (Step.Overrides engine below flow u) steps s
  | [], _ => False.elim
  | step :: rest, s => by
    have hleft : ∀ {t}, step.run engine below s = .done flow t →
        runAll engine below (step :: rest) s = .done flow t := by
      intro t ht
      rw [runAll, Action.bind_of_done ht]
      cases flow with
      | normal => exact absurd rfl hflow
      | breakLoop | continueLoop => rfl
    rintro (h | h | ⟨_, t, hstep, rfl, h⟩)
    · exact Or.inl ⟨s, hleft h.run_eq⟩
    · rcases Step.ReachesWithin.ends hflow step s h with ⟨t, ht⟩ | h | h
      · exact Or.inl ⟨t, hleft ht⟩
      · exact Or.inr (Or.inl h)
      · exact Or.inr (Or.inr (Or.inl h))
    · rcases ReachesAll.ends hflow rest t h with ⟨v, hv⟩ | h
      · refine Or.inl ⟨v, ?_⟩
        rw [runAll, Action.bind_of_done hstep]
        exact hv
      · exact Or.inr (Or.inr (Or.inr ⟨.normal, t, hstep, rfl, h⟩))

theorem OptionalReaches.ends (hflow : flow ≠ .normal) : ∀ (steps : Option (List Step)) (s : Scene),
    OptionalReaches engine below (Step.Leaves flow u) steps s →
      (∃ t, runOptional engine below steps s = .done flow t) ∨
        OptionalReaches engine below (Step.Overrides engine below flow u) steps s
  | none, _ => False.elim
  | some body, s => by
    rw [runOptional]
    exact ReachesAll.ends hflow body s

theorem BranchesReach.ends (hflow : flow ≠ .normal) :
    ∀ (branches : List (Expr × List Step)) (s : Scene),
      BranchesReach engine below (Step.Leaves flow u) branches s →
        (∃ t, runBranches engine below branches s = .done (some flow) t) ∨
          BranchesReach engine below (Step.Overrides engine below flow u) branches s
  | [], _ => False.elim
  | (test, body) :: rest, s => by
    rw [runBranches]
    rintro ⟨_, t, htest, ⟨rfl, h⟩ | ⟨rfl, h⟩⟩
    · rcases ReachesAll.ends hflow body t h with ⟨v, hv⟩ | h
      · exact Or.inl ⟨v, (Action.bind_of_done htest _).trans (Action.bind_of_done hv _)⟩
      · exact Or.inr ⟨true, t, htest, Or.inl ⟨rfl, h⟩⟩
    · rcases BranchesReach.ends hflow rest t h with ⟨v, hv⟩ | h
      · exact Or.inl ⟨v, (Action.bind_of_done htest _).trans hv⟩
      · exact Or.inr ⟨false, t, htest, Or.inr ⟨rfl, h⟩⟩

theorem HandlersReach.ends (hflow : flow ≠ .normal) (fault : Fault) :
    ∀ (handlers : List (ExceptHead × List Step)) (s : Scene),
      HandlersReach engine below (Step.Leaves flow u) fault handlers s →
        (∃ t, runHandler engine below fault handlers s = .done flow t) ∨
          HandlersReach engine below (Step.Overrides engine below flow u) fault handlers s
  | [], _ => False.elim
  | (head, body) :: rest, s => by
    rw [runHandler]
    rintro (⟨hhandles, _, t, hbind, h⟩ | ⟨hhandles, h⟩)
    · rw [if_pos hhandles]
      rcases ReachesAll.ends hflow body _ h with ⟨v, hv⟩ | h
      · refine Or.inl ⟨{ v with frame.handling := t.frame.handling }, ?_⟩
        rw [Action.bind_of_done hbind, handling, hv]
      · exact Or.inr (Or.inl ⟨hhandles, (), t, hbind, h⟩)
    · rw [if_neg (Bool.eq_false_iff.mp hhandles)]
      rcases HandlersReach.ends hflow fault rest s h with ⟨v, hv⟩ | h
      · exact Or.inl ⟨v, hv⟩
      · exact Or.inr (Or.inr ⟨hhandles, h⟩)

end

end

/-! ## The turns of loops -/

/-- A loop over items comes to a turn in a scene, with items left for further turns. -/
inductive ItemTurn (bind : Value → Action Scene Unit) (body : Action Scene Flow) :
    List Value → Scene → Scene → List Value → Prop
  | now {v rest s t} (hbind : bind v s = .done () t) : ItemTurn bind body (v :: rest) s t rest
  | later {v rest left s t u x flow} (hbind : bind v s = .done () t)
      (hbody : body t = .done flow u) (hflow : flow ≠ .breakLoop)
      (hlater : ItemTurn bind body rest u x left) : ItemTurn bind body (v :: rest) s x left

/-- A loop with a test comes to a turn in a scene, and may take so many further turns. -/
inductive TestTurn (test : Action Scene Bool) (body : Action Scene Flow) :
    Nat → Scene → Scene → Nat → Prop
  | now {turns s t} (htest : test s = .done true t) : TestTurn test body (turns + 1) s t turns
  | later {turns left s t u x flow} (htest : test s = .done true t)
      (hbody : body t = .done flow u) (hflow : flow ≠ .breakLoop)
      (hlater : TestTurn test body turns u x left) : TestTurn test body (turns + 1) s x left

/-- How a turn leads on: `stopped` tells what comes of a loop that a `break` ends, and `next` is the
loop from the next turn on. -/
def afterTurn {α : Type} (stopped : α) (next : Action Scene α) : Flow → Action Scene α
  | .breakLoop => pure stopped
  | _ => next

theorem afterTurn_of_ne {α : Type} {stopped : α} {next : Action Scene α} {flow : Flow}
    (h : flow ≠ .breakLoop) : afterTurn stopped next flow = next := by
  cases flow with
  | breakLoop => exact absurd rfl h
  | normal | continueLoop => rfl

/-- What comes of a loop and its `else` clause. -/
def elseOf (otherwise : Action Scene Flow) : Bool → Action Scene Flow
  | true => pure .normal
  | false => otherwise

theorem afterTurn_bind_elseOf (next : Action Scene Bool) (otherwise : Action Scene Flow)
    (flow : Flow) : afterTurn true next flow >>= elseOf otherwise =
      afterTurn .normal (next >>= elseOf otherwise) flow := by
  cases flow with
  | breakLoop => exact pure_bind true _
  | normal | continueLoop => rfl

section

variable {bind : Value → Action Scene Unit} {test : Action Scene Bool} {body : Action Scene Flow}

theorem forItems_cons (v : Value) (rest : List Value) : forItems bind body (v :: rest) =
    bind v >>= fun _ => body >>= afterTurn true (forItems bind body rest) := by
  rw [forItems]
  refine congrArg _ (funext fun _ => congrArg _ (funext fun flow => ?_))
  cases flow <;> rfl

theorem whileTurns_of_holds {turns : Nat} {s t : Scene} (h : test s = .done true t) :
    whileTurns test body (turns + 1) s =
      (body >>= afterTurn true (whileTurns test body turns)) t := by
  rw [whileTurns]
  refine (Action.bind_of_done h _).trans ?_
  rw [if_pos rfl]
  refine congrFun (congrArg _ (funext fun flow => ?_)) t
  cases flow <;> rfl

/-- From a turn on, a loop over items is this turn and the next ones. -/
theorem ItemTurn.forItems_eq {items left : List Value} {s t : Scene}
    (h : ItemTurn bind body items s t left) :
    forItems bind body items s = (body >>= afterTurn true (forItems bind body left)) t := by
  induction h with
  | now hbind => rw [forItems_cons, Action.bind_of_done hbind]
  | later hbind hbody hflow _ ih =>
    rw [forItems_cons, Action.bind_of_done hbind, Action.bind_of_done hbody,
      afterTurn_of_ne hflow, ih]

/-- So is a loop with a test. -/
theorem TestTurn.whileTurns_eq {turns left : Nat} {s t : Scene}
    (h : TestTurn test body turns s t left) :
    whileTurns test body turns s = (body >>= afterTurn true (whileTurns test body left)) t := by
  induction h with
  | now htest => exact whileTurns_of_holds htest
  | later htest hbody hflow _ ih =>
    rw [whileTurns_of_holds htest, Action.bind_of_done hbody, afterTurn_of_ne hflow, ih]

/-- What a loop over items comes to in its turns, it comes to in one of two ways if it does so in each
turn. -/
theorem ItemsMeet.turn_or {meets here meets' : Scene → Prop}
    (hmeets : ∀ t, meets t → here t ∨ meets' t) {items : List Value} {s : Scene}
    (h : ItemsMeet bind body meets items s) :
    (∃ t left, ItemTurn bind body items s t left ∧ here t) ∨ ItemsMeet bind body meets' items s := by
  induction items generalizing s with
  | nil => exact h.elim
  | cons v rest ih =>
    obtain ⟨_, t, hbind, h | ⟨flow, u, hbody, hflow, h⟩⟩ := h
    · refine (hmeets t h).imp (fun h => ⟨t, rest, .now hbind, h⟩) fun h => ?_
      exact ⟨(), t, hbind, Or.inl h⟩
    · refine (ih h).imp ?_ fun h => ⟨(), t, hbind, Or.inr ⟨flow, u, hbody, hflow, h⟩⟩
      rintro ⟨x, left, hlater, h⟩
      exact ⟨x, left, .later hbind hbody hflow hlater, h⟩

theorem TurnsMeet.turn_or {tests tests' meets here meets' : Scene → Prop}
    (htests : ∀ t, tests t → tests' t) (hmeets : ∀ t, meets t → here t ∨ meets' t) {turns : Nat}
    {s : Scene} (h : TurnsMeet test body tests meets turns s) :
    (∃ t left, TestTurn test body turns s t left ∧ here t) ∨
      TurnsMeet test body tests' meets' turns s := by
  induction turns generalizing s with
  | zero => exact h.elim
  | succ turns ih =>
    obtain h | ⟨_, t, htest, rfl, h | ⟨flow, u, hbody, hflow, h⟩⟩ := h
    · exact Or.inr (Or.inl (htests s h))
    · refine (hmeets t h).imp (fun h => ⟨t, turns, .now htest, h⟩) fun h => ?_
      exact Or.inr ⟨true, t, htest, rfl, Or.inl h⟩
    · refine (ih h).imp ?_ fun h => Or.inr ⟨true, t, htest, rfl, Or.inr ⟨flow, u, hbody, hflow, h⟩⟩
      rintro ⟨x, left, hlater, h⟩
      exact ⟨x, left, .later htest hbody hflow hlater, h⟩

end

/-- **A loop that is run in the scene `s` comes to a turn of its body in the scene `t`.**  The action is what
it does from the next turn on. -/
inductive Step.Turn (engine : Engine) (below : Below) :
    Step → Scene → List Step → Scene → Action Scene Flow → Prop
  | forEach {targets iter body otherwise v items left s r t}
      (hiter : evalIn engine below iter s = .done v r) (hitems : v.items = .ok items)
      (hturn : ItemTurn (bindTargets targets) (runAll engine below body) items r t left) :
      Turn engine below (.forEach targets iter body otherwise) s body t
        (forItems (bindTargets targets) (runAll engine below body) left >>=
          elseOf (runOptional engine below otherwise))
  | whileTest {test body otherwise left s t}
      (hturn : TestTurn (testIn engine below test) (runAll engine below body) below.turns s t left) :
      Turn engine below (.whileTest test body otherwise) s body t
        (whileTurns (testIn engine below test) (runAll engine below body) left >>=
          elseOf (runOptional engine below otherwise))

section

variable {engine : Engine} {below : Below}

theorem Step.run_forEach {targets : List String} {iter : Expr} {body : List Step}
    {otherwise : Option (List Step)} {v : Value} {items : List Value} {s t : Scene}
    (hiter : evalIn engine below iter s = .done v t) (hitems : v.items = .ok items) :
    (Step.forEach targets iter body otherwise).run engine below s =
      (forItems (bindTargets targets) (runAll engine below body) items >>=
        elseOf (runOptional engine below otherwise)) t := by
  rw [Step.run]
  refine (Action.bind_of_done hiter _).trans ?_
  rw [hitems, Action.ofFault, pure_bind]
  refine congrFun (congrArg _ (funext fun left => ?_)) t
  cases left <;> rfl

theorem Step.run_whileTest (test : Expr) (body : List Step) (otherwise : Option (List Step)) :
    (Step.whileTest test body otherwise).run engine below =
      whileTurns (testIn engine below test) (runAll engine below body) below.turns >>=
        elseOf (runOptional engine below otherwise) := by
  rw [Step.run]
  refine congrArg _ (funext fun left => ?_)
  cases left <;> rfl

/-- **From a turn on, a loop is this turn, and then either its end or the next turns.** -/
theorem Step.Turn.run_eq {step : Step} {s t : Scene} {body : List Step} {next : Action Scene Flow}
    (h : step.Turn engine below s body t next) :
    step.run engine below s = (runAll engine below body >>= afterTurn .normal next) t := by
  cases h with
  | forEach hiter hitems hturn =>
    rw [Step.run_forEach hiter hitems, Action.bind_congr hturn.forItems_eq, bind_assoc]
    exact congrFun (congrArg _ (funext fun flow => afterTurn_bind_elseOf ..)) t
  | whileTest hturn =>
    rw [Step.run_whileTest, Action.bind_congr hturn.whileTurns_eq, bind_assoc]
    exact congrFun (congrArg _ (funext fun flow => afterTurn_bind_elseOf ..)) t

end

/-! ## The loop around a step that leaves -/

/-- **A loop takes the flow of a step in it.**  In a turn of its body the step stands in no further loop,
and either the flow ends the turn and the loop goes by it, or a `finally` clause of the body has
overridden it. -/
def Step.Takes (engine : Engine) (below : Below) (flow : Flow) (u : Scene) (step : Step) (s : Scene) :
    Prop :=
  ∃ body t next, step.Turn engine below s body t next ∧
    ReachesAll engine below (Step.Leaves flow u) body t ∧
      ((∃ v, runAll engine below body t = .done flow v ∧
          step.run engine below s = afterTurn .normal next flow v) ∨
        ReachesAll engine below (Step.Overrides engine below flow u) body t)

/-- The point is a step that leaves a loop or its turn, in a certain scene. -/
def Point.Leaves (flow : Flow) (u : Scene) : Point → Scene → Prop
  | .step leaving, s => leaving.Leaves flow u s
  | .expr _, _ => False

/-- The point is a loop that takes the flow of a step in it. -/
def Point.Takes (engine : Engine) (below : Below) (flow : Flow) (u : Scene) : Point → Scene → Prop
  | .step loop, s => loop.Takes engine below flow u s
  | .expr _, _ => False

section

variable {engine : Engine} {below : Below} {flow : Flow} {u : Scene}

/-- A loop takes what its body comes to outside of further loops. -/
theorem Step.Turn.takes (hflow : flow ≠ .normal) {step : Step} {s t : Scene} {body : List Step}
    {next : Action Scene Flow} (h : step.Turn engine below s body t next)
    (hleaves : ReachesAll engine below (Step.Leaves flow u) body t) :
    step.Takes engine below flow u s := by
  refine ⟨body, t, next, h, hleaves, (hleaves.ends hflow).imp_left ?_⟩
  rintro ⟨v, hv⟩
  exact ⟨v, hv, h.run_eq.trans (Action.bind_of_done hv _)⟩

mutual

theorem Step.MeetsWithin.innermost (hflow : flow ≠ .normal) {inLoop : Bool} :
    ∀ (step : Step) (s : Scene), step.Sheltered inLoop →
      step.MeetsWithin engine below (Point.Leaves flow u) s →
        (inLoop = true ∧ step.ReachesWithin engine below (Step.Leaves flow u) s) ∨
          step.Takes engine below flow u s ∨
            step.MeetsWithin engine below (Point.Takes engine below flow u) s
  | .choose branches otherwise, s => by
    rintro ⟨hbranches, hotherwise⟩ (h | ⟨_, t, hrun, rfl, h⟩)
    · exact (BranchesMeet.innermost hflow branches s hbranches h).imp (And.imp_right Or.inl)
        fun h => Or.inr (Or.inl h)
    · exact (OptionalMeets.innermost hflow otherwise t hotherwise h).imp
        (And.imp_right fun h => Or.inr ⟨none, t, hrun, rfl, h⟩)
        fun h => Or.inr (Or.inr ⟨none, t, hrun, rfl, h⟩)
  | .forEach targets iter body otherwise, s => by
    rintro ⟨hbody, hotherwise⟩ (h | ⟨v, r, hiter, items, hitems, h | ⟨_, t, hloop, rfl, h⟩⟩)
    · exact h.elim
    · -- In the body of the loop it stands in this loop or in one further in.
      have hmeets (t : Scene) (h : MeetsAll engine below (Point.Leaves flow u) body t) :=
        (MeetsAll.innermost hflow body t hbody h).imp_left And.right
      refine Or.inr ((h.turn_or hmeets).imp ?_ fun h => Or.inr ⟨v, r, hiter, items, hitems, Or.inl h⟩)
      rintro ⟨t, left, hturn, h⟩
      exact (Step.Turn.forEach hiter hitems hturn).takes hflow h
    · exact (OptionalMeets.innermost hflow otherwise t hotherwise h).imp
        (And.imp_right fun h => ⟨v, r, hiter, items, hitems, false, t, hloop, rfl, h⟩)
        fun h => Or.inr (Or.inr ⟨v, r, hiter, items, hitems, Or.inr ⟨false, t, hloop, rfl, h⟩⟩)
  | .whileTest test body otherwise, s => by
    rintro ⟨hbody, hotherwise⟩ (h | ⟨_, t, hloop, rfl, h⟩)
    · have hmeets (t : Scene) (h : MeetsAll engine below (Point.Leaves flow u) body t) :=
        (MeetsAll.innermost hflow body t hbody h).imp_left And.right
      refine Or.inr ((h.turn_or (fun _ h => h.elim) hmeets).imp ?_ Or.inl)
      rintro ⟨t, left, hturn, h⟩
      exact (Step.Turn.whileTest hturn).takes hflow h
    · exact (OptionalMeets.innermost hflow otherwise t hotherwise h).imp
        (And.imp_right fun h => ⟨false, t, hloop, rfl, h⟩)
        fun h => Or.inr (Or.inr ⟨false, t, hloop, rfl, h⟩)
  | .withBinding e newName body, s => by
    rintro hbody (h | ⟨v, t, he, h⟩)
    · exact h.elim
    · exact (MeetsAll.innermost hflow body _ hbody h).imp
        (And.imp_right fun h => ⟨v, t, he, h⟩) fun h => Or.inr (Or.inr ⟨v, t, he, h⟩)
  | .attempt body handlers otherwise finally_, s => by
    rintro ⟨hbody, hhandlers, hotherwise, hfinally⟩
      (h | ⟨f, t, hrun, h⟩ | ⟨t, hrun, h⟩ | ⟨result, t, hrun, h⟩)
    · exact (MeetsAll.innermost hflow body s hbody h).imp (And.imp_right Or.inl)
        fun h => Or.inr (Or.inl h)
    · exact (HandlersMeet.innermost hflow f handlers t hhandlers h).imp
        (And.imp_right fun h => Or.inr (Or.inl ⟨f, t, hrun, h⟩))
        fun h => Or.inr (Or.inr (Or.inl ⟨f, t, hrun, h⟩))
    · exact (OptionalMeets.innermost hflow otherwise t hotherwise h).imp
        (And.imp_right fun h => Or.inr (Or.inr (Or.inl ⟨t, hrun, h⟩)))
        fun h => Or.inr (Or.inr (Or.inr (Or.inl ⟨t, hrun, h⟩)))
    · exact (OptionalMeets.innermost hflow finally_ t hfinally h).imp
        (And.imp_right fun h => Or.inr (Or.inr (Or.inr ⟨result, t, hrun, h⟩)))
        fun h => Or.inr (Or.inr (Or.inr (Or.inr ⟨result, t, hrun, h⟩)))
  | .output .., _ | .inclusion _, _ | .inheritance _, _ | .assign .., _ => fun _ h => h.elim
  | .raise _, _ => by
    rintro _ ⟨_, _, h⟩
    exact h.elim
  | .assertion _, _ => by
    rintro _ (h | ⟨_, _, _, _, _, _, h⟩)
    · exact h.elim
    · exact h.elim
  | .text _, _ | .block _, _ | .importModule _, _ | .importNames _, _ | .declareGlobal _, _
  | .breakLoop, _ | .continueLoop, _ | .comment _, _ => fun _ => False.elim

/-- **A step that leaves, wherever a run comes to it, stands outside of the loops of the run, which is
in a loop then, or it stands in a loop that takes its flow.** -/
theorem MeetsAll.innermost (hflow : flow ≠ .normal) {inLoop : Bool} :
    ∀ (steps : List Step) (s : Scene), Step.AllSheltered inLoop steps →
      MeetsAll engine below (Point.Leaves flow u) steps s →
        (inLoop = true ∧ ReachesAll engine below (Step.Leaves flow u) steps s) ∨
          MeetsAll engine below (Point.Takes engine below flow u) steps s
  | [], _ => fun _ => False.elim
  | step :: rest, s => by
    rintro ⟨hstep, hrest⟩ (h | h | ⟨_, t, hrun, rfl, h⟩)
    · exact Or.inl ⟨Step.Leaves.inLoop hstep h, Or.inl h⟩
    · exact (Step.MeetsWithin.innermost hflow step s hstep h).imp
        (And.imp_right fun h => Or.inr (Or.inl h)) (Or.imp_right Or.inl)
    · exact (MeetsAll.innermost hflow rest t hrest h).imp
        (And.imp_right fun h => Or.inr (Or.inr ⟨.normal, t, hrun, rfl, h⟩))
        fun h => Or.inr (Or.inr ⟨.normal, t, hrun, rfl, h⟩)

theorem OptionalMeets.innermost (hflow : flow ≠ .normal) {inLoop : Bool} :
    ∀ (steps : Option (List Step)) (s : Scene), Step.OptionalSheltered inLoop steps →
      OptionalMeets engine below (Point.Leaves flow u) steps s →
        (inLoop = true ∧ OptionalReaches engine below (Step.Leaves flow u) steps s) ∨
          OptionalMeets engine below (Point.Takes engine below flow u) steps s
  | none, _ => fun _ => False.elim
  | some body, s => MeetsAll.innermost hflow body s

theorem BranchesMeet.innermost (hflow : flow ≠ .normal) {inLoop : Bool} :
    ∀ (branches : List (Expr × List Step)) (s : Scene), Step.BranchesSheltered inLoop branches →
      BranchesMeet engine below (Point.Leaves flow u) branches s →
        (inLoop = true ∧ BranchesReach engine below (Step.Leaves flow u) branches s) ∨
          BranchesMeet engine below (Point.Takes engine below flow u) branches s
  | [], _ => fun _ => False.elim
  | (_, body) :: rest, s => by
    rintro ⟨hbody, hrest⟩ (h | ⟨holds, t, htest, ⟨hholds, h⟩ | ⟨hholds, h⟩⟩)
    · exact h.elim
    · exact (MeetsAll.innermost hflow body t hbody h).imp
        (And.imp_right fun h => ⟨holds, t, htest, Or.inl ⟨hholds, h⟩⟩)
        fun h => Or.inr ⟨holds, t, htest, Or.inl ⟨hholds, h⟩⟩
    · exact (BranchesMeet.innermost hflow rest t hrest h).imp
        (And.imp_right fun h => ⟨holds, t, htest, Or.inr ⟨hholds, h⟩⟩)
        fun h => Or.inr ⟨holds, t, htest, Or.inr ⟨hholds, h⟩⟩

theorem HandlersMeet.innermost (hflow : flow ≠ .normal) {inLoop : Bool} (fault : Fault) :
    ∀ (handlers : List (ExceptHead × List Step)) (s : Scene),
      Step.HandlersSheltered inLoop handlers →
        HandlersMeet engine below (Point.Leaves flow u) fault handlers s →
          (inLoop = true ∧ HandlersReach engine below (Step.Leaves flow u) fault handlers s) ∨
            HandlersMeet engine below (Point.Takes engine below flow u) fault handlers s
  | [], _ => fun _ => False.elim
  | (_, body) :: rest, s => by
    rintro ⟨hbody, hrest⟩ (⟨hhandles, _, t, hbind, h⟩ | ⟨hhandles, h⟩)
    · exact (MeetsAll.innermost hflow body _ hbody h).imp
        (And.imp_right fun h => Or.inl ⟨hhandles, (), t, hbind, h⟩)
        fun h => Or.inl ⟨hhandles, (), t, hbind, h⟩
    · exact (HandlersMeet.innermost hflow fault rest s hrest h).imp
        (And.imp_right fun h => Or.inr ⟨hhandles, h⟩) fun h => Or.inr ⟨hhandles, h⟩

end

end

/-! ## Templates that parse -/

/-- The lists of steps of a program that are run in a frame of their own. -/
inductive Program.Runs (p : Program) : List Step → Prop
  | body : Runs p p.body
  | block {name b} (h : p.blocks.get? name = some b) : Runs p b.body

/-- In the program of a template every `break` and `continue` stands in the body of a loop. -/
theorem Compiled.sheltered {config : Config} (c : Compiled config) {steps : List Step}
    (h : c.program.Runs steps) : Step.AllSheltered false steps := by
  cases h with
  | body => exact c.sheltered_body
  | block h => exact c.sheltered_block h

section

variable {engine : Engine} {below : Below} {steps : List Step} {s : Scene}

/-- The run of steps that stand in no loop comes to its end. -/
theorem Step.AllSheltered.eq_normal (h : Step.AllSheltered false steps) {flow : Flow} {t : Scene}
    (hrun : runAll engine below steps s = .done flow t) : flow = .normal := by
  cases flow with
  | normal => rfl
  | breakLoop | continueLoop =>
    exact absurd (gives_runAll steps h hrun Flow.noConfusion) Bool.false_ne_true

/-- What is drawn by such a run is all that it writes. -/
theorem Step.AllSheltered.runFrame_eq (h : Step.AllSheltered false steps) {text : String} {w : World}
    (hframe : runFrame s.frame (runAll engine below steps) s.world = .done text w) :
    ∃ t, runAll engine below steps s = .done .normal t ∧ text = t.frame.buffer ∧ w = t.world := by
  rw [runFrame] at hframe
  split at hframe
  · rename_i hrun
    cases hframe
    exact ⟨_, h.eq_normal hrun ▸ hrun, rfl, rfl⟩
  · cases hframe
  · cases hframe

/-- Wherever such a run comes to a step that leaves, it is in a loop that takes the flow of it. -/
theorem Step.AllSheltered.takes (h : Step.AllSheltered false steps) {flow : Flow} {u : Scene}
    (hmeets : MeetsAll engine below (Point.Leaves flow u) steps s) :
    MeetsAll engine below (Point.Takes engine below flow u) steps s := by
  have hflow : flow ≠ .normal := by
    obtain ⟨p, v, hleaves⟩ := MeetsAll.exists_point steps s hmeets
    cases p with
    | step leaving => exact Step.Leaves.ne_normal hleaves
    | expr e => exact hleaves.elim
  exact (MeetsAll.innermost hflow steps s h hmeets).resolve_left fun h => Bool.false_ne_true h.1

end

/-- **No `break` and no `continue` leaves the body or the block of a template that it was written in.**
A template that parses has a program.  The run of its body, and of each of its blocks, comes to no other
end than that of its last step, so that what is drawn is all that it writes.  Wherever the run comes to a
`break` or a `continue`, it is in a turn of a loop, and the innermost such loop takes it, unless a `finally`
clause in between overrides it. -/
theorem Template.leaves_no_body {config : Config} {path source : String} {t : Template}
    (h : Template.parse config path source = .ok t) :
    ∃ p, t.compile = .ok p ∧ ∀ steps, p.Runs steps → ∀ (engine : Engine) (below : Below) (s : Scene),
      (∀ flow v, runAll engine below steps s = .done flow v → flow = .normal) ∧
        (∀ text w, runFrame s.frame (runAll engine below steps) s.world = .done text w →
          ∃ v, runAll engine below steps s = .done .normal v ∧ text = v.frame.buffer ∧ w = v.world) ∧
        ∀ flow u, MeetsAll engine below (Point.Leaves flow u) steps s →
          MeetsAll engine below (Point.Takes engine below flow u) steps s := by
  obtain ⟨d, hd, ht⟩ := bind_eq_ok_iff.mp h
  obtain rfl := Except.ok.inj ht
  obtain ⟨c, hc⟩ := Template.Parsed.exists_compiled (t := ⟨path, source, d, 0⟩) ⟨source.toList, hd⟩
  refine ⟨c.program, hc ▸ c.compile, fun steps hsteps engine below s => ?_⟩
  have hsheltered := c.sheltered hsteps
  exact ⟨fun _ _ => hsheltered.eq_normal, fun _ _ => hsheltered.runFrame_eq,
    fun _ _ => hsheltered.takes⟩

/-- A `break`, in a `try` with a `finally` clause that continues. -/
def overridingBody : List Step :=
  [.attempt [.breakLoop] [] none (some [.continueLoop])]

/-- A loop with this as its body. -/
def overridingLoop : Step :=
  .forEach ["x"] (.list [.lit (.int 1)]) overridingBody (some [.text "all"])

/-- A template with this loop; what the loop writes behind its last turn says that no `break` has ended
it. -/
def overridingPage : String :=
  "<% for x in [1] %><% try %><% break %><% finally %><% continue %><% end %><% else %>all<% end %>"

/-- The loop comes to the `break` in a turn of its body, and goes on with the next turn. -/
theorem overridingPage_goes_on :
    (Template.parse .default "page.html" overridingPage >>= Template.compile).map Program.body =
        .ok [overridingLoop] ∧
      (∀ (engine : Engine) (below : Below) (s : Scene), ∃ t next,
        overridingLoop.Turn engine below s overridingBody t next ∧
          ReachesAll engine below (Step.Leaves .breakLoop t) overridingBody t ∧
          overridingLoop.run engine below s = next t) ∧
      textOf (Finder.render .default (.ofDict [("page.html", overridingPage.toUTF8)]) 9 .empty
        "page.html" []) = some "all" := by
  refine ⟨by cbv, fun engine below s => ?_, by decide +kernel⟩
  have hturn : overridingLoop.Turn engine below s overridingBody (s.bind "x" (.int 1)) _ :=
    .forEach (v := .list [.int 1]) rfl rfl (.now rfl)
  refine ⟨_, _, hturn, ?_, ?_⟩
  · exact Or.inr (Or.inl (Or.inl (Or.inl ⟨rfl, rfl⟩)))
  · exact hturn.run_eq

/-- A loop that a `break` ends in its second turn. -/
theorem Template.leaves_no_body_breaking :
    ∃ t p, Template.parse .default "page.html"
        "<% for x in [1, 2, 3] %><%= x %><% if x == 2 %><% break %><% end %><% end %>" = .ok t ∧
      t.compile = .ok p ∧ p.Runs p.body ∧
      (∀ (engine : Engine) (below : Below) (s : Scene) (flow : Flow) (v : Scene),
        runAll engine below p.body s = .done flow v → flow = .normal) ∧
      textOf (t.render ⟨.default, .absent⟩ 9 [] .empty) = some "12" := by
  have hrun : ((Template.parse .default "page.html"
      "<% for x in [1, 2, 3] %><%= x %><% if x == 2 %><% break %><% end %><% end %>").toOption.bind
        fun t => textOf (t.render ⟨.default, .absent⟩ 9 [] .empty)) = some "12" := by
    decide +kernel
  obtain ⟨t, ht, htext⟩ := Option.bind_eq_some_iff.mp hrun
  obtain ⟨p, hp, hruns⟩ := Template.leaves_no_body (eq_ok_of_toOption ht)
  exact ⟨t, p, eq_ok_of_toOption ht, hp, .body,
    fun engine below s => (hruns p.body .body engine below s).1, htext⟩

end Inlay
