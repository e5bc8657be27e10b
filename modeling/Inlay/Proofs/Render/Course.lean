import Inlay.Proofs.Render.Steps

/-!
# The course of a run

A run of steps comes to steps, one after the other and inside each other, and evaluates the expressions
in them.  Which ones it comes to, and in which scenes, goes by the same recursion as the run: a step is
come to if the steps before it have ended normally, the body of a handler if the body of the `try` has
failed with a fault that it handles, a turn of a loop if no turn before has left the loop.

* `Point`: a step or an expression that a run may come to.
* `MeetsAll`: a run of steps comes to something that is watched for.
* `MeetsAll.exists_point`: what is met is a point in some scene.
* `Step.run_attempt`: a `try` is what it has come to before its `finally` clause, and this clause.
-/

namespace Inlay

/-! ## Actions one after the other -/

namespace Action

variable {σ α β : Type}

/-- The action ends with a result, and `Q` holds of the result and of the state behind it. -/
def Then (x : Action σ α) (Q : α → σ → Prop) (s : σ) : Prop :=
  ∃ a t, x s = .done a t ∧ Q a t

/-- The action fails with an error of some sort. -/
def Raises (x : Action σ α) (bad : Error → Prop) (s : σ) : Prop :=
  ∃ e t, bad e ∧ x s = .failed e t

theorem bind_congr {x y : Action σ α} {s t : σ} (h : x s = y t)
    (f : α → Action σ β) : (x >>= f) s = (y >>= f) t := by
  show Action.bind x f s = Action.bind y f t
  rw [Action.bind, Action.bind, h]

theorem settle_of_done {x : Action σ α} {a : α} {s t : σ} (h : x s = .done a t) :
    settle x s = .done (.ok a) t := by
  rw [settle, h]

theorem settle_of_failed {x : Action σ α} {e : Error} {s t : σ} (h : x s = .failed e t) :
    settle x s = .done (.error e) t := by
  rw [settle, h]

namespace Raises

variable {bad : Error → Prop} {x : Action σ α} {f : α → Action σ β} {s t : σ}

theorem bind (h : x.Raises bad s) : (x >>= f).Raises bad s := by
  obtain ⟨e, t, hbad, ht⟩ := h
  exact ⟨e, t, hbad, bind_of_failed ht f⟩

theorem andThen {a : α} (hx : x s = .done a t) (h : (f a).Raises bad t) :
    (x >>= f).Raises bad s := by
  obtain ⟨e, u, hbad, hu⟩ := h
  exact ⟨e, u, hbad, (bind_of_done hx f).trans hu⟩

end Raises

end Action

/-! ## What a run comes to -/

/-- What a run may come to: a step, or an expression in a step. -/
inductive Point where
  | step (step : Step)
  | expr (e : Expr)

/-- A loop over items comes to what its body comes to in one of its turns. -/
def ItemsMeet (bind : Value → Action Scene Unit) (body : Action Scene Flow) (meets : Scene → Prop) :
    List Value → Scene → Prop
  | [], _ => False
  | v :: rest, s => (bind v).Then (fun _ t => meets t ∨ body.Then (fun flow u =>
      flow ≠ .breakLoop ∧ ItemsMeet bind body meets rest u) t) s

/-- A loop with a test comes to what its test and its body come to in one of its turns. -/
def TurnsMeet (test : Action Scene Bool) (body : Action Scene Flow) (tests meets : Scene → Prop) :
    Nat → Scene → Prop
  | 0, _ => False
  | turns + 1, s => tests s ∨ test.Then (fun holds t => holds = true ∧ (meets t ∨
      body.Then (fun flow u => flow ≠ .breakLoop ∧ TurnsMeet test body tests meets turns u) t)) s

section

variable (engine : Engine) (below : Below)

/-- What a `try` has come to when its `finally` clause begins. -/
def tried (body : List Step) (handlers : List (ExceptHead × List Step))
    (otherwise : Option (List Step)) : Action Scene (Except Error Flow) := do
  match ← Action.settle (runAll engine below body) with
  | .error (.fault f) => Action.settle (runHandler engine below f handlers)
  | .ok .normal => Action.settle (runOptional engine below otherwise)
  | other => pure other

variable (watch : Point → Scene → Prop)

mutual

/-- A run of the step comes to something that is watched for, the step itself apart. -/
def Step.MeetsWithin : Step → Scene → Prop
  | .output _ e | .inclusion e | .inheritance e | .assign _ e => watch (.expr e)
  | .choose branches otherwise => fun s =>
    BranchesMeet branches s ∨
      (runBranches engine below branches).Then (fun flow t =>
        flow = none ∧ OptionalMeets otherwise t) s
  | .forEach targets iter body otherwise => fun s =>
    watch (.expr iter) s ∨ (evalIn engine below iter).Then (fun v t => ∃ items, v.items = .ok items ∧
      (ItemsMeet (bindTargets targets) (runAll engine below body) (MeetsAll body) items t ∨
        (forItems (bindTargets targets) (runAll engine below body) items).Then (fun left u =>
          left = false ∧ OptionalMeets otherwise u) t)) s
  | .whileTest test body otherwise => fun s =>
    TurnsMeet (testIn engine below test) (runAll engine below body) (watch (.expr test))
        (MeetsAll body) below.turns s ∨
      (whileTurns (testIn engine below test) (runAll engine below body) below.turns).Then
        (fun left t => left = false ∧ OptionalMeets otherwise t) s
  | .withBinding e newName body => fun s =>
    watch (.expr e) s ∨ (evalIn engine below e).Then (fun v t =>
      MeetsAll body (newName.elim t fun name => t.bind name v)) s
  | .attempt body handlers otherwise finally_ => fun s =>
    MeetsAll body s ∨
      (∃ f t, runAll engine below body s = .failed (.fault f) t ∧ HandlersMeet f handlers t) ∨
      (∃ t, runAll engine below body s = .done .normal t ∧ OptionalMeets otherwise t) ∨
      (tried engine below body handlers otherwise).Then (fun _ => OptionalMeets finally_) s
  | .raise head => fun s => ∃ e ∈ head.bind RaiseHead.message, watch (.expr e) s
  | .assertion head => fun s =>
    watch (.expr head.test) s ∨ (testIn engine below head.test).Then (fun holds t =>
      holds = false ∧ ∃ e ∈ head.message, watch (.expr e) t) s
  | .text _ | .block _ | .importModule _ | .importNames _ | .declareGlobal _ | .breakLoop
  | .continueLoop | .comment _ => fun _ => False

/-- **A run of steps comes to something that is watched for.** -/
def MeetsAll : List Step → Scene → Prop
  | [] => fun _ => False
  | step :: rest => fun s =>
    watch (.step step) s ∨ step.MeetsWithin s ∨
      (step.run engine below).Then (fun flow t => flow = .normal ∧ MeetsAll rest t) s

/-- So does a run of steps if there are any. -/
def OptionalMeets : Option (List Step) → Scene → Prop
  | none => fun _ => False
  | some body => MeetsAll body

/-- So does a choice of a branch, or the branch that is chosen. -/
def BranchesMeet : List (Expr × List Step) → Scene → Prop
  | [] => fun _ => False
  | (test, body) :: rest => fun s =>
    watch (.expr test) s ∨ (testIn engine below test).Then (fun holds t =>
      (holds = true ∧ MeetsAll body t) ∨ (holds = false ∧ BranchesMeet rest t)) s

/-- So does the handler of a fault. -/
def HandlersMeet (fault : Fault) : List (ExceptHead × List Step) → Scene → Prop
  | [] => fun _ => False
  | (head, body) :: rest => fun s =>
    (head.handles fault = true ∧ (bindFault head.newName fault).Then (fun _ t =>
      MeetsAll body { t with frame.handling := some fault }) s) ∨
      (head.handles fault = false ∧ HandlersMeet fault rest s)

end

variable {engine below}

/-- A `try` goes on with its `finally` clause. -/
theorem Step.run_attempt (body : List Step) (handlers : List (ExceptHead × List Step))
    (otherwise finally_ : Option (List Step)) :
    (Step.attempt body handlers otherwise finally_).run engine below =
      tried engine below body handlers otherwise >>= fun result =>
        runOptional engine below finally_ >>= fun flow =>
          match flow with
          | .normal => unsettle result
          | flow => pure flow := by
  rw [Step.run, tried, bind_assoc]
  refine congrArg _ (funext fun result => ?_)
  cases result with
  | ok flow => cases flow <;> rfl
  | error e => cases e <;> rfl

/-! ## Points that are met -/

section

variable {watch : Point → Scene → Prop}

theorem ItemsMeet.exists_point {bind : Value → Action Scene Unit} {body : Action Scene Flow}
    {meets : Scene → Prop} {Q : Prop} (hmeets : ∀ s, meets s → Q) {items : List Value} {s : Scene}
    (h : ItemsMeet bind body meets items s) : Q := by
  induction items generalizing s with
  | nil => exact h.elim
  | cons v rest ih =>
    obtain ⟨_, t, _, h | ⟨_, u, _, _, h⟩⟩ := h
    · exact hmeets t h
    · exact ih h

theorem TurnsMeet.exists_point {test : Action Scene Bool} {body : Action Scene Flow}
    {tests meets : Scene → Prop} {Q : Prop} (htests : ∀ s, tests s → Q)
    (hmeets : ∀ s, meets s → Q) {turns : Nat} {s : Scene}
    (h : TurnsMeet test body tests meets turns s) : Q := by
  induction turns generalizing s with
  | zero => exact h.elim
  | succ turns ih =>
    obtain h | ⟨_, t, _, _, h | ⟨_, u, _, _, h⟩⟩ := h
    · exact htests s h
    · exact hmeets t h
    · exact ih h

mutual

theorem Step.MeetsWithin.exists_point : ∀ (step : Step) (s : Scene),
    step.MeetsWithin engine below watch s → ∃ p u, watch p u
  | .output _ e, s | .inclusion e, s | .inheritance e, s | .assign _ e, s => fun h => ⟨_, s, h⟩
  | .choose branches otherwise, s => by
    rintro (h | ⟨_, t, _, _, h⟩)
    · exact BranchesMeet.exists_point branches s h
    · exact OptionalMeets.exists_point otherwise t h
  | .forEach _ _ body otherwise, s => by
    rintro (h | ⟨_, t, _, _, _, h | ⟨_, u, _, _, h⟩⟩)
    · exact ⟨_, s, h⟩
    · exact ItemsMeet.exists_point (MeetsAll.exists_point body) h
    · exact OptionalMeets.exists_point otherwise u h
  | .whileTest _ body otherwise, s => by
    rintro (h | ⟨_, t, _, _, h⟩)
    · exact TurnsMeet.exists_point (fun u hu => ⟨_, u, hu⟩) (MeetsAll.exists_point body) h
    · exact OptionalMeets.exists_point otherwise t h
  | .withBinding _ _ body, s => by
    rintro (h | ⟨_, t, _, h⟩)
    · exact ⟨_, s, h⟩
    · exact MeetsAll.exists_point body _ h
  | .attempt body handlers otherwise finally_, s => by
    rintro (h | ⟨f, t, _, h⟩ | ⟨t, _, h⟩ | ⟨_, t, _, h⟩)
    · exact MeetsAll.exists_point body s h
    · exact HandlersMeet.exists_point f handlers t h
    · exact OptionalMeets.exists_point otherwise t h
    · exact OptionalMeets.exists_point finally_ t h
  | .raise _, s => by
    rintro ⟨_, _, h⟩
    exact ⟨_, s, h⟩
  | .assertion _, s => by
    rintro (h | ⟨_, t, _, _, _, _, h⟩)
    · exact ⟨_, s, h⟩
    · exact ⟨_, t, h⟩
  | .text _, _ | .block _, _ | .importModule _, _ | .importNames _, _ | .declareGlobal _, _
  | .breakLoop, _ | .continueLoop, _ | .comment _, _ => False.elim

/-- What is met is a point in some scene. -/
theorem MeetsAll.exists_point : ∀ (steps : List Step) (s : Scene),
    MeetsAll engine below watch steps s → ∃ p u, watch p u
  | [], _ => False.elim
  | step :: rest, s => by
    rintro (h | h | ⟨_, t, _, _, h⟩)
    · exact ⟨_, s, h⟩
    · exact Step.MeetsWithin.exists_point step s h
    · exact MeetsAll.exists_point rest t h

theorem OptionalMeets.exists_point : ∀ (steps : Option (List Step)) (s : Scene),
    OptionalMeets engine below watch steps s → ∃ p u, watch p u
  | none, _ => False.elim
  | some body, s => MeetsAll.exists_point body s

theorem BranchesMeet.exists_point : ∀ (branches : List (Expr × List Step)) (s : Scene),
    BranchesMeet engine below watch branches s → ∃ p u, watch p u
  | [], _ => False.elim
  | (_, body) :: rest, s => by
    rintro (h | ⟨_, t, _, ⟨_, h⟩ | ⟨_, h⟩⟩)
    · exact ⟨_, s, h⟩
    · exact MeetsAll.exists_point body t h
    · exact BranchesMeet.exists_point rest t h

theorem HandlersMeet.exists_point (fault : Fault) :
    ∀ (handlers : List (ExceptHead × List Step)) (s : Scene),
      HandlersMeet engine below watch fault handlers s → ∃ p u, watch p u
  | [], _ => False.elim
  | (_, body) :: rest, s => by
    rintro (⟨_, _, t, _, h⟩ | ⟨_, h⟩)
    · exact MeetsAll.exists_point body _ h
    · exact HandlersMeet.exists_point fault rest s h

end

end

end

end Inlay
