import Inlay.Proofs.Render.Ledgers

/-!
# Steps without some of their blocks

Block statements that do nothing may be left out.  It is enough that they do nothing in the scenes
in which the run comes to them, and these are told from what the run records.

* `Step.blankAll`: steps without the block statements of some names.
* `Action.bind_congr_of_done`, `forItems_congr`, ...: actions that go on alike where the first one
  goes on.
* `Recorder.Spares`: what may be left out does nothing where it is recorded.
* `runAll_blankAll`: then steps run as they do without it.
-/

namespace Inlay

/-! ## Steps without some of their blocks -/

mutual

/-- The step with a comment in the place of each block statement in it, at every depth, whose block
is dropped. -/
def Step.blank (drop : String → Bool) : Step → Step
  | .block name => if drop name then .comment "" else .block name
  | .choose branches otherwise =>
    .choose (blankBranches drop branches) (blankOptional drop otherwise)
  | .forEach targets iter body otherwise =>
    .forEach targets iter (blankAll drop body) (blankOptional drop otherwise)
  | .whileTest test body otherwise =>
    .whileTest test (blankAll drop body) (blankOptional drop otherwise)
  | .withBinding e newName body => .withBinding e newName (blankAll drop body)
  | .attempt body handlers otherwise finally_ =>
    .attempt (blankAll drop body) (blankHandlers drop handlers) (blankOptional drop otherwise)
      (blankOptional drop finally_)
  | step => step

/-- The steps without the block statements that are dropped. -/
def Step.blankAll (drop : String → Bool) : List Step → List Step
  | [] => []
  | step :: rest => step.blank drop :: blankAll drop rest

/-- A clause without the block statements that are dropped, if it is there. -/
def Step.blankOptional (drop : String → Bool) : Option (List Step) → Option (List Step)
  | none => none
  | some body => some (blankAll drop body)

/-- Branches without the block statements that are dropped. -/
def Step.blankBranches (drop : String → Bool) : List (Expr × List Step) → List (Expr × List Step)
  | [] => []
  | (test, body) :: rest => (test, blankAll drop body) :: blankBranches drop rest

/-- Handlers without the block statements that are dropped. -/
def Step.blankHandlers (drop : String → Bool) :
    List (ExceptHead × List Step) → List (ExceptHead × List Step)
  | [] => []
  | (head, body) :: rest => (head, blankAll drop body) :: blankHandlers drop rest

end

/-! ## Runs that do not miss them -/

namespace Action

variable {σ α β ε : Type}

/-- Two actions go on alike if they end alike and go on alike from where they end. -/
theorem bind_congr_of_done {x y : Action σ α} {f g : α → Action σ β} {s : σ} (h : x s = y s)
    (hgo : ∀ a t, y s = .done a t → f a t = g a t) : (x >>= f) s = (y >>= g) s := by
  show Action.bind x f s = Action.bind y g s
  rw [Action.bind, Action.bind, h]
  cases hy : y s with
  | done a t => exact hgo a t hy
  | failed e t => rfl
  | exhausted => rfl

theorem settle_congr {x y : Action σ α} {s : σ} (h : x s = y s) : settle x s = settle y s := by
  rw [settle, settle, h]

/-- What holds of all that is recorded behind an action holds of what is recorded from its end
on. -/
theorem forall_behind {x : Action σ α} {log : α → σ → List ε} {P : ε → Prop} {s t : σ} {a : α}
    (hx : x s = .done a t) (h : ∀ e ∈ x.behind log s, P e) : ∀ e ∈ log a t, P e := by
  rwa [behind_of_done hx] at h

end Action

section

variable {ε : Type} {engine : Engine} {below : Below} {r : Recorder ε} {P : ε → Prop}

theorem forItems_congr {bind : Value → Action Scene Unit} {body body' : Action Scene Flow}
    {log : Scene → List ε} (hbody : ∀ s, (∀ e ∈ log s, P e) → body' s = body s)
    {items : List Value} {s : Scene} (h : ∀ e ∈ recordItems bind body log items s, P e) :
    forItems bind body' items s = forItems bind body items s := by
  induction items generalizing s with
  | nil => rfl
  | cons v rest ih =>
    rw [forItems, forItems]
    refine Action.bind_congr_of_done rfl fun _ t ht => ?_
    have h := Action.forall_behind ht h
    obtain ⟨hturn, hrest⟩ := List.forall_mem_append.mp h
    refine Action.bind_congr_of_done (hbody t hturn) fun flow u hu => ?_
    have hrest := Action.forall_behind hu hrest
    cases flow with
    | breakLoop => rfl
    | normal | continueLoop => exact ih hrest

theorem whileTurns_congr {test : Action Scene Bool} {body body' : Action Scene Flow}
    {tests log : Scene → List ε} (hbody : ∀ s, (∀ e ∈ log s, P e) → body' s = body s) {turns : Nat}
    {s : Scene} (h : ∀ e ∈ recordTurns test body tests log turns s, P e) :
    whileTurns test body' turns s = whileTurns test body turns s := by
  induction turns generalizing s with
  | zero => rfl
  | succ turns ih =>
    rw [whileTurns, whileTurns]
    obtain ⟨-, hturns⟩ := List.forall_mem_append.mp h
    refine Action.bind_congr_of_done rfl fun holds t ht => ?_
    have hturn := Action.forall_behind ht hturns
    cases holds with
    | false => rfl
    | true =>
      obtain ⟨hturn, hrest⟩ := List.forall_mem_append.mp hturn
      refine Action.bind_congr_of_done (hbody t hturn) fun flow u hu => ?_
      have hrest := Action.forall_behind hu hrest
      cases flow with
      | breakLoop => rfl
      | normal | continueLoop => exact ih hrest

theorem handling_congr {fault : Fault} {body body' : Action Scene Flow} {s : Scene}
    (h : body' { s with frame.handling := some fault } =
      body { s with frame.handling := some fault }) :
    handling fault body' s = handling fault body s := by
  rw [handling, handling, h]

variable {drop : String → Bool}

/-- A block statement that is dropped does nothing in a scene in which all that is recorded of it
has the property. -/
def Recorder.Spares (r : Recorder ε) (below : Below) (P : ε → Prop) (drop : String → Bool) : Prop :=
  ∀ name s, (∀ e ∈ r.slot name s, P e) → drop name = true → drawSlot below name s = .done () s

mutual

theorem Step.run_blank (hslot : r.Spares below P drop) : ∀ (step : Step) (s : Scene),
    (∀ e ∈ step.record engine below r s, P e) →
      (step.blank drop).run engine below s = step.run engine below s
  | .block name, s => fun h => by
    rw [Step.blank]
    split
    · rename_i hdrop
      rw [Step.run, Step.run]
      exact (Action.bind_of_done (hslot name s h hdrop) fun _ => pure Flow.normal).symm
    · rfl
  | .choose branches otherwise, s => fun h => by
    obtain ⟨hbranches, hotherwise⟩ := List.forall_mem_append.mp h
    rw [Step.blank, Step.run, Step.run]
    refine Action.bind_congr_of_done (runBranches_blank hslot branches s hbranches)
      fun flow t ht => ?_
    have hotherwise := Action.forall_behind ht hotherwise
    cases flow with
    | some flow => rfl
    | none => exact runOptional_blank hslot otherwise t hotherwise
  | .forEach targets iter body otherwise, s => fun h => by
    obtain ⟨-, h⟩ := List.forall_mem_append.mp h
    rw [Step.blank, Step.run, Step.run]
    refine Action.bind_congr_of_done rfl fun v t ht => ?_
    have h := Action.forall_behind ht h
    refine Action.bind_congr_of_done rfl fun items u hu => ?_
    have h := Action.forall_behind hu h
    obtain ⟨hitems, hotherwise⟩ := List.forall_mem_append.mp h
    refine Action.bind_congr_of_done (forItems_congr (runAll_blankAll hslot body) hitems)
      fun left z hz => ?_
    have hotherwise := Action.forall_behind hz hotherwise
    cases left with
    | true => rfl
    | false => exact runOptional_blank hslot otherwise z hotherwise
  | .whileTest test body otherwise, s => fun h => by
    obtain ⟨hturns, hotherwise⟩ := List.forall_mem_append.mp h
    rw [Step.blank, Step.run, Step.run]
    refine Action.bind_congr_of_done (whileTurns_congr (runAll_blankAll hslot body) hturns)
      fun left t ht => ?_
    have hotherwise := Action.forall_behind ht hotherwise
    cases left with
    | true => rfl
    | false => exact runOptional_blank hslot otherwise t hotherwise
  | .withBinding e newName body, s => fun h => by
    obtain ⟨-, h⟩ := List.forall_mem_append.mp h
    rw [Step.blank, Step.run, Step.run]
    refine Action.bind_congr_of_done rfl fun v t ht => ?_
    have hbody := Action.forall_behind ht h
    cases newName with
    | none => exact runAll_blankAll hslot body t hbody
    | some name => exact runAll_blankAll hslot body (t.bind name v) hbody
  | .attempt body handlers otherwise finally_, s => fun h => by
    obtain ⟨htried, hfinally⟩ := List.forall_mem_append.mp h
    obtain ⟨hbody, hrest⟩ := List.forall_mem_append.mp htried
    rw [Step.blank, Step.run_attempt, Step.run_attempt]
    refine Action.bind_congr_of_done ?_ fun result t ht => ?_
    · rw [tried, tried]
      refine Action.bind_congr_of_done (Action.settle_congr (runAll_blankAll hslot body s hbody))
        fun result t ht => ?_
      have hrest := Action.forall_behind ht hrest
      cases result with
      | ok flow =>
        cases flow with
        | normal => exact Action.settle_congr (runOptional_blank hslot otherwise t hrest)
        | breakLoop | continueLoop => rfl
      | error e =>
        cases e with
        | fault f => exact Action.settle_congr (runHandler_blank hslot f handlers t hrest)
        | _ => rfl
    · have hfinally := Action.forall_behind ht hfinally
      exact Action.bind_congr_of_done (runOptional_blank hslot finally_ t hfinally) fun _ _ _ => rfl
  | .text _, _ | .output .., _ | .inclusion _, _ | .inheritance _, _ | .assign .., _
  | .importModule _, _ | .importNames _, _ | .raise _, _ | .declareGlobal _, _ | .assertion _, _
  | .breakLoop, _ | .continueLoop, _ | .comment _, _ => fun _ => by
    rw [Step.blank]
    all_goals nofun

/-- **Steps run as they do without the block statements that are dropped**, if these do nothing
wherever they are come to. -/
theorem runAll_blankAll (hslot : r.Spares below P drop) : ∀ (steps : List Step) (s : Scene),
    (∀ e ∈ recordAll engine below r steps s, P e) →
      runAll engine below (Step.blankAll drop steps) s = runAll engine below steps s
  | [], _ => fun _ => by rw [Step.blankAll]
  | step :: rest, s => fun h => by
    obtain ⟨hstep, hrest⟩ := List.forall_mem_append.mp h
    rw [Step.blankAll, runAll, runAll]
    refine Action.bind_congr_of_done (Step.run_blank hslot step s hstep) fun flow t ht => ?_
    have hrest := Action.forall_behind ht hrest
    cases flow with
    | normal => exact runAll_blankAll hslot rest t hrest
    | breakLoop | continueLoop => rfl

theorem runOptional_blank (hslot : r.Spares below P drop) :
    ∀ (steps : Option (List Step)) (s : Scene), (∀ e ∈ recordOptional engine below r steps s, P e) →
      runOptional engine below (Step.blankOptional drop steps) s = runOptional engine below steps s
  | none, _ => fun _ => by rw [Step.blankOptional]
  | some body, s => fun h => by
    rw [Step.blankOptional, runOptional, runOptional]
    exact runAll_blankAll hslot body s h

theorem runBranches_blank (hslot : r.Spares below P drop) :
    ∀ (branches : List (Expr × List Step)) (s : Scene),
      (∀ e ∈ recordBranches engine below r branches s, P e) →
      runBranches engine below (Step.blankBranches drop branches) s =
        runBranches engine below branches s
  | [], _ => fun _ => by rw [Step.blankBranches]
  | (test, body) :: rest, s => fun h => by
    obtain ⟨-, h⟩ := List.forall_mem_append.mp h
    rw [Step.blankBranches, runBranches, runBranches]
    refine Action.bind_congr_of_done rfl fun holds t ht => ?_
    have h := Action.forall_behind ht h
    cases holds with
    | true => exact Action.bind_congr_of_done (runAll_blankAll hslot body t h) fun _ _ _ => rfl
    | false => exact runBranches_blank hslot rest t h

theorem runHandler_blank (hslot : r.Spares below P drop) (fault : Fault) :
    ∀ (handlers : List (ExceptHead × List Step)) (s : Scene),
      (∀ e ∈ recordHandlers engine below r fault handlers s, P e) →
        runHandler engine below fault (Step.blankHandlers drop handlers) s =
          runHandler engine below fault handlers s
  | [], _ => fun _ => by rw [Step.blankHandlers]
  | (head, body) :: rest, s => fun h => by
    rw [Step.blankHandlers, runHandler, runHandler]
    rw [recordHandlers] at h
    split
    · rename_i hhandles
      rw [if_pos hhandles] at h
      refine Action.bind_congr_of_done rfl fun _ t ht => handling_congr ?_
      have h := Action.forall_behind ht h
      exact runAll_blankAll hslot body _ h
    · rename_i hhandles
      rw [if_neg hhandles] at h
      exact runHandler_blank hslot fault rest s h

end

end

end Inlay
