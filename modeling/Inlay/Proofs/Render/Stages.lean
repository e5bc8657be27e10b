import Inlay.Proofs.Render.Effects
import Inlay.Proofs.Render.Overrides
import Inlay.Proofs.Render.Reached

/-!
# The stages of a rendering

A space is rendered once.  It is fresh, then it is being drawn, and then it is finished, or it has handed
on to a parent and is finished when the parent is.  A rendering that fails leaves the space at the stage
that it has come to, and there it stays: whatever is asked of it later is refused.  Text is written only
while a space is being drawn, and since no step changes the stage of the space that it runs in, no step
that writes is ever refused.

* `Stage.Path`: a way through the stages, with `Stage.Path.of_fresh`: there are only two.
* `World.stages`: the stages that a rendering enters, with `accounts_stages`.
* `renderSpace_cases`, `answer?_of_fresh`: how the rendering of a fresh space ends.
* `Call.answers`: renderings of one space, one after the other, with `Call.answers_of_not_fresh`.
* `Step.Writes`: a step comes to write a text.
* `RenderMeets.exists_drawing`: what a rendering comes to, it comes to in spaces that are being drawn.
* `World.renders_once`: all of this together.
-/

namespace Inlay

open Inlay.Action (EndsIn Accounts Quiet)

/-! ## Ways through the stages -/

namespace Stage

/-- The stages that may follow a stage. -/
def next : Stage → List Stage
  | fresh => [drawing]
  | drawing => [inheriting, finished]
  | inheriting => [finished]
  | finished => []

/-- From one stage over others to the last of them. -/
inductive Path : Stage → List Stage → Stage → Prop where
  | here (s : Stage) : Path s [] s
  | step {s t u : Stage} {stages : List Stage} (h : t ∈ s.next) (hrest : Path t stages u) :
      Path s (t :: stages) u

namespace Path

variable {s t u : Stage} {stages stages' : List Stage}

theorem append (h : Path s stages t) (h' : Path t stages' u) : Path s (stages ++ stages') u := by
  induction h with
  | here => exact h'
  | step hmem _ ih => exact .step hmem (ih h')

theorem getLast?_eq (h : Path s stages t) : (s :: stages).getLast? = some t := by
  induction h with
  | here => rfl
  | step _ _ ih => rwa [List.getLast?_cons_cons]

theorem of_finished (h : Path finished stages t) : stages = [] := by
  cases h with
  | here => rfl
  | step hmem _ => exact absurd hmem List.not_mem_nil

/-- **A space that is fresh goes one of two ways**, perhaps not to its end. -/
theorem of_fresh (h : Path fresh stages t) :
    fresh :: stages <+: [fresh, drawing, finished] ∨
      fresh :: stages <+: [fresh, drawing, inheriting, finished] := by
  cases h with
  | here => exact .inl (by decide)
  | step hmem hrest =>
    obtain rfl := List.mem_singleton.mp hmem
    cases hrest with
    | here => exact .inl (by decide)
    | step hmem hrest =>
      simp only [next, List.mem_cons, List.not_mem_nil, or_false] at hmem
      rcases hmem with rfl | rfl
      · cases hrest with
        | here => exact .inr (by decide)
        | step hmem hrest =>
          obtain rfl := List.mem_singleton.mp hmem
          rw [hrest.of_finished]
          exact .inr (by decide)
      · rw [hrest.of_finished]
        exact .inl (by decide)

end Path

end Stage

/-! ## The stages that a rendering enters -/

section

variable {engine : Engine} {fuel : Nat} {w v : World} {d : Draft}

/-- The stage that a transition enters, if it is not refused. -/
def World.enters (source target : Stage) (w : World) : List Stage :=
  if w.space.stage = source then [target] else []

/-- The stages that a space enters when its body has been drawn. -/
def World.stagesBehindBody (render : Action World String) (w : World) : List Stage :=
  match w.space.parent with
  | none => w.enters .drawing .finished
  | some d => w.enters .drawing .inheriting ++
      (transition .drawing .inheriting).behind (fun _ _ => (inSpace render (d.ofChild w.space)).behind
        (fun _ v => v.enters .inheriting .finished) w.waiting) w

/-- **The stages that a space enters while it is rendered.** -/
def World.stages (engine : Engine) : Nat → World → List Stage
  | 0, _ => []
  | fuel + 1, w => w.enters .fresh .drawing ++ (transition .fresh .drawing).behind (fun _ v =>
      (runFrame .ofBody (runAll engine (belowAt engine fuel) v.space.program.body)).behind
        (fun text u => World.stagesBehindBody (renderSpace engine fuel) { u with space.output := text })
        v) w

/-- A transition from another stage is refused, and leaves the world as it is. -/
theorem stays_of_refused {source target : Stage} (hstage : w.space.stage ≠ source)
    (h : (transition source target).EndsIn w v) : v = w := by
  rcases h with ⟨a, ha⟩ | ⟨e, he⟩
  · exact absurd (stage_of_transition ha) hstage
  · rw [transition, if_neg hstage] at he
    split at he <;> cases he <;> rfl

theorem behind_of_refused {source target : Stage} (hstage : w.space.stage ≠ source)
    (log : Unit → World → List Stage) : (transition source target).behind log w = [] := by
  cases h : transition source target w with
  | done a t => exact absurd (stage_of_transition h) hstage
  | failed e t => exact Action.behind_of_failed h log
  | exhausted => exact absurd h (ends_transition source target w)

/-- The stages entered lead from the stage of the one world to the stage of the other. -/
def World.GoesOver (w : World) (stages : List Stage) (v : World) : Prop :=
  Stage.Path w.space.stage stages v.space.stage

theorem World.GoesOver.composes : Composes World.GoesOver where
  refl w := .here w.space.stage
  trans h h' := Stage.Path.append h h'

theorem accounts_transition {source target : Stage} (h : target ∈ source.next) :
    Accounts World.GoesOver (transition source target) (World.enters source target) := by
  intro w v hend
  by_cases hstage : w.space.stage = source
  · obtain rfl := (Action.endsIn_of_done (transition_of_eq hstage)).mp hend
    rw [World.GoesOver, World.enters, if_pos hstage, hstage]
    exact .step h (.here target)
  · obtain rfl := stays_of_refused hstage hend
    rw [World.enters, if_neg hstage]
    exact World.GoesOver.composes.refl v

/-- What leaves the stage as it is goes over no stages. -/
theorem quiet_of_stage {α : Type} {x : Action World α}
    (h : ∀ w v, x.EndsIn w v → v.space.stage = w.space.stage) : Quiet World.GoesOver x := by
  intro w v hend
  rw [World.GoesOver, h w v hend]
  exact .here _

theorem quiet_inSpace (render : Action World String) (space : Space) :
    Quiet World.GoesOver (inSpace render space) :=
  quiet_of_stage fun w v hend => by
    obtain ⟨t, -, rfl⟩ := Action.endsIn_focus hend
    rfl

/-- To set the output goes over no stages. -/
theorem accounts_setOutput {x : Action World Unit} {log : World → List Stage}
    (hlog : ∀ w text, log { w with space.output := text } = log w) (hx : Accounts World.GoesOver x log)
    (text : String) :
    Accounts World.GoesOver (Action.update (fun w => { w with space.output := text }) >>= fun _ => x)
      log := by
  intro w v hend
  have hrest := @hx { w with space.output := text } v hend
  rwa [hlog] at hrest

/-- Actions that come to the same end in the same states. -/
theorem endsIn_of_eq {α : Type} {x y : Action World α} (h : x w = y v) {u : World}
    (hend : x.EndsIn w u) : y.EndsIn v u := by
  rwa [EndsIn, h] at hend

theorem accounts_renderParent (render : Action World String) :
    Accounts World.GoesOver (renderParent render) (World.stagesBehindBody render) := by
  intro w v hend
  rw [World.stagesBehindBody]
  cases hparent : w.space.parent with
  | none =>
    rw [renderParent, Action.endsIn_read_bind, hparent] at hend
    exact accounts_transition (by decide) hend
  | some d =>
    dsimp only
    by_cases hstage : w.space.stage = .drawing
    · have hfinish : Accounts World.GoesOver (transition .inheriting .finished)
          (World.enters .inheriting .finished) := accounts_transition (by decide)
      have hhandsOn := Quiet.bind World.GoesOver.composes (quiet_inSpace render (d.ofChild w.space))
        (accounts_setOutput (fun _ _ => rfl) hfinish)
        (endsIn_of_eq (renderParent_of_parent hstage hparent) hend)
      rw [World.enters, if_pos hstage, Action.behind_of_done (transition_of_eq hstage), World.GoesOver,
        hstage]
      exact .step (by decide) hhandsOn
    · rw [renderParent, Action.endsIn_read_bind, hparent] at hend
      have hnone : w.enters .drawing .inheriting = [] := if_neg hstage
      rw [hnone, behind_of_refused hstage]
      rcases Action.endsIn_bind hend with ⟨_, t, ht, hend⟩ | ⟨e, he⟩
      · cases ht
        rcases Action.endsIn_bind hend with ⟨_, u, hu, -⟩ | ⟨e, he⟩
        · exact absurd (stage_of_transition hu) hstage
        · obtain rfl := stays_of_refused (w := { w with space.parent := none }) hstage (Or.inr ⟨e, he⟩)
          exact .here w.space.stage
      · cases he

theorem accounts_stages (engine : Engine) (fuel : Nat) :
    Accounts World.GoesOver (renderSpace engine fuel) (World.stages engine fuel) := by
  have c := World.GoesOver.composes
  cases fuel with
  | zero =>
    rw [renderSpace]
    exact Quiet.stop
  | succ fuel =>
    rw [renderSpace_succ, renderWith]
    refine (accounts_transition (by decide)).bind c fun _ => ?_
    intro w v hend
    rw [Action.endsIn_read_bind] at hend
    have hbody : Quiet World.GoesOver
        (runFrame .ofBody (runAll engine (belowAt engine fuel) w.space.program.body)) :=
      quiet_of_stage fun _ _ => stage_of_runFrame
    refine Quiet.bind c hbody (fun text => ?_) hend
    intro u t ht
    have hparent := (accounts_renderParent (renderSpace engine fuel)).andThen c fun _ =>
      Quiet.bind c (.read c) fun w => Quiet.pure c w.space.output
    exact @hparent { u with space.output := text } t ht

/-! ## How a rendering ends -/

/-- A space without a parent is finished behind its body. -/
theorem renderParent_of_no_parent {render : Action World String} (hstage : w.space.stage = .drawing)
    (hparent : w.space.parent = none) :
    renderParent render w = .done () { w with space.stage := .finished } := by
  have hread : (Action.read : Action World World) w = .done w w := rfl
  rw [renderParent]
  refine (Action.bind_of_done hread _).trans ?_
  rw [hparent]
  exact transition_of_eq hstage

/-- A rendering of a fresh space fails in the body, or it is finished behind the body, or it goes on with a
parent. -/
theorem renderSpace_cases (hfresh : w.space.stage = .fresh) :
    (∃ e v, renderSpace engine (fuel + 1) w = .failed e v ∧ v.space.stage = .drawing) ∨
      (∃ text v, renderSpace engine (fuel + 1) w = .done text v ∧ v.space.stage = .finished) ∨
      (∃ d w', HandsOn engine fuel w d w') ∨ renderSpace engine (fuel + 1) w = .exhausted := by
  rw [renderSpace_of_fresh hfresh]
  cases hbody : runFrame .ofBody (runAll engine (belowAt engine fuel) w.space.program.body)
      w.drawing with
  | failed e v =>
    exact .inl ⟨e, v, Action.bind_of_failed hbody _, stage_of_runFrame (Or.inr ⟨e, hbody⟩)⟩
  | exhausted => exact .inr (.inr (.inr (Action.bind_of_exhausted hbody _)))
  | done text v =>
    have hstage : v.space.stage = .drawing := stage_of_runFrame (Or.inl ⟨text, hbody⟩)
    cases hparent : v.space.parent with
    | some d => exact .inr (.inr (.inl ⟨d, _, hfresh, text, v, hbody, hstage, hparent, rfl⟩))
    | none =>
      have hend : renderParent (renderSpace engine fuel) { v with space.output := text } = _ :=
        renderParent_of_no_parent (w := { v with space.output := text }) hstage hparent
      refine .inr (.inl ⟨text, { v with space := { v.space with output := text, stage := .finished } },
        ?_, rfl⟩)
      refine (Action.bind_of_done hbody _).trans ?_
      refine (Action.bind_of_done (Action.update_apply _ v) _).trans ?_
      exact Action.bind_of_done hend _

/-- Why a space that is not fresh is not rendered. -/
def World.refusal (w : World) : RenderFault :=
  if w.space.stage = .finished then .finishedBefore w.space.path else .startedBefore w.space.path

/-- A space that is not fresh is not rendered, and stays as it is. -/
theorem renderSpace_of_not_fresh (h : w.space.stage ≠ .fresh) :
    renderSpace engine (fuel + 1) w = .failed (.render w.refusal) w := by
  have hrefused : transition .fresh .drawing w = .failed (.render w.refusal) w := by
    rw [transition, if_neg h, World.refusal]
    split <;> rfl
  rw [renderSpace_succ, renderWith]
  exact Action.bind_of_failed hrefused _

/-- Nor does it enter any stage. -/
theorem stages_of_not_fresh (h : w.space.stage ≠ .fresh) : w.stages engine fuel = [] := by
  cases fuel with
  | zero => rfl
  | succ fuel =>
    have hnone : w.enters .fresh .drawing = [] := if_neg h
    rw [World.stages, hnone, behind_of_refused h]
    rfl

/-- What is seen of a rendering, and the world behind it. -/
def Outcome.answer? : Outcome World String → Option (Except Error String × World)
  | .done text w => some (.ok text, w)
  | .failed e w => some (.error e, w)
  | .exhausted => none

theorem endsIn_of_answer? {first : Except Error String}
    (h : (renderSpace engine fuel w).answer? = some (first, v)) : (renderSpace engine fuel).EndsIn w v := by
  cases hend : renderSpace engine fuel w with
  | done text t =>
    rw [hend] at h
    cases h
    exact Or.inl ⟨text, hend⟩
  | failed e t =>
    rw [hend] at h
    cases h
    exact Or.inr ⟨e, hend⟩
  | exhausted =>
    rw [hend] at h
    cases h

/-- Nothing is seen of a rendering without a bound to run within. -/
theorem eq_succ_of_answer? {answer : Except Error String × World}
    (h : (renderSpace engine fuel w).answer? = some answer) : ∃ below, fuel = below + 1 := by
  cases fuel with
  | zero =>
    rw [renderSpace] at h
    cases h
  | succ below => exact ⟨below, rfl⟩

/-- **How the rendering of a fresh space ends**: it is finished with a text, or it fails while it is drawn,
or the rendering of the parent that it goes on with fails. -/
theorem answer?_of_fresh {first : Except Error String} (hfresh : w.space.stage = .fresh)
    (h : (renderSpace engine (fuel + 1) w).answer? = some (first, v)) :
    ((∃ text, first = .ok text) ∧ v.space.stage = .finished) ∨
      ((∃ e, first = .error e) ∧ v.space.stage = .drawing) ∨
      ((∃ e, first = .error e) ∧ v.space.stage = .inheriting ∧
        ∃ d w' e t, HandsOn engine fuel w d w' ∧ renderSpace engine fuel w' = .failed e t) := by
  rcases renderSpace_cases hfresh with
    ⟨e, u, hend, hstage⟩ | ⟨text, u, hend, hstage⟩ | ⟨d, w', hgo⟩ | hend
  · rw [hend] at h
    cases h
    exact .inr (.inl ⟨⟨e, rfl⟩, hstage⟩)
  · rw [hend] at h
    cases h
    exact .inl ⟨⟨text, rfl⟩, hstage⟩
  · obtain ⟨child, hstage, hend⟩ := hgo.exists_child
    rw [hend] at h
    cases hparent : renderSpace engine fuel w' with
    | done text t =>
      rw [hparent] at h
      cases h
      exact .inl ⟨⟨text, rfl⟩, rfl⟩
    | failed e t =>
      rw [hparent] at h
      cases h
      exact .inr (.inr ⟨⟨e, rfl⟩, hstage, d, w', e, t, hgo, hparent⟩)
    | exhausted =>
      rw [hparent] at h
      cases h
  · rw [hend] at h
    cases h

/-- A rendering waits for its parent for ever just if the rendering of the parent has failed. -/
theorem inheriting_iff {first : Except Error String} (hfresh : w.space.stage = .fresh)
    (h : (renderSpace engine (fuel + 1) w).answer? = some (first, v)) :
    v.space.stage = .inheriting ↔
      ∃ d w' e t, HandsOn engine fuel w d w' ∧ renderSpace engine fuel w' = .failed e t := by
  constructor
  · intro hwaits
    rcases answer?_of_fresh hfresh h with ⟨-, hstage⟩ | ⟨-, hstage⟩ | ⟨-, -, hgo⟩
    · cases hwaits.symm.trans hstage
    · cases hwaits.symm.trans hstage
    · exact hgo
  · rintro ⟨d, w', e, t, hgo, hparent⟩
    obtain ⟨child, hstage, hend⟩ := hgo.exists_child
    rw [hend, hparent] at h
    cases h
    exact hstage

end

/-! ## One call after the other -/

/-- A rendering that is asked for, of an engine and within a bound. -/
structure Call where
  engine : Engine
  bound : Nat

namespace Call

/-- What the renderings of one space come to, one after the other, and the world behind them. -/
def answers : List Call → World → Option (List (Except Error String) × World)
  | [], w => some ([], w)
  | c :: later, w => do
    let (answer, v) ← (renderSpace c.engine c.bound w).answer?
    let (rest, u) ← answers later v
    return (answer :: rest, u)

/-- The stages that the space enters meanwhile. -/
def stages : List Call → World → List Stage
  | [], _ => []
  | c :: later, w => w.stages c.engine c.bound ++
      ((renderSpace c.engine c.bound w).answer?.map fun (_, v) => stages later v).getD []

variable {later : List Call} {w : World}

/-- All calls are refused behind the first one, and nothing changes. -/
theorem answers_of_not_fresh (h : w.space.stage ≠ .fresh) (hlater : ∀ c ∈ later, 0 < c.bound) :
    answers later w = some (later.map fun _ => .error (.render w.refusal), w) ∧ stages later w = [] := by
  induction later with
  | nil => exact ⟨rfl, rfl⟩
  | cons c later ih =>
    obtain ⟨hbound, hrest⟩ := List.forall_mem_cons.mp hlater
    obtain ⟨hanswers, hstages⟩ := ih hrest
    obtain ⟨fuel, hfuel⟩ := Nat.exists_eq_succ_of_ne_zero (Nat.ne_of_gt hbound)
    have hend : renderSpace c.engine c.bound w = .failed (.render w.refusal) w := by
      rw [hfuel]
      exact renderSpace_of_not_fresh h
    rw [answers, stages, hend, stages_of_not_fresh h]
    simp only [Outcome.answer?, Option.bind_eq_bind, Option.bind_some, hanswers, Option.map_some,
      Option.getD_some, hstages]
    exact ⟨rfl, rfl⟩

/-- So it is behind a first call that ends. -/
theorem answers_of_first {c : Call} {first : Except Error String} {v : World}
    (h : (renderSpace c.engine c.bound w).answer? = some (first, v)) (hnot : v.space.stage ≠ .fresh)
    (hlater : ∀ c ∈ later, 0 < c.bound) :
    answers (c :: later) w = some (first :: later.map fun _ => .error (.render v.refusal), v) ∧
      stages (c :: later) w = w.stages c.engine c.bound := by
  obtain ⟨hanswers, hstages⟩ := answers_of_not_fresh hnot hlater
  rw [answers, stages, h]
  simp only [Option.bind_eq_bind, Option.bind_some, hanswers, Option.map_some, Option.getD_some, hstages,
    List.append_nil]
  exact ⟨rfl, trivial⟩

end Call

/-! ## Writing -/

section

variable {engine : Engine} {fuel : Nat}

/-- **A step writes a text**, in the scene that it has come to by then: a text of its own, what an
expression gives, a block that is not left to the parent, or an included template. -/
inductive Step.Writes (engine : Engine) (fuel : Nat) : Step → Scene → String → Scene → Prop where
  | text {text : String} {s : Scene} : Writes engine fuel (.text text) s text s
  | output {filter : Filter} {e : Expr} {s t : Scene} {v : Value}
      (h : evalIn engine (belowAt engine fuel) e s = .done v t) :
      Writes engine fuel (.output filter e) s (String.ofList (filter.apply v)) t
  | block {name text : String} {s t : Scene}
      (hparent : (s.world.space.parent.any fun d =>
        (BlockTable.ofProgram d.program).declares name) = false)
      (h : Scene.inWorld (fun _ => drawBlock engine fuel name 0) s = .done text t) :
      Writes engine fuel (.block name) s text t
  | inclusion {path : Expr} {target text : String} {s t u : Scene}
      (hpath : pathIn engine (belowAt engine fuel) path s = .done target t)
      (h : Scene.inWorld (fun _ => include_ engine (belowAt engine fuel) target) t = .done text u) :
      Writes engine fuel (.inclusion path) s text u

/-- A step that writes does nothing else from there on. -/
theorem Step.Writes.run_eq {st : Step} {text : String} {s t : Scene}
    (h : st.Writes engine fuel s text t) :
    st.run engine (belowAt engine fuel) s = (Scene.write text >>= fun _ => pure .normal) t := by
  cases h with
  | text => rw [Step.run]
  | output h =>
    rw [Step.run]
    exact Action.bind_of_done h _
  | block hparent h =>
    rw [Step.run]
    exact Action.bind_congr ((drawSlot_of_not_declares hparent).trans (Action.bind_of_done h _)) _
  | inclusion hpath h =>
    rw [Step.run]
    exact (Action.bind_of_done hpath _).trans (Action.bind_of_done h _)

/-- What a step does up to where it writes keeps the stage. -/
theorem Step.Writes.stage_eq {st : Step} {text : String} {s t : Scene}
    (h : st.Writes engine fuel s text t) : t.world.space.stage = s.world.space.stage := by
  have l : Ledger engine (belowAt engine fuel) _ Scene.MayBecome :=
    Scene.MayBecome.ledger (mayBecome_drawBlock engine fuel)
  cases h with
  | text => rfl
  | output h => rw [(l.expr _ (Or.inl ⟨_, h⟩)).space]
  | block hparent h =>
    obtain ⟨w, hw, rfl⟩ := Action.endsIn_focus (Or.inl ⟨_, h⟩)
    show w.space.stage = s.world.space.stage
    rw [(mayBecome_drawBlock engine fuel _ 0 hw).space]
  | inclusion hpath h =>
    obtain ⟨w, hw, rfl⟩ := Action.endsIn_focus (Or.inl ⟨_, h⟩)
    refine (congrArg Space.stage (space_of_include hw)).trans ?_
    rw [(l.pathIn _ (Or.inl ⟨_, hpath⟩)).space]

/-- The step comes to write, and is refused. -/
def Point.RefusedToWrite (engine : Engine) (fuel : Nat) : Point → Scene → Prop
  | .step st, s => ∃ text t e u, st.Writes engine fuel s text t ∧ Scene.write text t = .failed e u
  | .expr _, _ => False

/-- While a space is drawn, no step is refused to write. -/
theorem not_refusedToWrite {p : Point} {s : Scene} (hstage : s.world.space.stage = .drawing) :
    ¬ p.RefusedToWrite engine fuel s := by
  cases p with
  | expr e => exact id
  | step st =>
    rintro ⟨text, t, e, u, hwrites, hfailed⟩
    have hwritten : Scene.write text t = .done () _ := if_pos (hwrites.stage_eq.trans hstage)
    cases hwritten.symm.trans hfailed

/-- **What a rendering comes to, it comes to in spaces that are being drawn**: in the body of its template,
in the blocks drawn there, in included templates and in parents. -/
theorem RenderMeets.exists_drawing {watch : Nat → Point → Scene → Prop} (fuel : Nat) :
    (∀ name depth w, w.space.stage = .drawing → BlockMeets engine watch fuel name depth w →
      ∃ fuel p s, watch fuel p s ∧ s.world.space.stage = .drawing) ∧
    ∀ w, RenderMeets engine watch fuel w →
      ∃ fuel p s, watch fuel p s ∧ s.world.space.stage = .drawing := by
  induction fuel with
  | zero => exact ⟨fun _ _ _ _ => False.elim, fun _ => False.elim⟩
  | succ fuel ih =>
    obtain ⟨ihdraws, ihrenders⟩ := ih
    have hdraw := (Upkeep.any engine).drawBlock fuel
    -- What steps come to is watched for, or is drawn or rendered within the smaller bound.
    have hrun : ∀ frame steps w, w.space.stage = .drawing →
        MeetsAll engine (belowAt engine fuel) (fun p s => watch fuel p s ∨
          p.Deeper engine fuel (BlockMeets engine watch fuel) (RenderMeets engine watch fuel) s)
          steps ⟨w, frame⟩ →
        ∃ fuel p s, watch fuel p s ∧ s.world.space.stage = .drawing := by
      intro frame steps w hstage hmeets
      have hkept : (Upkeep.any engine).Kept w.space w w :=
        (World.Keeps.refl (u := .any engine) trivial).kept
      have hprimitives : Primitives engine engine (belowAt engine fuel) (belowAt engine fuel)
          (Scene.Lift ((Upkeep.any engine).Kept w.space) frame.block) Eq fun _ => True :=
        (Upkeep.any engine).primitives w.space hdraw ((Upkeep.any engine).renderSpace fuel) frame.block _
      obtain ⟨p, s, hpoint, hs, -⟩ := hmeets.exists_kept hprimitives (fun _ _ => trivial)
        ⟨hkept, rfl, rfl⟩
      have hdrawing {t : World} (ht : (Upkeep.any engine).Kept w.space t t) :
          t.space.stage = .drawing := by
        rw [ht.keeps.space]
        exact hstage
      rcases hpoint with hwatch | hdeeper
      · exact ⟨fuel, p, s, hwatch, hdrawing hs.world⟩
      · have hevaluation : Evaluation engine.config (drawBlock engine fuel) (drawBlock engine fuel)
            s.frame ((Upkeep.any engine).Kept w.space) Eq fun _ => True :=
          ((Upkeep.any engine).kindred w.space).evaluation fun i args _ =>
            (Upkeep.any engine).call hdraw s.frame i args
        rcases hdeeper.exists_kept hevaluation hs.world with
          ⟨name, depth, t, ht, hdraws⟩ | ⟨-, -, -, d, v, -, -, hrenders⟩
        · exact ihdraws name depth t (hdrawing ht) hdraws
        · exact ihrenders _ hrenders
    constructor
    · rintro name depth w hstage ⟨block, -, hmeets⟩
      exact hrun _ _ w hstage hmeets
    · rintro w ⟨-, hmeets | ⟨d, w', -, hmeets⟩⟩
      · exact hrun _ _ w.drawing rfl hmeets
      · exact ihrenders w' hmeets

end

/-! ## All calls -/

/-- **A space is rendered at most once, and it is written to only while it is drawn.**  Let a fresh space
be rendered again and again.  If the first rendering ends, all later ones are refused and change nothing.
The space is finished behind it just if it has come to a text; else it stays at the stage of drawing or at
that of inheriting, the latter just if the rendering of the parent has failed.  The stages it has gone over
are the first ones of one of two ways.  And at whatever nesting of blocks, included templates and parents,
no step is ever refused to write. -/
theorem World.renders_once {w : World} (hfresh : w.space.stage = .fresh) (c : Call) (later : List Call)
    (hlater : ∀ c ∈ later, 0 < c.bound) :
    (∀ first w₁, (renderSpace c.engine c.bound w).answer? = some (first, w₁) →
      Call.answers (c :: later) w = some (first :: later.map fun _ => .error (.render w₁.refusal), w₁) ∧
      (w₁.space.stage = .finished ↔ ∃ text, first = .ok text) ∧
      ((∃ e, first = .error e) → w₁.space.stage = .drawing ∨ w₁.space.stage = .inheriting) ∧
      (w₁.space.stage = .inheriting ↔ ∃ fuel d w' e t, c.bound = fuel + 1 ∧
        HandsOn c.engine fuel w d w' ∧ renderSpace c.engine fuel w' = .failed e t) ∧
      (.fresh :: Call.stages (c :: later) w <+: [.fresh, .drawing, .finished] ∨
        .fresh :: Call.stages (c :: later) w <+: [.fresh, .drawing, .inheriting, .finished]) ∧
      (.fresh :: Call.stages (c :: later) w).getLast? = some w₁.space.stage) ∧
    ∀ engine bound v, ¬ RenderMeets engine (fun fuel p => p.RefusedToWrite engine fuel) bound v := by
  refine ⟨fun first w₁ h => ?_, fun engine bound v hmeets => ?_⟩
  · obtain ⟨fuel, hfuel⟩ := eq_succ_of_answer? h
    have hends := answer?_of_fresh hfresh (hfuel ▸ h)
    have hwaits := inheriting_iff hfresh (hfuel ▸ h)
    have hpath : Stage.Path .fresh (w.stages c.engine c.bound) w₁.space.stage :=
      hfresh ▸ accounts_stages c.engine c.bound (endsIn_of_answer? h)
    have hnot : w₁.space.stage ≠ .fresh := by
      rcases hends with ⟨-, hstage⟩ | ⟨-, hstage⟩ | ⟨-, hstage, -⟩ <;> rw [hstage] <;> decide
    obtain ⟨hanswers, hstages⟩ := Call.answers_of_first h hnot hlater
    rw [hstages]
    refine ⟨hanswers, ?_, ?_, ?_, hpath.of_fresh, hpath.getLast?_eq⟩
    · rcases hends with ⟨⟨text, rfl⟩, hstage⟩ | ⟨⟨e, rfl⟩, hstage⟩ | ⟨⟨e, rfl⟩, hstage, -⟩ <;>
        simp [hstage]
    · rintro ⟨e, rfl⟩
      rcases hends with ⟨⟨text, htext⟩, -⟩ | ⟨-, hstage⟩ | ⟨-, hstage, -⟩
      · cases htext
      · exact .inl hstage
      · exact .inr hstage
    · simpa [hfuel] using hwaits
  · obtain ⟨fuel, p, s, hrefused, hstage⟩ := (RenderMeets.exists_drawing bound).2 v hmeets
    exact not_refusedToWrite hstage hrefused

/-- A page of a base that fails. -/
def pageOfBroken : Dict ByteArray :=
  [("base.html", "<%= 1 + \"a\" %>".toUTF8), ("page.html", "x<% inherit \"base.html\" %>".toUTF8)]

/-- The engine that has these templates. -/
def brokenEngine : Engine :=
  ⟨.default, .loader (.ofDict pageOfBroken)⟩

/-- The page waits for its base for ever, and is not rendered again. -/
theorem renders_once_broken : ∃ w e v, w.space.stage = .fresh ∧
    Call.answers [⟨brokenEngine, 7⟩, ⟨brokenEngine, 7⟩] w =
      some ([.error e, .error (.render (.startedBefore "page.html"))], v) ∧
    v.space.stage = .inheriting ∧
    (∃ fuel d w' e t, 7 = fuel + 1 ∧ HandsOn brokenEngine fuel w d w' ∧
      renderSpace brokenEngine fuel w' = .failed e t) ∧
    (.fresh :: Call.stages [⟨brokenEngine, 7⟩, ⟨brokenEngine, 7⟩] w).getLast? = some .inheriting := by
  have hrun : ((Stock.ofSource? .default pageOfBroken "page.html").bind fun t =>
      t.compile.toOption.bind fun p =>
        (renderSpace brokenEngine 7 ⟨Draft.toSpace ⟨t, p, 0⟩ [], .empty, 0⟩).answer?.map
          fun (first, v) => (first.toOption, v.space.stage, v.space.path)) =
      some (none, .inheriting, "page.html") := by
    decide +kernel
  obtain ⟨t, -, hrun⟩ := Option.bind_eq_some_iff.mp hrun
  obtain ⟨p, -, hrun⟩ := Option.bind_eq_some_iff.mp hrun
  obtain ⟨⟨first, v⟩, hfirst, hseen⟩ := Option.map_eq_some_iff.mp hrun
  obtain ⟨hfails, hstage, hpath⟩ : first.toOption = none ∧ v.space.stage = .inheriting ∧
      v.space.path = "page.html" := by simpa using hseen
  obtain ⟨e, rfl⟩ : ∃ e, first = .error e := by
    cases first with
    | ok text => cases hfails
    | error e => exact ⟨e, rfl⟩
  let w : World := ⟨Draft.toSpace ⟨t, p, 0⟩ [], .empty, 0⟩
  have hfresh : w.space.stage = .fresh := rfl
  obtain ⟨hcalls, -⟩ :=
    World.renders_once hfresh ⟨brokenEngine, 7⟩ [⟨brokenEngine, 7⟩] (by decide)
  obtain ⟨hanswers, -, -, hwaits, -, hlast⟩ := hcalls _ _ hfirst
  have hrefusal : v.refusal = .startedBefore "page.html" := by
    rw [World.refusal, hstage, hpath]
    rfl
  rw [List.map_singleton, hrefusal] at hanswers
  rw [hstage] at hlast
  exact ⟨w, e, v, hfresh, hanswers, hstage, hwaits.mp hstage, hlast⟩

end Inlay
