import Inlay.Proofs.Render.Correspondence
import Inlay.Proofs.Render.EngineErrors

/-!
# The worlds that a rendering comes to

What a rendering keeps it has wherever it comes to: in the body of its template, in the blocks that are
drawn there and in those that an expression draws, in included templates and in parents.

* `Expr.Draws.exists_kept`: an evaluation draws blocks in worlds with the property that it keeps.
* `Point.Deeper.exists_kept`: what a point draws or renders.
* `RenderMeets.exists_kept`: a rendering comes to scenes with the property that it keeps.
-/

namespace Inlay

open Inlay.Action (Agree)

/-! ## The blocks that an evaluation draws -/

section

variable {config : Config} {draw : DrawBlock} {frame : Frame} {W : World → World → Prop}
  {E : Error → Error → Prop} {draws : String → Nat → World → Prop}

theorem Intrinsic.Draws.exists_draws {i : Intrinsic} {args : List Value} {w : World}
    (h : i.Draws frame draws args w) : ∃ name depth, draws name depth w := by
  cases i with
  | body => exact h.elim
  | block =>
    obtain ⟨name, -, h⟩ := h
    exact ⟨name, 0, h⟩
  | parentBlock =>
    obtain ⟨name, -, -, h⟩ := h
    exact ⟨name, _, h⟩

mutual

/-- **What an evaluation draws, it draws in a world with the property that it keeps.** -/
theorem Expr.Draws.exists_kept (hW : Evaluation config draw draw frame W E fun _ => True) :
    ∀ (e : Expr) (w : World), W w w → e.Draws config draw frame draws w →
      ∃ name depth t, W t t ∧ draws name depth t
  | .lit _, _ | .name _, _ => fun _ => False.elim
  | .list items, w => AllDraw.exists_kept hW items w
  | .map entries, w => EntriesDraw.exists_kept hW entries w
  | .member e _, w | .neg e, w | .not e, w => Expr.Draws.exists_kept hW e w
  | .index a b, w | .binary _ a b, w => by
    rintro hw (hdraws | ⟨x, t, ht, hdraws⟩)
    · exact Expr.Draws.exists_kept hW a w hw hdraws
    · have hkept := (hW.eval a fun _ _ => trivial).done hw ht
      exact Expr.Draws.exists_kept hW b t hkept hdraws
  | .call f args, w => by
    cases hi : intrinsicOf? config frame w.space f with
    | some i =>
      simp only [Expr.Draws, hi]
      rintro hw (hdraws | ⟨values, t, ht, hdraws⟩)
      · exact AllDraw.exists_kept hW args w hw hdraws
      · have hkept := (hW.evalAll args fun _ _ => trivial).done hw ht
        obtain ⟨name, depth, hdraws⟩ := hdraws.exists_draws
        exact ⟨name, depth, t, hkept, hdraws⟩
    | none =>
      simp only [Expr.Draws, hi]
      rintro hw (hdraws | ⟨callee, t, ht, _, u, hu, hdraws⟩)
      · exact Expr.Draws.exists_kept hW f w hw hdraws
      · have hkept := (hW.eval f fun _ _ => trivial).done hw ht
        exact AllDraw.exists_kept hW args u ((hW.checkCallable callee).done hkept hu) hdraws
  | .and a b, w | .or a b, w => by
    rintro hw (hdraws | ⟨x, t, ht, -, hdraws⟩)
    · exact Expr.Draws.exists_kept hW a w hw hdraws
    · have hkept := (hW.eval a fun _ _ => trivial).done hw ht
      exact Expr.Draws.exists_kept hW b t hkept hdraws
  | .cond test a b, w => by
    rintro hw (hdraws | ⟨x, t, ht, ⟨-, hdraws⟩ | ⟨-, hdraws⟩⟩)
    · exact Expr.Draws.exists_kept hW test w hw hdraws
    · have hkept := (hW.eval test fun _ _ => trivial).done hw ht
      exact Expr.Draws.exists_kept hW a t hkept hdraws
    · have hkept := (hW.eval test fun _ _ => trivial).done hw ht
      exact Expr.Draws.exists_kept hW b t hkept hdraws

theorem AllDraw.exists_kept (hW : Evaluation config draw draw frame W E fun _ => True) :
    ∀ (es : List Expr) (w : World), W w w → AllDraw config draw frame draws es w →
      ∃ name depth t, W t t ∧ draws name depth t
  | [], _ => fun _ => False.elim
  | e :: rest, w => by
    rintro hw (hdraws | ⟨v, t, ht, hdraws⟩)
    · exact Expr.Draws.exists_kept hW e w hw hdraws
    · have hkept := (hW.eval e fun _ _ => trivial).done hw ht
      exact AllDraw.exists_kept hW rest t hkept hdraws

theorem EntriesDraw.exists_kept (hW : Evaluation config draw draw frame W E fun _ => True) :
    ∀ (entries : List (Expr × Expr)) (w : World), W w w →
      EntriesDraw config draw frame draws entries w → ∃ name depth t, W t t ∧ draws name depth t
  | [], _ => fun _ => False.elim
  | (k, e) :: rest, w => by
    rintro hw (hdraws | ⟨key, t, ht, hdraws | ⟨v, u, hu, hdraws⟩⟩)
    · exact Expr.Draws.exists_kept hW k w hw hdraws
    all_goals
      have hkey := ((hW.eval k fun _ _ => trivial).andThen fun key => hW.entryKey key).done hw ht
    · exact Expr.Draws.exists_kept hW e t hkey hdraws
    · have hkept := (hW.eval e fun _ _ => trivial).done hkey hu
      exact EntriesDraw.exists_kept hW rest u hkept hdraws

end

/-- Behind a point a block is drawn, in a world with the property, or a template is rendered that the
point includes. -/
theorem Point.Deeper.exists_kept {engine : Engine} {fuel : Nat} {renders : World → Prop} {p : Point}
    {s : Scene} (hW : Evaluation engine.config (drawBlock engine fuel) (drawBlock engine fuel) s.frame W E
      fun _ => True) (hs : W s.world s.world) (h : p.Deeper engine fuel draws renders s) :
    (∃ name depth t, W t t ∧ draws name depth t) ∨
      ∃ path target t d v, pathIn engine (belowAt engine fuel) path s = .done target t ∧
        spawn engine target t.world = .done d v ∧
        renders { v with space := d.toSpace v.space.globals } := by
  match p with
  | .expr e => exact .inl (Expr.Draws.exists_kept hW e s.world hs h)
  | .step (.block name) => exact .inl ⟨name, 0, s.world, hs, h.2⟩
  | .step (.inclusion path) =>
    obtain ⟨target, t, ht, d, v, hv, hrenders⟩ := h
    exact .inr ⟨path, target, t, d, v, ht, hv, hrenders⟩
  | .step (.text _) | .step (.output ..) | .step (.inheritance _) | .step (.choose ..)
  | .step (.forEach ..) | .step (.whileTest ..) | .step (.withBinding ..) | .step (.attempt ..)
  | .step (.assign ..) | .step (.importModule _) | .step (.importNames _) | .step (.raise _)
  | .step (.declareGlobal _) | .step (.assertion _) | .step .breakLoop | .step .continueLoop
  | .step (.comment _) => exact h.elim

end

/-! ## What a rendering comes to -/

section

variable {engine : Engine} (c : Correspondence engine engine) {watch : Nat → Point → Scene → Prop}

/-- A rendering that goes on with a parent does so in a world with the property. -/
theorem HandsOn.kept {fuel : Nat} {w w' : World} {d : Draft} (h : HandsOn engine fuel w d w')
    (hw : c.Worlds w w) : c.Worlds w' w' := by
  obtain ⟨-, text, v, hbody, -, hparent, rfl⟩ := h
  obtain ⟨hdraw, hrender⟩ := c.draws_and_renders fuel
  have hrun : Agree c.Worlds Eq c.Drawn
      (runFrame .ofBody (runAll engine (belowAt engine fuel) w.space.program.body))
      (runFrame .ofBody (runAll engine (belowAt engine fuel) w.space.program.body)) :=
    Correspondence.runFrame rfl hdraw hrender rfl hw.known.program.body
  have hdrawing : c.Worlds w.drawing w.drawing := hw.setStage .drawing
  have hv := hrun.done hdrawing hbody
  have hdrafts := hv.parent
  rw [hparent] at hdrafts
  cases hdrafts with
  | some hd => exact hd.ofChild (hv.setOutput (hrun.value hdrawing hbody).2)

/-- **What a rendering comes to, it comes to in scenes with the property that it keeps.** -/
theorem RenderMeets.exists_kept (fuel : Nat) :
    (∀ name depth w, c.Worlds w w → BlockMeets engine watch fuel name depth w →
      ∃ fuel p s, watch fuel p s ∧ c.Scenes s.frame.block s s) ∧
    ∀ w, c.Worlds w w → RenderMeets engine watch fuel w →
      ∃ fuel p s, watch fuel p s ∧ c.Scenes s.frame.block s s := by
  induction fuel with
  | zero => exact ⟨fun _ _ _ _ => False.elim, fun _ _ => False.elim⟩
  | succ fuel ih =>
    obtain ⟨ihdraws, ihrenders⟩ := ih
    obtain ⟨hdraw, hrender⟩ := c.draws_and_renders fuel
    -- What steps come to is watched for, or is drawn or rendered within the smaller bound.
    have hrun : ∀ frame steps w, c.Worlds w w → frame.buffer = "" →
        Marked c.said (Step.outlineAll steps) →
        MeetsAll engine (belowAt engine fuel) (fun p s => watch fuel p s ∨
          p.Deeper engine fuel (BlockMeets engine watch fuel) (RenderMeets engine watch fuel) s)
          steps ⟨w, frame⟩ →
        ∃ fuel p s, watch fuel p s ∧ c.Scenes s.frame.block s s := by
      intro frame steps w hw hframe hsteps hmeets
      have hprimitives : Primitives engine engine (belowAt engine fuel) (belowAt engine fuel)
          (c.Scenes frame.block) Eq c.said := Correspondence.primitives rfl hdraw hrender frame.block
      have hscene : c.Scenes frame.block ⟨w, frame⟩ ⟨w, frame⟩ :=
        ⟨⟨hw, rfl, rfl⟩, by rw [hframe]; exact c.empty⟩
      obtain ⟨p, s, hpoint, hs, -⟩ := hmeets.exists_kept hprimitives hsteps hscene
      rcases hpoint with hwatch | hdeeper
      · exact ⟨fuel, p, s, hwatch, hs.block ▸ hs⟩
      · rcases hdeeper.exists_kept (Correspondence.evaluation hdraw s.frame) hs.world with
          ⟨name, depth, t, ht, hdraws⟩ | ⟨path, target, t, d, v, ht, hv, hrenders⟩
        · exact ihdraws name depth t ht hdraws
        · have htarget := (Correspondence.pathIn hdraw path).done hs ht
          have hworld := (c.spawn target).done htarget.world hv
          have hdraft := (c.spawn target).value htarget.world hv
          exact ihrenders _ (hdraft.toSpace _ hworld) hrenders
    constructor
    · rintro name depth w hw ⟨block, hblock, hmeets⟩
      exact hrun _ _ w hw rfl (hw.known.blocks.get? hblock) hmeets
    · rintro w hw ⟨-, hmeets | ⟨d, w', hgo, hmeets⟩⟩
      · exact hrun _ _ w.drawing (hw.setStage .drawing) rfl hw.known.program.body hmeets
      · exact ihrenders w' (hgo.kept c hw) hmeets

end

end Inlay
