import Inlay.Proofs.Render.Kept
import Inlay.Proofs.Render.Rendering
import Inlay.Proofs.Render.Writers

/-!
# Errors that no template handles

A fault is an error that an `except` clause may handle.  Every other error goes through: through
expressions, blocks, included templates and parents, and through every `try` whose `finally` clause comes
to its end.  Only a `finally` clause that leaves a loop, goes on with its next turn or fails itself
replaces the error.

* `Expr.Draws`: the blocks that an evaluation draws.
* `RenderMeets`: what a rendering comes to, in its own template or in any that it draws.
* `RenderMeets.raises`: a rendering fails with the error of a step that it comes to, or it comes to a
  `try` that replaces the error.
* `Error.gets_through`: both together, for one `try` and for whole renderings.
-/

namespace Inlay

/-! ## The blocks that an evaluation draws -/

/-- A call of one of the functions that need the space draws a block. -/
def Intrinsic.Draws (frame : Frame) (draws : String → Nat → World → Prop) :
    Intrinsic → List Value → World → Prop
  | .body, _, _ => False
  | .block, args, w => ∃ name, blockArgument .block args = .ok name ∧ draws name 0 w
  | .parentBlock, args, w => ∃ name, blockArgument .parentBlock args = .ok name ∧
      (w.space.blocks.get? name (parentDepth frame name)).isSome ∧
        draws name (parentDepth frame name) w

section

variable (config : Config) (draw : DrawBlock) (frame : Frame)
  (draws : String → Nat → World → Prop)

mutual

/-- **An evaluation draws a block that is watched for.** -/
def Expr.Draws : Expr → World → Prop
  | .lit _ | .name _ => fun _ => False
  | .list items => AllDraw items
  | .map entries => EntriesDraw entries
  | .member e _ | .neg e | .not e => e.Draws
  | .index a b | .binary _ a b => fun w =>
    a.Draws w ∨ (a.eval config draw frame).Then (fun _ t => b.Draws t) w
  | .call f args => fun w =>
    match intrinsicOf? config frame w.space f with
    | some i => AllDraw args w ∨
        (evalAll config draw frame args).Then (fun values t => i.Draws frame draws values t) w
    | none => f.Draws w ∨ (f.eval config draw frame).Then (fun callee t =>
        (checkCallable callee).Then (fun _ u => AllDraw args u) t) w
  | .and a b => fun w =>
    a.Draws w ∨ (a.eval config draw frame).Then (fun x t => x.truthy = true ∧ b.Draws t) w
  | .or a b => fun w =>
    a.Draws w ∨ (a.eval config draw frame).Then (fun x t => x.truthy = false ∧ b.Draws t) w
  | .cond test a b => fun w =>
    test.Draws w ∨ (test.eval config draw frame).Then (fun x t =>
      (x.truthy = true ∧ a.Draws t) ∨ (x.truthy = false ∧ b.Draws t)) w

/-- So does an evaluation of expressions one after the other. -/
def AllDraw : List Expr → World → Prop
  | [] => fun _ => False
  | e :: rest => fun w => e.Draws w ∨ (e.eval config draw frame).Then (fun _ t => AllDraw rest t) w

/-- So does an evaluation of the entries of a map. -/
def EntriesDraw : List (Expr × Expr) → World → Prop
  | [] => fun _ => False
  | (k, e) :: rest => fun w =>
    k.Draws w ∨ (k.eval config draw frame >>= entryKey).Then (fun _ t =>
      e.Draws t ∨ (e.eval config draw frame).Then (fun _ u => EntriesDraw rest u) t) w

end

end

section

variable {config : Config} {draw : DrawBlock} {frame : Frame} {bad : Error → Prop}
  {draws draws' : String → Nat → World → Prop}

theorem Intrinsic.Draws.rewatch
    (h : ∀ name depth w, draws name depth w → (draw name depth).Raises bad w ∨ draws' name depth w)
    (i : Intrinsic) (args : List Value) (w : World) (hi : i.Draws frame draws args w) :
    (i.call draw frame args).Raises bad w ∨ i.Draws frame draws' args w := by
  cases i with
  | body => exact hi.elim
  | block =>
    obtain ⟨name, hname, hdraws⟩ := hi
    rcases h name 0 w hdraws with hraises | hdraws
    · have hargument : Action.ofFault (blockArgument .block args) w = .done name w := by
        rw [hname]
        rfl
      exact Or.inl (.andThen hargument hraises.bind)
    · exact Or.inr ⟨name, hname, hdraws⟩
  | parentBlock =>
    obtain ⟨name, hname, hsome, hdraws⟩ := hi
    rcases h name _ w hdraws with hraises | hdraws
    · have hargument : Action.ofFault (blockArgument .parentBlock args) w = .done name w := by
        rw [hname]
        rfl
      have hread : (Action.read : Action World World) w = .done w w := rfl
      refine Or.inl (.andThen hargument (.andThen hread ?_))
      dsimp only
      rw [if_neg (by rw [Option.isNone_iff_eq_none]; exact Option.isSome_iff_ne_none.mp hsome)]
      exact Action.Raises.bind hraises
    · exact Or.inr ⟨name, hname, hsome, hdraws⟩

mutual

theorem Expr.Draws.rewatch
    (h : ∀ name depth w, draws name depth w → (draw name depth).Raises bad w ∨ draws' name depth w) :
    ∀ (e : Expr) (w : World), e.Draws config draw frame draws w →
      (e.eval config draw frame).Raises bad w ∨ e.Draws config draw frame draws' w
  | .lit _, _ | .name _, _ => False.elim
  | .list items, w => fun hdraws => by
    rw [Expr.eval]
    exact (AllDraw.rewatch h items w hdraws).imp_left Action.Raises.bind
  | .map entries, w => fun hdraws => by
    rw [Expr.eval]
    exact (EntriesDraw.rewatch h [] entries w hdraws).imp_left Action.Raises.bind
  | .member e _, w | .neg e, w | .not e, w => fun hdraws => by
    rw [Expr.eval]
    exact (Expr.Draws.rewatch h e w hdraws).imp_left Action.Raises.bind
  | .index a b, w | .binary _ a b, w => by
    rw [Expr.eval]
    rintro (hdraws | ⟨x, t, ht, hdraws⟩)
    · exact (Expr.Draws.rewatch h a w hdraws).imp Action.Raises.bind Or.inl
    · rcases Expr.Draws.rewatch h b t hdraws with hraises | hdraws
      · exact Or.inl (.andThen ht hraises.bind)
      · exact Or.inr (Or.inr ⟨x, t, ht, hdraws⟩)
  | .call f args, w => by
    have hread : (Action.read : Action World World) w = .done w w := rfl
    rw [Expr.eval]
    cases hi : intrinsicOf? config frame w.space f with
    | some i =>
      simp only [Expr.Draws, hi]
      rintro (hdraws | ⟨values, t, ht, hdraws⟩)
      · rcases AllDraw.rewatch h args w hdraws with hraises | hdraws
        · refine Or.inl (.andThen hread ?_)
          rw [hi]
          exact Action.Raises.bind hraises
        · exact Or.inr (Or.inl hdraws)
      · rcases Intrinsic.Draws.rewatch h i values t hdraws with hraises | hdraws
        · refine Or.inl (.andThen hread ?_)
          rw [hi]
          exact .andThen ht hraises
        · exact Or.inr (Or.inr ⟨values, t, ht, hdraws⟩)
    | none =>
      simp only [Expr.Draws, hi]
      rintro (hdraws | ⟨callee, t, ht, _, u, hu, hdraws⟩)
      · rcases Expr.Draws.rewatch h f w hdraws with hraises | hdraws
        · refine Or.inl (.andThen hread ?_)
          rw [hi]
          exact Action.Raises.bind hraises
        · exact Or.inr (Or.inl hdraws)
      · rcases AllDraw.rewatch h args u hdraws with hraises | hdraws
        · refine Or.inl (.andThen hread ?_)
          rw [hi]
          exact .andThen ht (.andThen hu hraises.bind)
        · exact Or.inr (Or.inr ⟨callee, t, ht, _, u, hu, hdraws⟩)
  | .and a b, w => by
    rw [Expr.eval]
    rintro (hdraws | ⟨x, t, ht, hx, hdraws⟩)
    · exact (Expr.Draws.rewatch h a w hdraws).imp Action.Raises.bind Or.inl
    · rcases Expr.Draws.rewatch h b t hdraws with hraises | hdraws
      · exact Or.inl (.andThen ht (by rwa [if_pos hx]))
      · exact Or.inr (Or.inr ⟨x, t, ht, hx, hdraws⟩)
  | .or a b, w => by
    rw [Expr.eval]
    rintro (hdraws | ⟨x, t, ht, hx, hdraws⟩)
    · exact (Expr.Draws.rewatch h a w hdraws).imp Action.Raises.bind Or.inl
    · rcases Expr.Draws.rewatch h b t hdraws with hraises | hdraws
      · exact Or.inl (.andThen ht (by rwa [if_neg (Bool.eq_false_iff.mp hx)]))
      · exact Or.inr (Or.inr ⟨x, t, ht, hx, hdraws⟩)
  | .cond test a b, w => by
    rw [Expr.eval]
    rintro (hdraws | ⟨x, t, ht, ⟨hx, hdraws⟩ | ⟨hx, hdraws⟩⟩)
    · exact (Expr.Draws.rewatch h test w hdraws).imp Action.Raises.bind Or.inl
    · rcases Expr.Draws.rewatch h a t hdraws with hraises | hdraws
      · exact Or.inl (.andThen ht (by rwa [if_pos hx]))
      · exact Or.inr (Or.inr ⟨x, t, ht, Or.inl ⟨hx, hdraws⟩⟩)
    · rcases Expr.Draws.rewatch h b t hdraws with hraises | hdraws
      · exact Or.inl (.andThen ht (by rwa [if_neg (Bool.eq_false_iff.mp hx)]))
      · exact Or.inr (Or.inr ⟨x, t, ht, Or.inr ⟨hx, hdraws⟩⟩)

theorem AllDraw.rewatch
    (h : ∀ name depth w, draws name depth w → (draw name depth).Raises bad w ∨ draws' name depth w) :
    ∀ (es : List Expr) (w : World), AllDraw config draw frame draws es w →
      (evalAll config draw frame es).Raises bad w ∨ AllDraw config draw frame draws' es w
  | [], _ => False.elim
  | e :: rest, w => by
    rw [evalAll]
    rintro (hdraws | ⟨v, t, ht, hdraws⟩)
    · exact (Expr.Draws.rewatch h e w hdraws).imp Action.Raises.bind Or.inl
    · rcases AllDraw.rewatch h rest t hdraws with hraises | hdraws
      · exact Or.inl (.andThen ht hraises.bind)
      · exact Or.inr (Or.inr ⟨v, t, ht, hdraws⟩)

theorem EntriesDraw.rewatch
    (h : ∀ name depth w, draws name depth w → (draw name depth).Raises bad w ∨ draws' name depth w)
    (found : Dict Value) : ∀ (entries : List (Expr × Expr)) (w : World),
      EntriesDraw config draw frame draws entries w →
        (evalEntries config draw frame found entries).Raises bad w ∨
          EntriesDraw config draw frame draws' entries w
  | [], _ => False.elim
  | (k, e) :: rest, w => by
    rw [evalEntries, ← bind_assoc]
    rintro (hdraws | ⟨key, t, ht, hdraws | ⟨v, u, hu, hdraws⟩⟩)
    · rcases Expr.Draws.rewatch h k w hdraws with hraises | hdraws
      · exact Or.inl (Action.Raises.bind hraises.bind)
      · exact Or.inr (Or.inl hdraws)
    · rcases Expr.Draws.rewatch h e t hdraws with hraises | hdraws
      · exact Or.inl (.andThen ht hraises.bind)
      · exact Or.inr (Or.inr ⟨key, t, ht, Or.inl hdraws⟩)
    · rcases EntriesDraw.rewatch h _ rest u hdraws with hraises | hdraws
      · exact Or.inl (.andThen ht (.andThen hu hraises))
      · exact Or.inr (Or.inr ⟨key, t, ht, Or.inr ⟨v, u, hu, hdraws⟩⟩)

end

end

/-! ## What a rendering comes to -/

section

variable (engine : Engine)

/-- What is drawn or rendered at a point, within a bound, is watched for. -/
def Point.Deeper (fuel : Nat) (draws : String → Nat → World → Prop) (renders : World → Prop) :
    Point → Scene → Prop
  | .expr e, s => e.Draws engine.config (drawBlock engine fuel) s.frame draws s.world
  | .step (.block name), s =>
    (s.world.space.parent.any fun d => (BlockTable.ofProgram d.program).declares name) = false ∧
      draws name 0 s.world
  | .step (.inclusion path), s => (pathIn engine (belowAt engine fuel) path).Then (fun target t =>
      (spawn engine target).Then (fun d w =>
        renders { w with space := d.toSpace w.space.globals }) t.world) s
  | _, _ => False

variable (watch : Nat → Point → Scene → Prop)

mutual

/-- Drawing a block comes to something that is watched for, in its body or in whatever is drawn or
rendered there. -/
def BlockMeets : Nat → String → Nat → World → Prop
  | 0 => fun _ _ _ => False
  | fuel + 1 => fun name depth w => ∃ block, w.space.blocks.get? name depth = some block ∧
      MeetsAll engine (belowAt engine fuel) (fun p s => watch fuel p s ∨
        p.Deeper engine fuel (BlockMeets fuel) (RenderMeets fuel) s) block.body
          ⟨w, .ofBlock name depth⟩

/-- **A rendering comes to something that is watched for**: in the body of its template, in whatever
is drawn or rendered there, or in the parent. -/
def RenderMeets : Nat → World → Prop
  | 0 => fun _ => False
  | fuel + 1 => fun w => w.space.stage = .fresh ∧
      (MeetsAll engine (belowAt engine fuel) (fun p s => watch fuel p s ∨
        p.Deeper engine fuel (BlockMeets fuel) (RenderMeets fuel) s) w.space.program.body
          ⟨w.drawing, .ofBody⟩ ∨
        ∃ d w', HandsOn engine fuel w d w' ∧ RenderMeets fuel w')

end

end

/-! ## Errors that get through -/

theorem Outcome.agree_refl {σ α : Type} (o : Outcome σ α) : o.Agree Eq Eq Eq o := by
  cases o with
  | done a s => exact .done rfl rfl
  | failed e s => exact .failed rfl rfl
  | exhausted => exact .exhausted

theorem Action.agree_refl {σ α : Type} (x : Action σ α) : Action.Agree Eq Eq Eq x x := by
  rintro s _ rfl
  exact (x s).agree_refl

/-- Every run agrees with itself. -/
theorem Primitives.refl (engine : Engine) (below : Below) :
    Primitives engine engine below below Eq Eq fun _ => True where
  turns := rfl
  modules := rfl
  eval _ _ _ := Action.agree_refl _
  block _ := Action.agree_refl _
  inclusion _ := Action.agree_refl _
  inheritance _ := Action.agree_refl _
  plain _ := Action.agree_refl _
  output _ _ := Action.agree_refl _
  bind name v _ _ hs := congrArg (Scene.bind name v) hs
  declare names _ _ hs := by rw [hs]
  handling hs := by rw [hs]
  setHandling fault _ _ hs := by rw [hs]
  fault _ := rfl
  sameFault := Error.sameFault_of_eq

section

variable {engine : Engine} {bad : Error → Prop}

theorem raises_runFrame {frame : Frame} {run : Action Scene Flow} {w : World}
    (h : run.Raises bad ⟨w, frame⟩) : (runFrame frame run).Raises bad w := by
  obtain ⟨e, t, hbad, ht⟩ := h
  refine ⟨e, t.world, hbad, ?_⟩
  rw [runFrame, ht]

theorem raises_inWorld {α : Type} {x : Frame → Action World α} {s : Scene}
    (h : (x s.frame).Raises bad s.world) : (Scene.inWorld x).Raises bad s := by
  obtain ⟨e, t, hbad, ht⟩ := h
  refine ⟨e, { s with world := t }, hbad, ?_⟩
  rw [Scene.inWorld, Action.focus, ht]

/-- What is drawn or rendered at a point fails with the point. -/
theorem Point.Deeper.rewatch {fuel : Nat} {draws draws' : String → Nat → World → Prop}
    {renders renders' : World → Prop}
    (hdraws : ∀ name depth w, draws name depth w →
      (drawBlock engine fuel name depth).Raises bad w ∨ draws' name depth w)
    (hrenders : ∀ w, renders w → (renderSpace engine fuel).Raises bad w ∨ renders' w)
    (p : Point) (s : Scene) (h : p.Deeper engine fuel draws renders s) :
    p.Raises engine (belowAt engine fuel) bad s ∨ p.Deeper engine fuel draws' renders' s := by
  match p with
  | .expr e =>
    exact (Expr.Draws.rewatch hdraws e s.world h).imp_left raises_inWorld
  | .step (.block name) =>
    obtain ⟨hparent, h⟩ := h
    rcases hdraws name 0 s.world h with hraises | h
    · obtain ⟨e, t, hbad, ht⟩ := (raises_inWorld (x := fun _ => drawBlock engine fuel name 0) hraises).bind
      refine Or.inl ?_
      rw [Point.Raises, Step.run]
      exact Action.Raises.bind ⟨e, t, hbad, (drawSlot_of_not_declares hparent).trans ht⟩
    · exact Or.inr ⟨hparent, h⟩
  | .step (.inclusion path) =>
    obtain ⟨target, t, ht, d, w, hw, h⟩ := h
    rcases hrenders _ h with ⟨e, u, hbad, hu⟩ | h
    · refine Or.inl ?_
      rw [Point.Raises, Step.run]
      have hread : (Action.read : Action World World) w = .done w w := rfl
      have hinclude : (include_ engine (belowAt engine fuel) target).Raises bad t.world :=
        .andThen hw (.andThen hread ⟨e, _, hbad, inSpace_of_failed hu⟩)
      exact .andThen ht (Action.Raises.bind (raises_inWorld hinclude))
    · exact Or.inr ⟨target, t, ht, d, w, hw, h⟩
  | .step (.text _) | .step (.output ..) | .step (.inheritance _) | .step (.choose ..)
  | .step (.forEach ..) | .step (.whileTest ..) | .step (.withBinding ..) | .step (.attempt ..)
  | .step (.assign ..) | .step (.importModule _) | .step (.importNames _) | .step (.raise _)
  | .step (.declareGlobal _) | .step (.assertion _) | .step .breakLoop | .step .continueLoop
  | .step (.comment _) => exact h.elim

theorem HandsOn.raises {fuel : Nat} {w w' : World} {d : Draft} (h : HandsOn engine fuel w d w')
    (hraises : (renderSpace engine fuel).Raises bad w') :
    (renderSpace engine (fuel + 1)).Raises bad w := by
  obtain ⟨e, t, hbad, ht⟩ := hraises
  have hseen := h.seen_eq
  rw [ht] at hseen
  cases hend : renderSpace engine (fuel + 1) w with
  | done text u =>
    rw [hend] at hseen
    cases hseen
  | failed e' u =>
    rw [hend] at hseen
    obtain ⟨he, -⟩ := Prod.mk.inj (Option.some.inj hseen)
    obtain rfl := Except.error.inj he
    exact ⟨_, u, hbad, hend⟩
  | exhausted =>
    rw [hend] at hseen
    cases hseen

/-- **What a rendering comes to fails with the rendering**, if it fails with an error that nothing
handles, unless the rendering comes to a `try` that replaces the error. -/
theorem RenderMeets.raises (hbad : ∀ e, bad e → ∀ f, e ≠ .fault f)
    {watch : Nat → Point → Scene → Prop}
    (hwatch : ∀ fuel p s, watch fuel p s → p.Raises engine (belowAt engine fuel) bad s) (fuel : Nat) :
    (∀ name depth w, BlockMeets engine watch fuel name depth w →
      (drawBlock engine fuel name depth).Raises bad w ∨
        BlockMeets engine (fun fuel p => p.Replaces engine (belowAt engine fuel) bad) fuel name depth w) ∧
      ∀ w, RenderMeets engine watch fuel w → (renderSpace engine fuel).Raises bad w ∨
        RenderMeets engine (fun fuel p => p.Replaces engine (belowAt engine fuel) bad) fuel w := by
  induction fuel with
  | zero => exact ⟨fun _ _ _ => False.elim, fun _ => False.elim⟩
  | succ fuel ih =>
    obtain ⟨ihdraws, ihrenders⟩ := ih
    -- A run fails with what it comes to, and so does the rendering around it.
    have hrun : ∀ steps s, MeetsAll engine (belowAt engine fuel) (fun p s => watch fuel p s ∨
          p.Deeper engine fuel (BlockMeets engine watch fuel) (RenderMeets engine watch fuel) s)
          steps s →
        (runAll engine (belowAt engine fuel) steps).Raises bad s ∨
          MeetsAll engine (belowAt engine fuel) (fun p s =>
            p.Replaces engine (belowAt engine fuel) bad s ∨ p.Deeper engine fuel
              (BlockMeets engine (fun fuel p => p.Replaces engine (belowAt engine fuel) bad) fuel)
              (RenderMeets engine (fun fuel p => p.Replaces engine (belowAt engine fuel) bad) fuel) s)
            steps s := by
      intro steps s hmeets
      refine MeetsAll.rewatch (Primitives.refl engine (belowAt engine fuel))
        ⟨fun he => hbad _ he, ?_, ?_⟩ steps (fun _ _ => trivial) s rfl hmeets
      · rintro p s - - (h | h)
        · exact Or.inl (hwatch fuel p s h)
        · exact (Point.Deeper.rewatch ihdraws ihrenders p s h).imp_right Or.inr
      · exact fun _ _ h => Or.inl h
    constructor
    · rintro name depth w ⟨block, hblock, hmeets⟩
      rcases hrun _ _ hmeets with hraises | hmeets
      · obtain ⟨e, t, he, ht⟩ := raises_runFrame hraises
        exact Or.inl ⟨e, t, he, (drawBlock_of_get? hblock).trans ht⟩
      · exact Or.inr ⟨block, hblock, hmeets⟩
    · rintro w ⟨hfresh, hmeets | ⟨d, w', hw', hmeets⟩⟩
      · rcases hrun _ _ hmeets with hraises | hmeets
        · obtain ⟨e, t, he, ht⟩ := Action.Raises.bind (raises_runFrame hraises)
          exact Or.inl ⟨e, t, he, (renderSpace_of_fresh hfresh).trans ht⟩
        · exact Or.inr ⟨hfresh, Or.inl hmeets⟩
      · rcases ihrenders w' hmeets with hraises | hmeets
        · exact Or.inl (hw'.raises hraises)
        · exact Or.inr ⟨hfresh, Or.inr ⟨d, w', hw', hmeets⟩⟩

/-- **An error that no template handles gets through, but for `finally` clauses that do not come to
their end.**  If the body, the selected handler or the `else` clause of a `try` fails with it, the `try`
fails with it, behind the `finally` clause; a clause that leaves a loop, goes on with its next turn or
fails ends the `try` instead.  And if a rendering comes to anything that fails with the error, say to an
inclusion, the rendering fails with it, or it comes to such a `finally` clause. -/
theorem Error.gets_through {e : Error} (he : ∀ f, e ≠ .fault f) :
    (∀ (below : Below) body handlers otherwise s t,
      PendingError engine below body handlers otherwise s e t →
        (Step.attempt body handlers otherwise none).run engine below s = .failed e t ∧
        ∀ finally_, (Step.attempt body handlers otherwise (some finally_)).run engine below s =
          match runAll engine below finally_ t with
          | .done .normal u => .failed e u
          | replaced => replaced) ∧
      ∀ fuel (t : Template) vars f space, Space.ofTemplate t vars = .ok space →
        RenderMeets engine (fun fuel p => p.Raises engine (belowAt engine fuel) (· = e)) fuel
            ⟨space, f, 0⟩ →
          (∃ f', t.render engine fuel vars f = some (.error e, f')) ∨
            RenderMeets engine (fun fuel p => p.Replaces engine (belowAt engine fuel) (· = e)) fuel
              ⟨space, f, 0⟩ := by
  constructor
  · intro below body handlers otherwise s t hpending
    have htried := hpending.tried_eq he
    refine ⟨?_, fun finally_ => ?_⟩
    · rw [Step.run_attempt]
      exact Action.bind_of_done htried _
    · rw [Step.run_attempt]
      refine (Action.bind_of_done htried _).trans ?_
      rw [runOptional]
      cases hend : runAll engine below finally_ t with
      | done flow u =>
        refine (Action.bind_of_done hend _).trans ?_
        cases flow <;> rfl
      | failed e' u => exact Action.bind_of_failed hend _
      | exhausted => exact Action.bind_of_exhausted hend _
  · intro fuel t vars f space hspace hmeets
    have hbad : ∀ e', e' = e → ∀ fault, e' ≠ .fault fault := by
      rintro _ rfl
      exact he
    rcases (RenderMeets.raises hbad (fun _ _ _ h => h) fuel).2 _ hmeets with
      ⟨_, w, rfl, hw⟩ | hmeets
    · refine Or.inl ⟨w.finder, ?_⟩
      rw [Template.render_eq_seen hspace, hw, Outcome.seen]
    · exact Or.inr hmeets

end

/-! ## A `finally` clause that comes to its end, and one that does not -/

/-- A page that includes a template inside a `try` whose `finally` clause writes. -/
def guarded : Template where
  path := "page.html"
  source := "<% try %><% include \"x.html\" %><% finally %>f<% end %>"
  document :=
    { statements :=
        [.mk (.opening .tryBody) (some 1) ⟨0, 9⟩
            [.mk (.inclusion (.lit (.str "x.html"))) (some 1) ⟨9, 31⟩ []],
          .mk (.clause .finally_) (some 1) ⟨31, 44⟩ [.ofText ['f']]]
      blocks := [] }
  serial := 0

/-- The error of including a template where there is nothing to look it up in. -/
def noFinder : Error :=
  .render (.noFinder "x.html" "page.html" false)

/-- The space of the page. -/
def guardedSpace : Space :=
  Draft.toSpace ⟨guarded,
    ⟨[.attempt [.inclusion (.lit (.str "x.html"))] [] none (some [.text "f"])], []⟩, 0⟩ []

/-- The inclusion fails, the `finally` clause writes, and the page fails. -/
theorem gets_through_guarded : (∀ f, noFinder ≠ .fault f) ∧
    Space.ofTemplate guarded [] = .ok guardedSpace ∧
    RenderMeets ⟨.default, .absent⟩
      (fun fuel p => p.Raises ⟨.default, .absent⟩ (belowAt ⟨.default, .absent⟩ fuel) (· = noFinder)) 2
        ⟨guardedSpace, .empty, 0⟩ ∧
    (Step.attempt [.inclusion (.lit (.str "x.html"))] [] none (some [.text "f"])).run
        ⟨.default, .absent⟩ (belowAt ⟨.default, .absent⟩ 1)
        ⟨World.drawing ⟨guardedSpace, .empty, 0⟩, .ofBody⟩ =
      .failed noFinder ⟨World.drawing ⟨guardedSpace, .empty, 0⟩, { Frame.ofBody with buffer := "f" }⟩ ∧
    ((∃ f', guarded.render ⟨.default, .absent⟩ 2 [] .empty = some (.error noFinder, f')) ∨
      RenderMeets ⟨.default, .absent⟩ (fun fuel p => p.Replaces ⟨.default, .absent⟩
        (belowAt ⟨.default, .absent⟩ fuel) (· = noFinder)) 2 ⟨guardedSpace, .empty, 0⟩) := by
  have he : ∀ f, noFinder ≠ .fault f := fun _ => Error.noConfusion
  have hrun : runAll ⟨.default, .absent⟩ (belowAt ⟨.default, .absent⟩ 1)
      [.inclusion (.lit (.str "x.html"))] ⟨World.drawing ⟨guardedSpace, .empty, 0⟩, .ofBody⟩ =
        .failed noFinder ⟨World.drawing ⟨guardedSpace, .empty, 0⟩, .ofBody⟩ := by rfl
  have hinclusion : (Point.step (.inclusion (.lit (.str "x.html")))).Raises ⟨.default, .absent⟩
      (belowAt ⟨.default, .absent⟩ 1) (· = noFinder)
        ⟨World.drawing ⟨guardedSpace, .empty, 0⟩, .ofBody⟩ := ⟨noFinder, _, rfl, by rfl⟩
  have hmeets : RenderMeets ⟨.default, .absent⟩ (fun fuel p => p.Raises ⟨.default, .absent⟩
      (belowAt ⟨.default, .absent⟩ fuel) (· = noFinder)) 2 ⟨guardedSpace, .empty, 0⟩ :=
    ⟨rfl, Or.inl (Or.inr (Or.inl (Or.inl (Or.inl (Or.inl hinclusion)))))⟩
  obtain ⟨hattempts, hrenders⟩ := @Error.gets_through ⟨.default, .absent⟩ noFinder he
  have hattempt := (hattempts _ [_] [] none _ _ (.body hrun)).2 [.text "f"]
  refine ⟨he, rfl, hmeets, hattempt.trans ?_, ?_⟩
  · rfl
  · exact hrenders 2 guarded [] .empty guardedSpace rfl hmeets

/-- A page that leaves a loop in a `finally` clause, while the error of an inclusion is pending. -/
def leavingFinally : Dict ByteArray :=
  [("page.html", ("<% for x in [1] %><% try %><% include \"missing.html\" %><% finally %>" ++
      "<% break %><% end %><% end %>ok").toUTF8),
    ("plain.html", "<% include \"missing.html\" %>ok".toUTF8)]

/-- The template is missing, and a page that includes it fails; but not the page that leaves the loop. -/
theorem render_leavingFinally :
    ((Finder.render .default (.ofDict leavingFinally) 9 .empty "plain.html" []).map
        fun (r, _) => match r with
          | .error (.absent path why) => some (path, why)
          | _ => none) = some (some ("missing.html", .missing)) ∧
      textOf (Finder.render .default (.ofDict leavingFinally) 9 .empty "page.html" []) =
        some "ok" := by
  decide +kernel

end Inlay
