import Inlay.Proofs.Render.Overrides
import Inlay.Proofs.Render.Reached
import Inlay.Proofs.Render.Slots

/-!
# Going through the definitions of a block

A block has a chain of definitions, the most derived one in front.  A run of one of them knows its place in
the chain, and `parent_block` with the name of the block goes on with the definition at the next place.
The place stands in the frame of the run, and nothing that a run comes to changes it: neither blocks that
are drawn meanwhile, which have frames of their own, nor parents and included templates.

* `parentCall`: the call of `parent_block`, with `eval_parentCall_of_get?` and `eval_parentCall_of_none`.
* `ComesTo.inFrame`: wherever a run comes to, its place in the chain and the table of blocks are the same.
* `Layers`: definitions that write around the next one, with `Layers.draw_eq`.
* `parentBlock_goesThrough`: the definitions of a block are gone through one after the other.
-/

namespace Inlay

/-! ## The call -/

/-- The call of `parent_block` with the name of a block. -/
def parentCall (name : String) : Expr :=
  .call (.name Intrinsic.parentBlock.name) [.lit (.str name)]

/-- The call of `block` with the name of a block. -/
def blockCall (name : String) : Expr :=
  .call (.name Intrinsic.block.name) [.lit (.str name)]

/-- One definition of a block drawn, from a place in the chain. -/
def drawPlace (engine : Engine) (fuel : Nat) (name : String) (place : Nat) (b : BlockProgram) :
    Action World String :=
  runFrame (.ofBlock name place) (runAll engine (belowAt engine fuel) b.body)

/-- The text that is drawn, as a value. -/
def asValue (draw : Action World String) : Action World Value := do
  return .str (← draw)

section

variable {config : Config} {draw : DrawBlock} {frame : Frame} {w : World} {name : String}

/-- A call of one of the functions that need the space, with a text, unless a variable has its name. -/
theorem eval_call_intrinsic {i : Intrinsic} (hfree : lookup? config frame w.space i.name = none) :
    (Expr.call (.name i.name) [.lit (.str name)]).eval config draw frame w =
      i.call draw frame [.str name] w := by
  have hi : intrinsicOf? config frame w.space (.name i.name) = some i := by
    rw [intrinsicOf?, hfree]
    cases i <;> rfl
  have hread : (Action.read : Action World World) w = .done w w := rfl
  rw [Expr.eval]
  refine (Action.bind_of_done hread _).trans ?_
  rw [hi]
  rfl

/-- The call draws the definition behind the place of the run. -/
theorem eval_parentCall_of_get? {b : BlockProgram}
    (hfree : lookup? config frame w.space Intrinsic.parentBlock.name = none)
    (h : w.space.blocks.get? name (parentDepth frame name) = some b) :
    (parentCall name).eval config draw frame w =
      asValue (draw name (parentDepth frame name)) w := by
  rw [parentCall, eval_call_intrinsic hfree]
  show (if (w.space.blocks.get? name (parentDepth frame name)).isNone then
      Action.fail (.render (.noParentBlock name w.space.path)) >>= fun _ : Unit =>
        asValue (draw name (parentDepth frame name))
    else asValue (draw name (parentDepth frame name))) w = _
  rw [h]
  rfl

/-- The call fails if there is no such definition. -/
theorem eval_parentCall_of_none
    (hfree : lookup? config frame w.space Intrinsic.parentBlock.name = none)
    (h : w.space.blocks.get? name (parentDepth frame name) = none) :
    (parentCall name).eval config draw frame w =
      .failed (.render (.noParentBlock name w.space.path)) w := by
  rw [parentCall, eval_call_intrinsic hfree]
  show (if (w.space.blocks.get? name (parentDepth frame name)).isNone then
      Action.fail (.render (.noParentBlock name w.space.path)) >>= fun _ : Unit =>
        asValue (draw name (parentDepth frame name))
    else asValue (draw name (parentDepth frame name))) w = _
  rw [h]
  rfl

/-- `block` draws the most derived definition. -/
theorem eval_blockCall (hfree : lookup? config frame w.space Intrinsic.block.name = none) :
    (blockCall name).eval config draw frame w = asValue (draw name 0) w := by
  rw [blockCall, eval_call_intrinsic hfree]
  rfl

/-- Behind the place of the run, in the run of a definition of this block. -/
theorem parentDepth_of_same {place : Nat} (h : frame.block = some (name, place)) :
    parentDepth frame name = place + 1 := by
  rw [parentDepth, h]
  exact if_pos (beq_self_eq_true name)

/-- Behind the most derived definition, in the run of a body. -/
theorem parentDepth_of_body (h : frame.block = none) : parentDepth frame name = 1 := by
  rw [parentDepth, h]

end

/-! ## The place of a run -/

section

variable {engine : Engine} {fuel place : Nat} {name : String} {w : World} {chain : List BlockProgram}

/-- A place in the table is a place in the chain. -/
theorem BlockTable.get?_of_chain {t : BlockTable} (h : Dict.get? name t = some chain) (place : Nat) :
    t.get? name place = chain[place]? := by
  rw [BlockTable.get?, h]
  rfl

/-- Drawing a place draws the definition that stands there. -/
theorem drawBlock_eq_drawPlace {b : BlockProgram} (h : Dict.get? name w.space.blocks = some chain)
    (hb : chain[place]? = some b) :
    drawBlock engine (fuel + 1) name place w = drawPlace engine fuel name place b w :=
  drawBlock_of_get? ((BlockTable.get?_of_chain h place).trans hb)

/-- **Wherever a run comes to, its place in the chain and the table of blocks are the same.**  And so
is the table where the expressions there draw blocks. -/
theorem ComesTo.inFrame {steps : List Step} {s u : Scene} {p : Point}
    (h : ComesTo engine (belowAt engine fuel) steps s p u) :
    u.frame.block = s.frame.block ∧ u.world.space.blocks = s.world.space.blocks ∧
      ∀ e : Expr, ¬ e.Draws engine.config (drawBlock engine fuel) u.frame
        (fun _ _ t => t.space.blocks ≠ s.world.space.blocks) u.world := by
  have hstart : World.Keeps (.any engine) s.world.space s.world := World.Keeps.refl trivial
  have hdraw := (Upkeep.any engine).drawBlock fuel
  have hprimitives : Primitives engine engine (belowAt engine fuel) (belowAt engine fuel)
      (Scene.Lift ((Upkeep.any engine).Kept s.world.space) s.frame.block) Eq fun _ => True :=
    (Upkeep.any engine).primitives s.world.space hdraw ((Upkeep.any engine).renderSpace fuel)
      s.frame.block _
  obtain ⟨_, u, ⟨rfl, rfl⟩, hu, -⟩ := MeetsAll.exists_kept hprimitives (fun _ _ => trivial)
    (s := s) ⟨hstart.kept, rfl, rfl⟩ h
  refine ⟨hu.block, hu.world.keeps.blocks, fun e he => ?_⟩
  have hevaluation : Evaluation engine.config (drawBlock engine fuel) (drawBlock engine fuel) u.frame
      ((Upkeep.any engine).Kept s.world.space) Eq fun _ => True :=
    ((Upkeep.any engine).kindred s.world.space).evaluation fun i args _ =>
      (Upkeep.any engine).call hdraw u.frame i args
  obtain ⟨_, _, t, ht, hne⟩ := Expr.Draws.exists_kept hevaluation e u.world hu.world he
  exact hne ht.keeps.blocks

/-! ## Definitions around each other -/

/-- Steps behind others that come to their normal end. -/
theorem runAll_append_of_done {below : Below} {lead rest : List Step} {s t : Scene}
    (h : runAll engine below lead s = .done .normal t) :
    runAll engine below (lead ++ rest) s = runAll engine below rest t := by
  induction lead generalizing s with
  | nil =>
    rw [runAll] at h
    cases h
    rfl
  | cons st lead ih =>
    rw [runAll] at h
    rw [List.cons_append, runAll]
    cases hst : st.run engine below s with
    | done flow u =>
      have hend := (Action.bind_of_done hst _).symm.trans h
      refine (Action.bind_of_done hst _).trans ?_
      cases flow with
      | normal => exact ih hend
      | breakLoop => cases hend
      | continueLoop => cases hend
    | failed e u => cases (Action.bind_of_failed hst _).symm.trans h
    | exhausted => cases (Action.bind_of_exhausted hst _).symm.trans h

/-- In the run of a definition the steps write a text, whatever has been written before, and do nothing
else. -/
def WritesAt (engine : Engine) (w : World) (name : String) (place fuel : Nat) (steps : List Step)
    (text : String) : Prop :=
  ∀ buffer, runAll engine (belowAt engine fuel) steps
      ⟨w, { Frame.ofBlock name place with buffer := buffer }⟩ =
    .done .normal ⟨w, { Frame.ofBlock name place with buffer := buffer ++ text }⟩

theorem WritesAt.text (hstage : w.space.stage = .drawing) (text : String) :
    WritesAt engine w name place fuel [.text text] text := by
  intro buffer
  have hwrite : Scene.write text ⟨w, { Frame.ofBlock name place with buffer := buffer }⟩ =
      .done () ⟨w, { Frame.ofBlock name place with buffer := buffer ++ text }⟩ := if_pos hstage
  rw [runAll, Step.run, bind_assoc]
  exact (Action.bind_of_done hwrite _).trans (by rw [runAll]; rfl)

/-- Steps one after the other write their texts one after the other. -/
theorem WritesAt.append {lead rest : List Step} {front back : String}
    (hlead : WritesAt engine w name place fuel lead front)
    (hrest : WritesAt engine w name place fuel rest back) :
    WritesAt engine w name place fuel (lead ++ rest) (front ++ back) := by
  intro buffer
  rw [runAll_append_of_done (hlead buffer), hrest, String.append_assoc]

/-- **Definitions around each other**: each one but the last writes a text, calls `parent_block` once
without an escape, and writes another text; the last one writes a text. -/
inductive Layers (engine : Engine) (w : World) (name : String) :
    Nat → Nat → List BlockProgram → List (String × String) → String → Prop where
  | last {place fuel : Nat} {b : BlockProgram} {text : String}
      (h : WritesAt engine w name place fuel b.body text) :
      Layers engine w name place fuel [b] [] text
  | around {place fuel : Nat} {b : BlockProgram} {lead rest : List Step} {filter : Filter}
      {front back text : String} {behind : List BlockProgram} {texts : List (String × String)}
      (hbody : b.body = lead ++ .output filter (parentCall name) :: rest)
      (hfilter : filter.apply = Filter.raw)
      (hfront : WritesAt engine w name place (fuel + 1) lead front)
      (hback : WritesAt engine w name place (fuel + 1) rest back)
      (hbehind : Layers engine w name (place + 1) fuel behind texts text) :
      Layers engine w name place (fuel + 1) (b :: behind) ((front, back) :: texts) text

/-- The texts of the layers from outside to inside, the innermost text, and back. -/
def layered (texts : List (String × String)) (text : String) : String :=
  String.join (texts.map Prod.fst) ++ text ++ String.join (texts.map Prod.snd).reverse

theorem layered_cons (front back : String) (texts : List (String × String)) (text : String) :
    layered ((front, back) :: texts) text = front ++ layered texts text ++ back := by
  rw [layered, layered, List.map_cons, List.map_cons, String.join_cons, List.reverse_cons,
    String.join_append, String.join_cons, String.join_nil, String.append_empty]
  simp only [String.append_assoc]

/-- A definition that only writes draws what it writes. -/
theorem WritesAt.drawPlace_eq {b : BlockProgram} {text : String}
    (h : WritesAt engine w name place fuel b.body text) :
    drawPlace engine fuel name place b w = .done text w := by
  have hrun : runAll engine (belowAt engine fuel) b.body ⟨w, .ofBlock name place⟩ = _ := h ""
  rw [drawPlace, runFrame, hrun]
  rw [String.empty_append]

theorem evalIn_of_done {below : Below} {e : Expr} {s : Scene} {v : Value} {t : World}
    (h : e.eval engine.config below.draw s.frame s.world = .done v t) :
    evalIn engine below e s = .done v { s with world := t } := by
  rw [evalIn, Scene.inWorld, Action.focus, h]

/-- An output statement without an escape writes the text that is drawn. -/
theorem run_output_parentCall {b : BlockProgram} {filter : Filter} {text : String} {frame : Frame}
    (hframe : frame.block = some (name, place)) (hfilter : filter.apply = Filter.raw)
    (hstage : w.space.stage = .drawing)
    (hfree : lookup? engine.config frame w.space Intrinsic.parentBlock.name = none)
    (hb : w.space.blocks.get? name (place + 1) = some b)
    (hdraw : drawBlock engine fuel name (place + 1) w = .done text w) :
    (Step.output filter (parentCall name)).run engine (belowAt engine fuel) ⟨w, frame⟩ =
      .done .normal ⟨w, { frame with buffer := frame.buffer ++ text }⟩ := by
  have hdepth : parentDepth frame name = place + 1 := parentDepth_of_same hframe
  have heval : (parentCall name).eval engine.config (drawBlock engine fuel) frame w =
      .done (.str text) w := by
    refine (eval_parentCall_of_get? hfree (by rwa [hdepth])).trans ?_
    rw [hdepth]
    exact Action.bind_of_done hdraw _
  have hvalue : evalIn engine (belowAt engine fuel) (parentCall name) ⟨w, frame⟩ =
      .done (.str text) ⟨w, frame⟩ := evalIn_of_done heval
  have hshown : String.ofList (filter.apply (.str text)) = text := by
    rw [hfilter]
    exact String.ofList_toList
  have hwrite : Scene.write text ⟨w, frame⟩ =
      .done () ⟨w, { frame with buffer := frame.buffer ++ text }⟩ := if_pos hstage
  rw [Step.run]
  refine (Action.bind_of_done hvalue _).trans ?_
  rw [hshown]
  exact Action.bind_of_done hwrite _

/-- **Layers draw their texts around each other.** -/
theorem Layers.draw_eq {behind : List BlockProgram} {texts : List (String × String)} {text : String}
    (hlayers : Layers engine w name place fuel behind texts text)
    (hchain : Dict.get? name w.space.blocks = some chain) (hplace : chain.drop place = behind)
    (hstage : w.space.stage = .drawing)
    (hfree : lookup? engine.config .ofBody w.space Intrinsic.parentBlock.name = none) :
    drawBlock engine (fuel + 1) name place w = .done (layered texts text) w := by
  have hget {place : Nat} {b : BlockProgram} {behind : List BlockProgram}
      (h : chain.drop place = b :: behind) : chain[place]? = some b := by
    rw [← Nat.add_zero place, ← List.getElem?_drop, h]
    rfl
  induction hlayers with
  | @last place fuel b text h =>
    rw [drawBlock_eq_drawPlace hchain (hget hplace), h.drawPlace_eq, layered, List.map_nil,
      List.map_nil, List.reverse_nil, String.join_nil, String.empty_append, String.append_empty]
  | @around place fuel b lead rest filter front back text behind texts hbody hfilter hfront hback
      hbehind ih =>
    have hnext : chain.drop (place + 1) = behind := by
      rw [← List.drop_drop, hplace]
      rfl
    obtain ⟨b', more, rfl⟩ : ∃ b' more, behind = b' :: more := by
      cases hbehind <;> exact ⟨_, _, rfl⟩
    let frame : Frame := { Frame.ofBlock name place with buffer := "" ++ front }
    have hframe : frame.block = some (name, place) := rfl
    have hcall := run_output_parentCall hframe hfilter hstage hfree
      ((BlockTable.get?_of_chain hchain _).trans (hget hnext)) (ih hnext)
    have hlead : runAll engine (belowAt engine (fuel + 1)) lead ⟨w, .ofBlock name place⟩ =
        .done .normal ⟨w, frame⟩ := hfront ""
    have hnested : runAll engine (belowAt engine (fuel + 1))
          (.output filter (parentCall name) :: rest) ⟨w, frame⟩ =
        runAll engine (belowAt engine (fuel + 1)) rest
          ⟨w, { Frame.ofBlock name place with buffer := "" ++ front ++ layered texts text }⟩ := by
      rw [runAll]
      exact Action.bind_of_done hcall _
    have hrun := ((runAll_append_of_done hlead).trans hnested).trans (hback _)
    rw [drawBlock_eq_drawPlace hchain (hget hplace), drawPlace, runFrame, hbody, hrun]
    rw [String.empty_append, layered_cons]

/-! ## All of the chain -/

/-- **`parent_block` goes through the definitions of a block.**  Let the table of a world have a chain of
definitions for the block.  To draw a place of the chain is to run the definition there, and a block
statement, unless it leaves the block to the parent, and the function `block` draw the first place.
Wherever the run of the definition at a place comes to, whatever it has drawn by then, `parent_block`
with the name of the block draws the next place, and fails at the last one.  So if each definition but
the last writes a text, what `parent_block` draws, and another text, the block is all the texts around
that of the last definition. -/
theorem parentBlock_goesThrough (hchain : Dict.get? name w.space.blocks = some chain) :
    (∀ v : World, v.space.blocks = w.space.blocks → ∀ fuel,
      (∀ place b, chain[place]? = some b →
        drawBlock engine (fuel + 1) name place v = drawPlace engine fuel name place b v) ∧
      (∀ frame, (v.space.parent.any fun d => (BlockTable.ofProgram d.program).declares name) = false →
        drawSlot (belowAt engine fuel) name ⟨v, frame⟩ =
          (Scene.inWorld (fun _ => drawBlock engine fuel name 0) >>= Scene.write) ⟨v, frame⟩) ∧
      (∀ frame, lookup? engine.config frame v.space Intrinsic.block.name = none →
        (blockCall name).eval engine.config (drawBlock engine fuel) frame v =
          asValue (drawBlock engine fuel name 0) v) ∧
      ∀ place b, chain[place]? = some b → ∀ p u,
        ComesTo engine (belowAt engine fuel) b.body ⟨v, .ofBlock name place⟩ p u →
          u.world.space.blocks = w.space.blocks ∧
          (∀ e : Expr, ¬ e.Draws engine.config (drawBlock engine fuel) u.frame
            (fun _ _ t => t.space.blocks ≠ w.space.blocks) u.world) ∧
          ∀ x : World, x.space.blocks = w.space.blocks →
            lookup? engine.config u.frame x.space Intrinsic.parentBlock.name = none →
              (place + 1 < chain.length →
                (parentCall name).eval engine.config (drawBlock engine fuel) u.frame x =
                  asValue (drawBlock engine fuel name (place + 1)) x) ∧
              (place + 1 = chain.length →
                (parentCall name).eval engine.config (drawBlock engine fuel) u.frame x =
                  .failed (.render (.noParentBlock name x.space.path)) x)) ∧
    ∀ fuel texts text, Layers engine w name 0 fuel chain texts text → w.space.stage = .drawing →
      lookup? engine.config .ofBody w.space Intrinsic.parentBlock.name = none →
        drawBlock engine (fuel + 1) name 0 w = .done (layered texts text) w := by
  refine ⟨fun v hv fuel => ⟨fun place b hb => ?_, fun frame hparent => ?_, fun frame hfree => ?_,
    fun place b hb p u hu => ?_⟩, fun fuel texts text hlayers hstage hfree => ?_⟩
  · exact drawBlock_eq_drawPlace (hv ▸ hchain) hb
  · exact drawSlot_of_not_declares hparent
  · exact eval_blockCall hfree
  · obtain ⟨hblock, htable, hdraws⟩ := hu.inFrame
    have hdepth : parentDepth u.frame name = place + 1 := parentDepth_of_same hblock
    refine ⟨htable.trans hv, fun e he => hdraws e ?_, fun x hx hfree => ⟨fun hlt => ?_, fun hlast => ?_⟩⟩
    · rwa [hv]
    · have hnext : x.space.blocks.get? name (parentDepth u.frame name) = some chain[place + 1] := by
        rw [hdepth, hx, BlockTable.get?_of_chain hchain, List.getElem?_eq_getElem hlt]
      rw [eval_parentCall_of_get? hfree hnext, hdepth]
    · refine eval_parentCall_of_none hfree ?_
      rw [hdepth, hx, BlockTable.get?_of_chain hchain, List.getElem?_eq_none (by omega)]
  · exact hlayers.draw_eq hchain rfl hstage hfree

end

/-! ## Three definitions -/

/-- A definition that writes in front of the next one, draws another block, and writes behind. -/
def aroundNext (origin front back : String) (between : List Step) : BlockProgram :=
  ⟨"b", origin, .text front :: between ++ [.output ⟨"raw", Filter.raw⟩ (parentCall "b"), .text back]⟩

/-- Three definitions of a block; the one in the middle draws another block. -/
def threeDefinitions : List BlockProgram :=
  [aroundNext "page.html" "[" "]" [], aroundNext "layout.html" "(" ")" [.block "c"],
    ⟨"b", "base.html", [.text "base"]⟩]

/-- The base in the middle of being drawn. -/
def threefoldWorld : World where
  space :=
    { Draft.toSpace ⟨⟨"base.html", "", ⟨[], []⟩, 0⟩, ⟨[.block "b"], []⟩, 0⟩ [] with
      stage := .drawing
      blocks := [("b", threeDefinitions), ("c", [⟨"c", "layout.html", [.text "c"]⟩])] }
  finder := .empty
  made := 0

/-- The definitions stand around each other, and `parent_block` fails in the last one. -/
theorem goesThrough_threefold :
    Dict.get? "b" threefoldWorld.space.blocks = some threeDefinitions ∧
      drawBlock ⟨.default, .absent⟩ 4 "b" 0 threefoldWorld = .done "[(cbase)]" threefoldWorld ∧
      (parentCall "b").eval .default (drawBlock ⟨.default, .absent⟩ 1) (.ofBlock "b" 2) threefoldWorld =
        .failed (.render (.noParentBlock "b" "base.html")) threefoldWorld := by
  have hchain : Dict.get? "b" threefoldWorld.space.blocks = some threeDefinitions := by rfl
  obtain ⟨hplaces, hdraws⟩ := @parentBlock_goesThrough ⟨.default, .absent⟩ "b" threefoldWorld _ hchain
  have hwrites (place fuel : Nat) (text : String) :
      WritesAt ⟨.default, .absent⟩ threefoldWorld "b" place fuel [.text text] text :=
    .text rfl text
  have hother : WritesAt ⟨.default, .absent⟩ threefoldWorld "b" 1 2 [.block "c"] "c" := fun _ => rfl
  have hlayers : Layers ⟨.default, .absent⟩ threefoldWorld "b" 0 3 threeDefinitions
      [("[", "]"), ("(" ++ "c", ")")] "base" :=
    .around rfl rfl (hwrites 0 3 "[") (hwrites 0 3 "]")
      (.around rfl rfl ((hwrites 1 2 "(").append hother) (hwrites 1 2 ")") (.last (hwrites 2 1 "base")))
  refine ⟨hchain, (hdraws 3 _ _ hlayers rfl rfl).trans ?_, ?_⟩
  · rfl
  · obtain ⟨-, -, -, hruns⟩ := hplaces threefoldWorld rfl 1
    have hcomes : ComesTo ⟨.default, .absent⟩ (belowAt ⟨.default, .absent⟩ 1) [.text "base"]
        ⟨threefoldWorld, .ofBlock "b" 2⟩ (.step (.text "base")) ⟨threefoldWorld, .ofBlock "b" 2⟩ :=
      Or.inl ⟨rfl, rfl⟩
    obtain ⟨-, -, hcall⟩ := hruns 2 _ rfl _ _ hcomes
    exact (hcall threefoldWorld rfl rfl).2 rfl

/-! ## In a body -/

section

variable {engine : Engine} {T : Nat → Compiled engine.config} {start w : World} {i m fuel : Nat}
  {name : String}

/-- The second definition of a run is that of its second template. -/
theorem RunsFrom.getElem?_one_definitions (h : RunsFrom T name m i) (hlt : m < i) :
    (definitions T name m i)[1]? = (T (m + 1)).program.blocks.get? name := by
  obtain ⟨b, hb⟩ := Option.isSome_iff_exists.mp (h.declares m (Nat.le_refl _) h.le)
  obtain ⟨b', hb'⟩ := Option.isSome_iff_exists.mp (h.declares (m + 1) (Nat.le_succ m) hlt)
  have hlength : i + 1 - m = (i - m - 1) + 1 + 1 := by omega
  rw [definitions, hlength, List.range'_succ, List.range'_succ]
  simp only [List.filterMap_cons, hb, hb', List.getElem?_cons_succ, List.getElem?_cons_zero]

/-- A run of one template has one definition. -/
theorem RunsFrom.length_definitions_self (h : RunsFrom T name i i) :
    (definitions T name i i).length = 1 := by
  obtain ⟨b, hb⟩ := Option.isSome_iff_exists.mp (h.declares i (Nat.le_refl _) h.le)
  have hlength : i + 1 - i = 0 + 1 := by omega
  rw [definitions, hlength, List.range'_succ]
  simp only [List.filterMap_cons, hb, List.range'_zero, List.filterMap_nil, List.length_singleton]

/-- **What `parent_block` draws in the body of a template of a line**, before and behind `inherit`.
Let the block be declared without a gap from the `m`-th template to this one.  If that is another
template, then `parent_block` draws the definition of the template behind the `m`-th one, which is this
template or one derived from it.  And if it is this template, or if this one does not declare the block
at all, there is nothing to draw, whatever the parent declares. -/
theorem Ascent.parentBlock_inBody (h : Ascent engine T start i (fuel + 1) w) (name : String) :
    w.space.program = (T i).program ∧
      ∀ p u, w.BodyComesTo engine fuel p u →
        u.world.space.blocks = w.space.blocks ∧
        ∀ x : World, x.space.blocks = w.space.blocks →
          lookup? engine.config u.frame x.space Intrinsic.parentBlock.name = none →
            (∀ m b, RunsFrom T name m i → m < i → (T (m + 1)).program.blocks.get? name = some b →
              (parentCall name).eval engine.config (drawBlock engine fuel) u.frame x =
                asValue (drawBlock engine fuel name 1) x ∧
              ∀ bound, drawBlock engine (bound + 1) name 1 x = drawPlace engine bound name 1 b x) ∧
            ((∀ m, RunsFrom T name m i → m = i) →
              (parentCall name).eval engine.config (drawBlock engine fuel) u.frame x =
                .failed (.render (.noParentBlock name x.space.path)) x) := by
  obtain ⟨depth, hw⟩ := h.begins
  refine ⟨hw.program, fun p u hu => ⟨hu.blocks, fun x hx hfree => ?_⟩⟩
  have hdepth : parentDepth u.frame name = 1 := parentDepth_of_body (ComesTo.inFrame hu).1
  have htable : x.space.blocks = .ofLine (lineTo T i) := hx.trans hw.blocks
  refine ⟨fun m b hm hlt hb => ?_, fun hown => ?_⟩
  · have hsecond : x.space.blocks.get? name 1 = some b := by
      rw [htable, BlockTable.get?_of_chain hm.get?_ofLine, hm.getElem?_one_definitions hlt, hb]
    refine ⟨?_, fun bound => drawBlock_of_get? hsecond⟩
    rw [eval_parentCall_of_get? hfree (by rwa [hdepth]), hdepth]
  · refine eval_parentCall_of_none hfree ?_
    rw [hdepth, htable]
    by_cases hdeclares : (T i).Declares name
    · obtain ⟨m, hm⟩ := RunsFrom.exists_of_declares hdeclares
      obtain rfl := hown m hm
      rw [BlockTable.get?_of_chain hm.get?_ofLine, List.getElem?_eq_none]
      exact Nat.le_of_eq hm.length_definitions_self
    · have hnone : Dict.get? name (BlockTable.ofLine (lineTo T i)) = none := by
        rw [← Option.not_isSome_iff_eq_none]
        exact fun hsome => hdeclares (declares_ofLine.mp hsome)
      rw [BlockTable.get?, hnone]
      rfl

end

/-- A page and a layout that call `parent_block` in their bodies, a page of the layout, and a base that
shows the block and the body. -/
def bodyParents : Dict ByteArray :=
  [("base.html", "[<% block a %>base<% end %>|<%r= body() %>]".toUTF8),
    ("layout.html",
      ("<% inherit \"base.html\" %><% block a %>layout<% end %>" ++
        "<%r= parent_block(\"a\") %>").toUTF8),
    ("leaf.html", "<% inherit \"layout.html\" %><% block a %>leaf<% end %>".toUTF8),
    ("page.html", "<% inherit \"base.html\" %><%r= parent_block(\"a\") %>".toUTF8)]

/-- The engine that has these templates. -/
def bodyParentsEngine : Engine :=
  ⟨.default, .loader (.ofDict bodyParents)⟩

/-- The path of an inheritance that is followed by the output of `parent_block` alone. -/
def callingPath? (name : String) : List Step → Option (Expr × Filter)
  | [.inheritance path, .output filter (.call (.name f) [.lit (.str other)])] =>
    if f = Intrinsic.parentBlock.name ∧ other = name then some (path, filter) else none
  | _ => none

theorem eq_of_callingPath? {name : String} {steps : List Step} {path : Expr} {filter : Filter}
    (h : callingPath? name steps = some (path, filter)) :
    steps = [.inheritance path, .output filter (parentCall name)] := by
  unfold callingPath? at h
  split at h
  · split at h
    · rename_i hnames
      cases h
      rw [hnames.1, hnames.2]
      rfl
    · cases h
  · cases h

/-- The page has inherited the base, which declares the block, and `parent_block` fails. -/
theorem parentBlock_inBody_page : ∃ (T : Nat → Compiled bodyParentsEngine.config) (start : World)
    (u : Scene) (d : Draft), Ascent bodyParentsEngine T start 0 7 start ∧
      start.BodyComesTo bodyParentsEngine 6 (.expr (parentCall "a")) u ∧
      u.world.space.parent = some d ∧ (d.program.blocks.get? "a").isSome ∧
      (parentCall "a").eval bodyParentsEngine.config (drawBlock bodyParentsEngine 6) u.frame u.world =
        .failed (.render (.noParentBlock "a" "page.html")) u.world := by
  have hpage : ((Stock.ofSource? .default bodyParents "page.html").bind fun t =>
      t.compile.toOption.bind fun p => (callingPath? "a" p.body).bind fun (path, _) =>
        (doneNormal? (runAll bodyParentsEngine (belowAt bodyParentsEngine 6) [.inheritance path]
          ⟨World.drawing ⟨Draft.toSpace ⟨t, p, 0⟩ [], .empty, 0⟩, .ofBody⟩)).bind fun s =>
            s.world.space.parent.map fun d => (d.program.blocks.get? "a").isSome &&
              (p.blocks.get? "a").isNone && s.world.space.path == "page.html" &&
              (lookup? .default s.frame s.world.space Intrinsic.parentBlock.name).isNone) =
      some true := by
    decide +kernel
  obtain ⟨t, ht, hpage⟩ := Option.bind_eq_some_iff.mp hpage
  obtain ⟨p, hp, hpage⟩ := Option.bind_eq_some_iff.mp hpage
  obtain ⟨⟨path, filter⟩, hpath, hpage⟩ := Option.bind_eq_some_iff.mp hpage
  obtain ⟨s, hs, hpage⟩ := Option.bind_eq_some_iff.mp hpage
  obtain ⟨d, hd, hpage⟩ := Option.map_eq_some_iff.mp hpage
  simp only [Bool.and_eq_true, Option.isNone_iff_eq_none, beq_iff_eq] at hpage
  obtain ⟨⟨⟨hdeclares, hlacks⟩, hname⟩, hfree⟩ := hpage
  have hinherits := run_of_runAll_singleton (eq_of_doneNormal? hs)
  let stock : Stock bodyParentsEngine := .ofLoader .default (.ofDict bodyParents)
  let start : World := ⟨Draft.toSpace ⟨t, p, 0⟩ [], .empty, 0⟩
  let T : Nat → Compiled bodyParentsEngine.config := fun _ =>
    ⟨t, p, stock.parsed t (Stock.has_ofSource ht), eq_ok_of_toOption hp⟩
  have hleaf : Ascent bodyParentsEngine T start 0 7 start := .leaf rfl
  have hcomes : start.BodyComesTo bodyParentsEngine 6 (.expr (parentCall "a")) s := by
    have hbody : start.space.program.body = _ := eq_of_callingPath? hpath
    rw [World.BodyComesTo, ComesTo, hbody]
    exact Or.inr (Or.inr ⟨.normal, s, hinherits, rfl, Or.inr (Or.inl ⟨rfl, rfl⟩)⟩)
  obtain ⟨-, hbody⟩ := hleaf.parentBlock_inBody "a"
  obtain ⟨htable, hcall⟩ := hbody _ _ hcomes
  have hfails := (hcall s.world htable hfree).2 fun m hm => Nat.le_zero.mp hm.le
  rw [hname] at hfails
  exact ⟨T, start, s, d, hleaf, hcomes, hd, hdeclares, hfails⟩

/-- The page fails, and in the body of the layout stands the definition of the layout. -/
theorem render_bodyParents :
    ((Finder.render .default (.ofDict bodyParents) 9 .empty "page.html" []).map
        fun (r, _) => renderFault? r) = some (some (.noParentBlock "a" "page.html")) ∧
      textOf (Finder.render .default (.ofDict bodyParents) 9 .empty "leaf.html" []) =
        some "[leaf|layout]" := by
  decide +kernel

end Inlay
