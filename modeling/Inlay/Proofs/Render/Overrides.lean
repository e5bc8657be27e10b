import Inlay.Proofs.Render.Upkeep

/-!
# Overrides along a line of inheritance

A template that inherits another one is drawn first, and then the other one in its place.  Along such a
line the definitions of a block are collected, but only as long as every template declares the block: a
template without it cuts the line, and what stands behind the cut is forgotten.

* `RunsFrom`: the templates behind the head that declare a block, without a gap.
* `Ascent`: the worlds in which the templates of a line are rendered, one after the other.
* `Ascent.begins`: the table of blocks that each of them begins with; `Ascent.exists_child`: how the
  rendering of the first one ends.
* `World.InheritsFirst`: a body inherits a template before it does anything but write.
* `Ascent.resolves`: which definition a block statement draws, or that it leaves the block to the parent.
-/

namespace Inlay

open Inlay.Action (Agree Steady)

/-! ## Templates that declare a block -/

section

variable {config : Config} {T : Nat → Compiled config} {name : String} {m i : Nat}

/-- The `m`-th template is the first one from which on all up to the `i`-th one declare the block. -/
structure RunsFrom (T : Nat → Compiled config) (name : String) (m i : Nat) : Prop where
  le : m ≤ i
  declares : ∀ k, m ≤ k → k ≤ i → (T k).Declares name
  least : ∀ m', (∀ k, m' ≤ k → k ≤ i → (T k).Declares name) → m ≤ m'

/-- The definitions of the block in the templates from the `m`-th to the `i`-th one. -/
def definitions (T : Nat → Compiled config) (name : String) (m i : Nat) : List BlockProgram :=
  (List.range' m (i + 1 - m)).filterMap fun k => (T k).program.blocks.get? name

/-- The line of the templates up to the `i`-th one, its head. -/
def lineTo (T : Nat → Compiled config) : Nat → List Program
  | 0 => [(T 0).program]
  | i + 1 => (T (i + 1)).program :: lineTo T i

theorem RunsFrom.exists_of_declares (h : (T i).Declares name) : ∃ m, RunsFrom T name m i := by
  induction i with
  | zero =>
    refine ⟨0, Nat.le_refl 0, fun k _ hk => ?_, fun m' _ => Nat.zero_le m'⟩
    obtain rfl := Nat.le_zero.mp hk
    exact h
  | succ i ih =>
    by_cases hbelow : (T i).Declares name
    · obtain ⟨m, hm⟩ := ih hbelow
      refine ⟨m, Nat.le_trans hm.le (Nat.le_succ i), fun k hmk hk => ?_, fun m' hm' => ?_⟩
      · rcases Nat.le_succ_iff.mp hk with hk | rfl
        · exact hm.declares k hmk hk
        · exact h
      · exact hm.least m' fun k hk hki => hm' k hk (Nat.le_trans hki (Nat.le_succ i))
    · refine ⟨i + 1, Nat.le_refl _, fun k hk hki => ?_, fun m' hm' => ?_⟩
      · obtain rfl := Nat.le_antisymm hki hk
        exact h
      · rcases Nat.lt_or_ge m' (i + 1) with hlt | hge
        · exact absurd (hm' i (Nat.le_of_lt_succ hlt) (Nat.le_succ i)) hbelow
        · exact hge

theorem definitions_succ {b : BlockProgram} (hm : m ≤ i + 1)
    (hb : (T (i + 1)).program.blocks.get? name = some b) :
    definitions T name m (i + 1) = definitions T name m i ++ [b] := by
  have hlength : i + 1 + 1 - m = (i + 1 - m) + 1 := by omega
  have hlast : m + 1 * (i + 1 - m) = i + 1 := by omega
  rw [definitions, hlength, List.range'_concat, List.filterMap_append, hlast]
  simp only [List.filterMap_cons, List.filterMap_nil, hb]
  rfl

/-- The first definition of a run is that of its first template. -/
theorem RunsFrom.head?_definitions (h : RunsFrom T name m i) :
    (definitions T name m i).head? = (T m).program.blocks.get? name := by
  obtain ⟨b, hb⟩ := Option.isSome_iff_exists.mp (h.declares m (Nat.le_refl _) h.le)
  have hlength : i + 1 - m = (i - m) + 1 := by
    have hle := h.le
    omega
  rw [definitions, hlength, List.range'_succ]
  simp only [List.filterMap_cons, hb, List.head?_cons]

/-- **The table of a line has the definitions of a block without a gap behind the head.** -/
theorem RunsFrom.get?_ofLine (h : RunsFrom T name m i) :
    Dict.get? name (BlockTable.ofLine (lineTo T i)) = some (definitions T name m i) := by
  induction i generalizing m with
  | zero =>
    obtain rfl := Nat.le_zero.mp h.le
    obtain ⟨b, hb⟩ := Option.isSome_iff_exists.mp (h.declares 0 (Nat.le_refl _) (Nat.le_refl _))
    have hself : definitions T name 0 0 = [b] := by
      have hrange : List.range' 0 (0 + 1 - 0) = [0] := rfl
      rw [definitions, hrange]
      simp only [List.filterMap_cons, List.filterMap_nil, hb]
    rw [lineTo, BlockTable.chain_ofLine_cons, hb, hself]
    rfl
  | succ i ih =>
    obtain ⟨b, hb⟩ := Option.isSome_iff_exists.mp (h.declares (i + 1) h.le (Nat.le_refl _))
    have hchild : (Dict.get? name (BlockTable.ofLine (lineTo T i))).getD [] =
        definitions T name m i := by
      rcases Nat.le_succ_iff.mp h.le with hm | rfl
      · have hbelow : RunsFrom T name m i := by
          refine ⟨hm, fun k hmk hk => h.declares k hmk (Nat.le_trans hk (Nat.le_succ i)),
            fun m' hm' => ?_⟩
          refine h.least m' fun k hk hki => ?_
          rcases Nat.le_succ_iff.mp hki with hki | rfl
          · exact hm' k hk hki
          · exact h.declares (i + 1) h.le (Nat.le_refl _)
        rw [ih hbelow, Option.getD_some]
      · -- The template below does not declare the block, or the run would begin there.
        have hnone : (T i).program.blocks.get? name = none := by
          rw [← Option.not_isSome_iff_eq_none]
          intro hsome
          have hle := h.least i fun k hk hki => by
            rcases Nat.le_succ_iff.mp hki with hki | rfl
            · obtain rfl := Nat.le_antisymm hki hk
              exact hsome
            · exact h.declares (i + 1) (Nat.le_refl _) (Nat.le_refl _)
          omega
        have hempty : definitions T name (i + 1) i = [] := by
          rw [definitions, Nat.sub_self]
          rfl
        rw [hempty]
        cases i with
        | zero => rw [lineTo, BlockTable.chain_ofLine_cons, hnone]; rfl
        | succ i => rw [lineTo, BlockTable.chain_ofLine_cons, hnone]; rfl
    rw [lineTo, BlockTable.chain_ofLine_cons, hb, hchild, definitions_succ h.le hb]
    rfl

theorem declares_ofLine : (BlockTable.ofLine (lineTo T i)).declares name = true ↔
    (T i).Declares name := by
  have hhead : ∀ p children, (Dict.get? name (BlockTable.ofLine (p :: children))).isSome =
      (p.blocks.get? name).isSome := by
    intro p children
    rw [BlockTable.chain_ofLine_cons, Option.isSome_map]
  cases i with
  | zero => rw [BlockTable.declares, Dict.contains, lineTo, hhead, Compiled.Declares]
  | succ i => rw [BlockTable.declares, Dict.contains, lineTo, hhead, Compiled.Declares]

theorem declares_ofProgram {p : Program} :
    (BlockTable.ofProgram p).declares name = (p.blocks.get? name).isSome := by
  rw [BlockTable.declares, Dict.contains, BlockTable.ofProgram, Dict.get?_mapEntries,
    Option.isSome_map]

end

/-! ## The templates of a line, one after the other -/

/-- Nothing is known of the templates that are found. -/
def Upkeep.any (engine : Engine) : Upkeep engine where
  finder _ := True
  draft _ := True
  find := by
    intros
    trivial
  found := by
    intros
    trivial

/-- **The `i`-th template of a line is about to be rendered in the world**: the first one on its own,
each other one as the parent that the rendering of the one before goes on with. -/
inductive Ascent (engine : Engine) (T : Nat → Compiled engine.config) (start : World) :
    Nat → Nat → World → Prop where
  | leaf {fuel depth : Nat} {vars : Vars}
      (h : start.space = Draft.toSpace ⟨(T 0).template, (T 0).program, depth⟩ vars) :
      Ascent engine T start 0 fuel start
  | parent {i fuel : Nat} {w w' : World} {d : Draft} (h : Ascent engine T start i (fuel + 1) w)
      (hgo : HandsOn engine fuel w d w') (htemplate : d.template = (T (i + 1)).template)
      (hprogram : d.program = (T (i + 1)).program) : Ascent engine T start (i + 1) fuel w'

/-- A run of steps comes to a point in a scene. -/
def ComesTo (engine : Engine) (below : Below) (steps : List Step) (s : Scene) (p : Point)
    (u : Scene) : Prop :=
  MeetsAll engine below (fun p' u' => p' = p ∧ u' = u) steps s

/-- The step only writes, or does nothing. -/
def Step.IsPlain : Step → Prop
  | .text _ | .comment _ => True
  | _ => False

/-- The body of the template that is rendered in the world comes to a point in a scene. -/
def World.BodyComesTo (engine : Engine) (fuel : Nat) (w : World) (p : Point) (u : Scene) : Prop :=
  ComesTo engine (belowAt engine fuel) w.space.program.body ⟨w.drawing, .ofBody⟩ p u

/-- **The first thing that the body of the template does, but for plain text, is to inherit `c`.** -/
def World.InheritsFirst (engine : Engine) (fuel : Nat) (w : World) (c : Compiled engine.config) :
    Prop :=
  ∃ lead path rest t d, w.space.program.body = lead ++ .inheritance path :: rest ∧
    (∀ st ∈ lead, st.IsPlain) ∧
      runAll engine (belowAt engine fuel) (lead ++ [.inheritance path]) ⟨w.drawing, .ofBody⟩ =
        .done .normal t ∧
        t.world.space.parent = some d ∧ d.template = c.template ∧ d.program = c.program

/-- Draws one definition of a block in the place of a block statement. -/
def drawDefinition (engine : Engine) (fuel : Nat) (name : String) (b : BlockProgram) :
    Action Scene Flow := do
  let text ← Scene.inWorld fun _ =>
    runFrame (.ofBlock name 0) (runAll engine (belowAt engine fuel) b.body)
  Scene.write text
  return .normal

section

variable {engine : Engine} {T : Nat → Compiled engine.config} {start w : World} {i fuel : Nat}

theorem Ascent.begins (h : Ascent engine T start i fuel w) : ∃ depth,
    w.Begins (.any engine) (T i).program (.ofLine (lineTo T i)) depth := by
  induction h with
  | @leaf fuel depth vars hstart =>
    refine ⟨depth, ?_⟩
    rw [lineTo, BlockTable.ofLine_singleton]
    exact Draft.begins hstart trivial
  | @parent i fuel w w' d _ hgo _ hprogram ih =>
    obtain ⟨depth, hw⟩ := ih
    refine ⟨depth + 1, ?_⟩
    have hnext := (hgo.begins hw).1
    rwa [hprogram] at hnext

/-- The rendering of the first template ends as that of each other one does, with the space of the first
template behind it. -/
theorem Ascent.exists_child (h : Ascent engine T start i fuel w) :
    (i = 0 ∧ w = start) ∨ ∃ child : Space, child.stage = .inheriting ∧
      renderSpace engine (fuel + i) start = (renderSpace engine fuel w).forChild child := by
  induction h with
  | leaf => exact .inl ⟨rfl, rfl⟩
  | @parent i fuel w w' d _ hgo _ _ ih =>
    obtain ⟨inner, hinner, hnext⟩ := hgo.exists_child
    right
    have hfuel : fuel + (i + 1) = fuel + 1 + i := by omega
    rcases ih with ⟨rfl, rfl⟩ | ⟨child, hchild, hend⟩
    · exact ⟨inner, hinner, hnext⟩
    · refine ⟨child, hchild, ?_⟩
      rw [hfuel, hend, hnext, Outcome.forChild_forChild]

/-- So both come to the same. -/
theorem Ascent.seen_eq (h : Ascent engine T start i fuel w) :
    (renderSpace engine (fuel + i) start).seen = (renderSpace engine fuel w).seen := by
  rcases h.exists_child with ⟨rfl, rfl⟩ | ⟨child, -, hend⟩
  · rfl
  · rw [hend, Outcome.seen_forChild]

/-- What steps come to behind others that are not watched for. -/
theorem MeetsAll.of_append {below : Below} {watch : Point → Scene → Prop} {lead rest : List Step}
    (hlead : ∀ st ∈ lead, ∀ u, ¬ watch (.step st) u ∧ ¬ st.MeetsWithin engine below watch u)
    {s t : Scene} (hrun : runAll engine below lead s = .done .normal t)
    (h : MeetsAll engine below watch (lead ++ rest) s) : MeetsAll engine below watch rest t := by
  induction lead generalizing s with
  | nil =>
    rw [runAll] at hrun
    cases hrun
    exact h
  | cons st lead ih =>
    obtain ⟨hst, hlead⟩ := List.forall_mem_cons.mp hlead
    rcases h with h | h | ⟨_, u, hu, rfl, h⟩
    · exact absurd h (hst s).1
    · exact absurd h (hst s).2
    · rw [runAll] at hrun
      exact ih hlead ((Action.bind_of_done hu _).symm.trans hrun) h

/-- What is not plain and no inheritance is come to behind the inheritance. -/
theorem ComesTo.of_lead {below : Below} {lead rest : List Step} {path : Expr} {s t u : Scene}
    {name : String} (hlead : ∀ st ∈ lead, st.IsPlain)
    (hrun : runAll engine below (lead ++ [.inheritance path]) s = .done .normal t)
    (h : ComesTo engine below (lead ++ .inheritance path :: rest) s (.step (.block name)) u) :
    ComesTo engine below rest t (.step (.block name)) u := by
  have hsplit : lead ++ .inheritance path :: rest = (lead ++ [.inheritance path]) ++ rest := by simp
  rw [hsplit] at h
  refine MeetsAll.of_append (fun st hst v => ?_) hrun h
  rcases List.mem_append.mp hst with hst | hst
  · have hplain := hlead st hst
    cases st with
    | text s => exact ⟨fun h => Step.noConfusion (Point.step.inj h.1), id⟩
    | comment line => exact ⟨fun h => Step.noConfusion (Point.step.inj h.1), id⟩
    | _ => exact hplain.elim
  · obtain rfl := List.mem_singleton.mp hst
    exact ⟨fun h => Step.noConfusion (Point.step.inj h.1), fun h => Point.noConfusion h.1⟩

/-- Wherever the run of a body comes to, the space is as it was at its beginning. -/
theorem ComesTo.keeps {σ : Space} {P : StatementKind → Prop} {steps : List Step}
    (hsteps : Marked P (Step.outlineAll steps)) {s u : Scene} {p : Point}
    (hs : s.world.Keeps (.any engine) σ) (hblock : s.frame.block = none)
    (h : ComesTo engine (belowAt engine fuel) steps s p u) :
    u.world.Keeps (.any engine) σ ∧ p.Fits P := by
  have hprimitives : Primitives engine engine (belowAt engine fuel) (belowAt engine fuel)
      (Scene.Lift ((Upkeep.any engine).Kept σ) none) Eq P :=
    (Upkeep.any engine).primitives σ ((Upkeep.any engine).drawBlock fuel)
      ((Upkeep.any engine).renderSpace fuel) none P
  obtain ⟨p', u', ⟨rfl, rfl⟩, hu, hp⟩ :=
    MeetsAll.exists_kept hprimitives hsteps (s := s) ⟨hs.kept, rfl, hblock⟩ h
  exact ⟨hu.world.keeps, hp⟩

/-- A block statement of the parent is left to it. -/
theorem run_block_of_declares {below : Below} {u : Scene} {d : Draft} {name : String}
    (hparent : u.world.space.parent = some d) (hd : (d.program.blocks.get? name).isSome) :
    (Step.block name).run engine below u = .done .normal u := by
  have hslot : drawSlot below name u = .done () u :=
    drawSlot_of_declares (by rw [hparent, Option.any_some, declares_ofProgram, hd])
  rw [Step.run]
  exact Action.bind_of_done hslot _

/-- A block statement that is not of the parent draws the first definition. -/
theorem run_block_of_get? {u : Scene} {name : String} {b : BlockProgram}
    (hparent : ∀ d, u.world.space.parent = some d → d.program.blocks.get? name = none)
    (hb : u.world.space.blocks.get? name 0 = some b) :
    (Step.block name).run engine (belowAt engine (fuel + 1)) u =
      drawDefinition engine fuel name b u := by
  have hnone : (u.world.space.parent.any fun d =>
      (BlockTable.ofProgram d.program).declares name) = false := by
    cases hd : u.world.space.parent with
    | none => rfl
    | some d => rw [Option.any_some, declares_ofProgram, hparent d hd]; rfl
  have hdraw : Scene.inWorld (fun _ => drawBlock engine (fuel + 1) name 0) u =
      Scene.inWorld (fun _ => runFrame (.ofBlock name 0) (runAll engine (belowAt engine fuel) b.body))
        u := by
    rw [Scene.inWorld, Scene.inWorld, Action.focus, Action.focus, drawBlock_of_get? hb]
  have hslot : drawSlot (belowAt engine (fuel + 1)) name u =
      (Scene.inWorld (fun _ => runFrame (.ofBlock name 0) (runAll engine (belowAt engine fuel) b.body))
        >>= Scene.write) u := (drawSlot_of_not_declares hnone).trans (Action.bind_congr hdraw _)
  rw [Step.run, drawDefinition, ← bind_assoc]
  exact Action.bind_congr hslot _

/-- What a body comes to, it comes to with the table of blocks that it began with. -/
theorem World.BodyComesTo.blocks {p : Point} {u : Scene} (h : w.BodyComesTo engine fuel p u) :
    u.world.space.blocks = w.space.blocks := by
  have hstart : World.Keeps (.any engine) w.drawing.space w.drawing := World.Keeps.refl trivial
  have hkeeps : u.world.Keeps (.any engine) w.drawing.space :=
    (ComesTo.keeps (P := fun _ => True) (fun _ _ => trivial) hstart rfl h).1
  exact hkeeps.blocks

/-- The block statements that a body comes to are statements of the body. -/
theorem World.BodyComesTo.mem_outline {name : String} {u : Scene}
    (h : w.BodyComesTo engine fuel (.step (.block name)) u) :
    .start (.block name) ∈ Step.outlineAll w.space.program.body := by
  have hstart : World.Keeps (.any engine) w.drawing.space w.drawing := World.Keeps.refl trivial
  have hfits := (ComesTo.keeps (P := fun kind => .start kind ∈ Step.outlineAll w.space.program.body)
    (fun _ hkind => hkind) hstart rfl h).2
  exact hfits _ (List.mem_cons_self ..)

/-- Behind an inheritance that comes first, the parent stands. -/
theorem World.BodyComesTo.parent {c : Compiled engine.config} {name : String} {u : Scene}
    (h : w.BodyComesTo engine fuel (.step (.block name)) u) (hc : w.InheritsFirst engine fuel c) :
    ∃ d, u.world.space.parent = some d ∧ d.program = c.program := by
  obtain ⟨lead, path, rest, t, d, hbody, hlead, hrun, hd, -, hprogram⟩ := hc
  rw [World.BodyComesTo, hbody] at h
  have hrest := ComesTo.of_lead hlead hrun h
  have ht : t.world.Keeps (.any engine) t.world.space := World.Keeps.refl trivial
  have hframe : t.frame.block = none := by
    have hstart : World.Keeps (.any engine) w.drawing.space w.drawing := World.Keeps.refl trivial
    have hprimitives : Primitives engine engine (belowAt engine fuel) (belowAt engine fuel)
        (Scene.Lift ((Upkeep.any engine).Kept w.drawing.space) none) Eq fun _ => True :=
      (Upkeep.any engine).primitives w.drawing.space ((Upkeep.any engine).drawBlock fuel)
        ((Upkeep.any engine).renderSpace fuel) none _
    have hsteady := hprimitives.runAll (lead ++ [.inheritance path]) fun _ _ => trivial
    exact (hsteady.done (s := ⟨w.drawing, .ofBody⟩) ⟨hstart.kept, rfl, rfl⟩ hrun).block
  have hkeeps := (ComesTo.keeps (P := fun _ => True) (fun _ _ => trivial) ht hframe hrest).1
  exact ⟨d, hkeeps.pinned d hd, hprogram⟩

/-- **Which definition of a block a template of a line draws.**  The table of the `i`-th template has an
entry exactly for the blocks that it declares: the definitions in the templates that declare the block
without a gap up to this one, the first of them in front.  A block statement in its body leaves the
block to the parent if this declares it too, and else draws the first definition of the run.  The
rendering of the first template comes to what that of the `i`-th one comes to, and ends with it. -/
theorem Ascent.resolves (h : Ascent engine T start i (fuel + 2) w) (name : String) :
    (renderSpace engine (fuel + 2 + i) start).seen = (renderSpace engine (fuel + 2) w).seen ∧
      ((i = 0 ∧ w = start) ∨ ∃ child : Space, child.stage = .inheriting ∧
        renderSpace engine (fuel + 2 + i) start = (renderSpace engine (fuel + 2) w).forChild child) ∧
      w.space.program = (T i).program ∧
      (w.space.blocks.declares name = true ↔ (T i).Declares name) ∧
      (∀ m, RunsFrom T name m i →
        Dict.get? name w.space.blocks = some (definitions T name m i)) ∧
      (∀ p u, w.BodyComesTo engine (fuel + 1) p u → u.world.space.blocks = w.space.blocks) ∧
      ∀ u, w.BodyComesTo engine (fuel + 1) (.step (.block name)) u →
        ∃ m b, RunsFrom T name m i ∧ (T m).program.blocks.get? name = some b ∧
          (w.InheritsFirst engine (fuel + 1) (T (i + 1)) → (T (i + 1)).Declares name →
            (Step.block name).run engine (belowAt engine (fuel + 1)) u = .done .normal u) ∧
          (w.InheritsFirst engine (fuel + 1) (T (i + 1)) → ¬ (T (i + 1)).Declares name →
            (Step.block name).run engine (belowAt engine (fuel + 1)) u =
              drawDefinition engine fuel name b u) ∧
          ((∀ p v, w.BodyComesTo engine (fuel + 1) p v → v.world.space.parent = none) →
            (Step.block name).run engine (belowAt engine (fuel + 1)) u =
              drawDefinition engine fuel name b u) := by
  obtain ⟨depth, hw⟩ := h.begins
  refine ⟨h.seen_eq, h.exists_child, hw.program, ?_, ?_, fun p u hu => hu.blocks, fun u hu => ?_⟩
  · rw [hw.blocks]
    exact declares_ofLine
  · intro m hm
    rw [hw.blocks]
    exact hm.get?_ofLine
  · have hdeclares : (T i).Declares name := by
      have hmem := hu.mem_outline
      rw [hw.program] at hmem
      obtain ⟨b, hb⟩ := (T i).get?_blocks_of_body hmem
      rw [Compiled.Declares, hb]
      rfl
    obtain ⟨m, hm⟩ := RunsFrom.exists_of_declares hdeclares
    obtain ⟨b, hb⟩ := Option.isSome_iff_exists.mp (hm.declares m (Nat.le_refl _) hm.le)
    have hfirst : u.world.space.blocks.get? name 0 = some b := by
      rw [hu.blocks, hw.blocks, BlockTable.get?, hm.get?_ofLine, ← hb, ← hm.head?_definitions,
        List.head?_eq_getElem?]
      rfl
    refine ⟨m, b, hm, hb, fun hinherits hsome => ?_, fun hinherits hnot => ?_, fun hroot => ?_⟩
    · obtain ⟨d, hd, hprogram⟩ := hu.parent hinherits
      rw [Compiled.Declares, ← hprogram] at hsome
      exact run_block_of_declares hd hsome
    · obtain ⟨d, hd, hprogram⟩ := hu.parent hinherits
      refine run_block_of_get? (fun d' hd' => ?_) hfirst
      obtain rfl := Option.some.inj (hd.symm.trans hd')
      rwa [Compiled.Declares, ← hprogram, Option.not_isSome_iff_eq_none] at hnot
    · refine run_block_of_get? (fun d' hd' => ?_) hfirst
      exact absurd ((hroot _ u hu).symm.trans hd') (Option.some_ne_none d').symm

end

/-! ## A page and its base -/

section

variable {engine : Engine} {fuel : Nat} {w : World} {s t : Scene} {below : Below}

/-- A step on its own runs as it does among others. -/
theorem run_of_runAll_singleton {st : Step}
    (h : runAll engine below [st] s = .done .normal t) : st.run engine below s = .done .normal t := by
  cases hst : st.run engine below s with
  | done flow u =>
    rw [runAll] at h
    have h := (Action.bind_of_done hst _).symm.trans h
    cases flow with
    | normal => exact h
    | breakLoop => cases h
    | continueLoop => cases h
  | failed e u =>
    rw [runAll] at h
    cases (Action.bind_of_failed hst _).symm.trans h
  | exhausted =>
    rw [runAll] at h
    cases (Action.bind_of_exhausted hst _).symm.trans h

/-- A body that inherits a template and has a block of it goes on with this template. -/
theorem HandsOn.of_heir {path : Expr} {name : String} {d : Draft} (hfresh : w.space.stage = .fresh)
    (hbody : w.space.program.body = [.inheritance path, .block name])
    (hrun : runAll engine (belowAt engine fuel) [.inheritance path] ⟨w.drawing, .ofBody⟩ =
      .done .normal t)
    (hstage : t.world.space.stage = .drawing) (hd : t.world.space.parent = some d)
    (hdeclares : (d.program.blocks.get? name).isSome) :
    HandsOn engine fuel w d
        { t.world with space := d.ofChild { t.world.space with output := t.frame.buffer } } ∧
      w.BodyComesTo engine fuel (.step (.block name)) t := by
  have hinherits := run_of_runAll_singleton hrun
  have hblock : (Step.block name).run engine (belowAt engine fuel) t = .done .normal t :=
    run_block_of_declares hd hdeclares
  constructor
  · have hall : runAll engine (belowAt engine fuel) w.space.program.body ⟨w.drawing, .ofBody⟩ =
        .done .normal t := by
      rw [hbody, runAll, runAll, runAll]
      exact (Action.bind_of_done hinherits _).trans (Action.bind_of_done hblock _)
    have hframe : runFrame .ofBody (runAll engine (belowAt engine fuel) w.space.program.body)
        w.drawing = .done t.frame.buffer t.world := by
      rw [runFrame, hall]
    exact ⟨hfresh, _, _, hframe, hstage, hd, rfl⟩
  · rw [World.BodyComesTo, ComesTo, hbody]
    exact Or.inr (Or.inr ⟨.normal, t, hinherits, rfl, Or.inl ⟨rfl, rfl⟩⟩)

end

/-- A page that overrides the only block of its base. -/
def pageWithBase : Dict ByteArray :=
  [("base.html", "<% block a %>A<% end %>".toUTF8),
    ("page.html", "<% inherit \"base.html\" %><% block a %>P<% end %>".toUTF8)]

/-- The path of an inheritance that is followed by a statement of the block alone. -/
def heirPath? (name : String) : List Step → Option Expr
  | [.inheritance path, .block other] => if other = name then some path else none
  | _ => none

theorem eq_of_heirPath? {name : String} {steps : List Step} {path : Expr}
    (h : heirPath? name steps = some path) : steps = [.inheritance path, .block name] := by
  unfold heirPath? at h
  split at h
  · split at h
    · rename_i hname
      rw [Option.some.inj h, hname]
    · cases h
  · cases h

/-- Are the steps a statement of the block alone? -/
def isLoneSlot (name : String) : List Step → Bool
  | [.block other] => other == name
  | _ => false

theorem eq_of_isLoneSlot {name : String} {steps : List Step} (h : isLoneSlot name steps = true) :
    steps = [.block name] := by
  unfold isLoneSlot at h
  split at h
  · rw [eq_of_beq h]
  · cases h

/-- The scene behind steps that come to their normal end. -/
def doneNormal? : Outcome Scene Flow → Option Scene
  | .done .normal s => some s
  | _ => none

theorem eq_of_doneNormal? {o : Outcome Scene Flow} {s : Scene} (h : doneNormal? o = some s) :
    o = .done .normal s := by
  unfold doneNormal? at h
  split at h
  · rw [Option.some.inj h]
  · cases h

/-- The engine that has the page and its base. -/
def pageEngine : Engine :=
  ⟨.default, .loader (.ofDict pageWithBase)⟩

/-- The page leaves its block to the base, and the base draws the definition of the page. -/
theorem resolves_pageWithBase : ∃ (T : Nat → Compiled pageEngine.config) (start w : World)
    (b : BlockProgram), Ascent pageEngine T start 0 7 start ∧ Ascent pageEngine T start 1 6 w ∧
      (T 0).program.blocks.get? "a" = some b ∧ RunsFrom T "a" 0 1 ∧
      Dict.get? "a" w.space.blocks = some (definitions T "a" 0 1) ∧
      (∃ u, start.BodyComesTo pageEngine 6 (.step (.block "a")) u ∧
        (Step.block "a").run pageEngine (belowAt pageEngine 6) u = .done .normal u) ∧
      ∃ u, w.BodyComesTo pageEngine 5 (.step (.block "a")) u ∧
        (Step.block "a").run pageEngine (belowAt pageEngine 5) u =
          drawDefinition pageEngine 4 "a" b u := by
  have hpage : ((Stock.ofSource? .default pageWithBase "page.html").bind fun t =>
      t.compile.toOption.bind fun p => (heirPath? "a" p.body).bind fun path =>
        (p.blocks.get? "a").bind fun _ =>
          (doneNormal? (runAll pageEngine (belowAt pageEngine 6) [.inheritance path]
            ⟨World.drawing ⟨Draft.toSpace ⟨t, p, 0⟩ [], .empty, 0⟩, .ofBody⟩)).bind fun s =>
              s.world.space.parent.map fun d => s.world.space.stage == .drawing &&
                (d.program.blocks.get? "a").isSome && isLoneSlot "a" d.program.body) =
      some true := by
    decide +kernel
  obtain ⟨t, ht, hpage⟩ := Option.bind_eq_some_iff.mp hpage
  obtain ⟨p, hp, hpage⟩ := Option.bind_eq_some_iff.mp hpage
  obtain ⟨path, hpath, hpage⟩ := Option.bind_eq_some_iff.mp hpage
  obtain ⟨b, hb, hpage⟩ := Option.bind_eq_some_iff.mp hpage
  obtain ⟨s, hs, hpage⟩ := Option.bind_eq_some_iff.mp hpage
  obtain ⟨d, hd, hpage⟩ := Option.map_eq_some_iff.mp hpage
  rw [Bool.and_eq_true, Bool.and_eq_true] at hpage
  obtain ⟨⟨hstage, hdeclares⟩, hslot⟩ := hpage
  have hpage := eq_of_heirPath? hpath
  have hinherits := eq_of_doneNormal? hs
  have hbase := eq_of_isLoneSlot hslot
  -- The page inherits the base, and goes on with it.
  have hstock := Stock.has_ofSource ht
  have hcompile : t.compile = .ok p := eq_ok_of_toOption hp
  let stock : Stock pageEngine := .ofLoader .default (.ofDict pageWithBase)
  let start : World := ⟨Draft.toSpace ⟨t, p, 0⟩ [], .empty, 0⟩
  obtain ⟨hgo, hcomes⟩ := HandsOn.of_heir (w := start) rfl hpage hinherits (eq_of_beq hstage) hd
    hdeclares
  let w : World :=
    { s.world with space := d.ofChild { s.world.space with output := s.frame.buffer } }
  have hbegins : start.Begins stock.upkeep p (.ofProgram p) 0 :=
    Draft.begins (d := ⟨t, p, 0⟩) rfl fun _ h => h
  obtain ⟨hnext, ⟨base, -, htemplate, hprogram⟩, -⟩ := hgo.begins hbegins
  let T : Nat → Compiled pageEngine.config := fun
    | 0 => ⟨t, p, stock.parsed t hstock, hcompile⟩
    | _ + 1 => base
  have hleaf : Ascent pageEngine T start 0 7 start := .leaf rfl
  have hroot : Ascent pageEngine T start 1 6 w := .parent hleaf hgo htemplate hprogram
  have hruns : RunsFrom T "a" 0 1 := by
    refine ⟨Nat.zero_le 1, fun k _ hk => ?_, fun m' _ => Nat.zero_le m'⟩
    match k with
    | 0 => exact Option.isSome_iff_exists.mpr ⟨b, hb⟩
    | _ + 1 =>
      rw [hprogram] at hdeclares
      exact hdeclares
  -- The body of the base is the statement of the block alone, and the base has no parent.
  obtain ⟨-, -, hbody, -, htable, -, hdraws⟩ := hroot.resolves "a"
  have hlone : w.space.program.body = [.block "a"] := by
    rw [hbody, ← hbase, hprogram]
  have horphan : ∀ p v, w.BodyComesTo pageEngine 5 p v → v.world.space.parent = none := by
    intro p v hv
    rw [World.BodyComesTo, hlone] at hv
    rcases hv with ⟨-, rfl⟩ | hv | ⟨_, _, _, _, hv⟩
    · exact hnext.parent
    · exact hv.elim
    · exact hv.elim
  have hslot : w.BodyComesTo pageEngine 5 (.step (.block "a")) ⟨w.drawing, .ofBody⟩ := by
    rw [World.BodyComesTo, hlone]
    exact Or.inl ⟨rfl, rfl⟩
  refine ⟨T, start, w, b, hleaf, hroot, hb, hruns, htable 0 hruns, ⟨s, hcomes, ?_⟩, _, hslot, ?_⟩
  · obtain ⟨-, -, -, -, -, -, hleaves⟩ := hleaf.resolves "a"
    obtain ⟨-, -, -, -, hleft, -⟩ := hleaves s hcomes
    have hfirst : start.InheritsFirst pageEngine 6 (T 1) :=
      ⟨[], path, [.block "a"], s, d, hpage, nofun, hinherits, hd, htemplate, hprogram⟩
    exact hleft hfirst (hruns.declares 1 (Nat.zero_le 1) (Nat.le_refl 1))
  · obtain ⟨m, b', hm, hb', -, -, hdrawn⟩ := hdraws _ hslot
    obtain rfl : m = 0 := Nat.le_zero.mp (hm.least 0 fun k hk hki => hruns.declares k hk hki)
    obtain rfl : b = b' := Option.some.inj (hb.symm.trans hb')
    exact hdrawn horphan

end Inlay
