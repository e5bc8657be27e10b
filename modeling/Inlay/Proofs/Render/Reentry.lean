import Inlay.Proofs.Program.References
import Inlay.Proofs.Render.Upkeep

/-!
# Blocks that come to be drawn inside themselves

In one template no block refers to itself, not even through other blocks.  But the definition that the
head of a line draws for a block may be that of a descendant, and another block that it refers to may
have lost the definition of this descendant on the way, at a template that does not declare the block.
Then the references of two templates are mixed, and they may run in a circle.

* `DrawsInto`, `Reenters`: drawing a block of the head of a line comes to a block, or to itself again.
* `GapFree`: no template between two that declare a block lacks it.
* `GapFree.not_reenters`: then no block comes to be drawn inside itself.
* `Stock.Line`: the lines that renderings come to.
-/

namespace Inlay

open Relation (TransGen)

/-- The definition that the head of a line draws for `slot` has a statement of the block `name`, and the
head has this block too. -/
structure DrawsInto (line : List Program) (slot name : String) : Prop where
  refers : ∃ b, (BlockTable.ofLine line).get? slot 0 = some b ∧
    .start (.block name) ∈ Step.outlineAll b.body
  defined : ((BlockTable.ofLine line).get? name 0).isSome

/-- **A block of the head of the line may come to be drawn inside itself.** -/
def Reenters (line : List Program) : Prop :=
  ∃ name, TransGen (DrawsInto line) name name

/-- No template between two that declare a block lacks it: if a parent and a descendant of its child
declare the block, so does the child. -/
def GapFree {config : Config} : List (Compiled config) → Prop
  | p :: child :: rest =>
    (∀ name, p.Declares name → (∃ c ∈ rest, c.Declares name) → child.Declares name) ∧
      GapFree (child :: rest)
  | _ => True

section

variable {config : Config} {p : Compiled config} {children : List (Compiled config)}
  {slot name : String}

/-- The head of a line draws what it declares. -/
theorem isSome_get?_ofLine : ((BlockTable.ofLine ((p :: children).map Compiled.program)).get? name
    0).isSome ↔ p.Declares name := by
  have hnone : (BlockTable.ofLine ((p :: children).map Compiled.program)).get? name 0 = none ↔
      p.program.blocks.get? name = none := BlockTable.get?_ofLine_eq_none_iff
  rw [Option.isSome_iff_ne_none, Compiled.Declares, Option.isSome_iff_ne_none]
  exact not_congr hnone

/-- The line of the child draws the block. -/
def DrawnBy (line : List (Compiled config)) (name : String) : Prop :=
  ((BlockTable.ofLine (line.map Compiled.program)).get? name 0).isSome

/-- A block that the child draws draws into blocks that the child draws, if there is no gap. -/
theorem DrawsInto.of_child (hgap : GapFree (p :: children))
    (h : DrawsInto ((p :: children).map Compiled.program) slot name) (hslot : DrawnBy children slot) :
    DrawnBy children name ∧ DrawsInto (children.map Compiled.program) slot name := by
  obtain ⟨⟨b, hb, hname⟩, hdefined⟩ := h
  have hown : p.Declares name := isSome_get?_ofLine.mp hdefined
  -- The definition drawn is the one that the child draws.
  have hchild : (BlockTable.ofLine (children.map Compiled.program)).get? slot 0 = some b := by
    obtain ⟨b', hb'⟩ := Option.isSome_iff_exists.mp hslot
    rw [List.map_cons, BlockTable.get?_ofLine_cons, hb', Option.map_eq_some_iff] at hb
    obtain ⟨own, -, heq⟩ := hb
    rw [hb', ← heq, Option.getD_some]
  -- The template that wrote it declares what it refers to.
  obtain ⟨program, hprogram, hwritten⟩ := BlockTable.mem_of_get?_ofLine hchild
  obtain ⟨c, hc, rfl⟩ := List.mem_map.mp hprogram
  have hrefers : c.Declares name :=
    Option.isSome_iff_exists.mpr (c.get?_blocks_of_block hwritten hname)
  have hdrawn : DrawnBy children name := by
    cases children with
    | nil => exact absurd hc List.not_mem_nil
    | cons child rest =>
      rw [DrawnBy, isSome_get?_ofLine]
      rcases List.mem_cons.mp hc with rfl | hc
      · exact hrefers
      · exact hgap.1 name hown ⟨c, hc, hrefers⟩
  exact ⟨hdrawn, ⟨b, hchild, hname⟩, hdrawn⟩

/-- A block that the child does not draw has the definition of the head. -/
theorem DrawsInto.of_head (h : DrawsInto ((p :: children).map Compiled.program) slot name)
    (hslot : ¬ DrawnBy children slot) :
    ∃ b, p.program.blocks.get? slot = some b ∧ .start (.block name) ∈ Step.outlineAll b.body := by
  obtain ⟨⟨b, hb, hname⟩, -⟩ := h
  rw [List.map_cons, BlockTable.get?_ofLine_cons, Option.not_isSome_iff_eq_none.mp hslot,
    Option.map_eq_some_iff] at hb
  obtain ⟨own, hown, heq⟩ := hb
  obtain rfl : own = b := heq
  exact ⟨own, hown, hname⟩

theorem GapFree.tail (h : GapFree (p :: children)) : GapFree children := by
  cases children with
  | nil => exact trivial
  | cons child rest => exact h.2

/-- What the child draws leads only to what the child draws, and the other references are ranked. -/
theorem GapFree.steps (h : GapFree (p :: children)) {rank : String → Nat}
    (hrank : ∀ slot b name, p.program.blocks.get? slot = some b →
      .start (.block name) ∈ Step.outlineAll b.body → rank name < rank slot)
    (hsteps : TransGen (DrawsInto ((p :: children).map Compiled.program)) slot name) :
    (DrawnBy children slot → DrawnBy children name ∧
        TransGen (DrawsInto (children.map Compiled.program)) slot name) ∧
      (¬ DrawnBy children slot → DrawnBy children name ∨ rank name < rank slot) := by
  induction hsteps with
  | single hstep =>
    refine ⟨fun hslot => ?_, fun hslot => ?_⟩
    · obtain ⟨hdrawn, hstep⟩ := hstep.of_child h hslot
      exact ⟨hdrawn, .single hstep⟩
    · obtain ⟨b, hb, hname⟩ := hstep.of_head hslot
      exact Or.inr (hrank _ b _ hb hname)
  | @tail middle name _ hstep ih =>
    refine ⟨fun hslot => ?_, fun hslot => ?_⟩
    · obtain ⟨hmiddle, hchild⟩ := ih.1 hslot
      obtain ⟨hdrawn, hstep⟩ := hstep.of_child h hmiddle
      exact ⟨hdrawn, hchild.tail hstep⟩
    · by_cases hmiddle : DrawnBy children middle
      · exact Or.inl (hstep.of_child h hmiddle).1
      · obtain ⟨b, hb, hname⟩ := hstep.of_head hmiddle
        have hlast := hrank _ b _ hb hname
        exact Or.inr (Nat.lt_trans hlast ((ih.2 hslot).resolve_left hmiddle))

/-- **On a line without gaps no block comes to be drawn inside itself.** -/
theorem GapFree.not_reenters {line : List (Compiled config)} (h : GapFree line) :
    ¬ Reenters (line.map Compiled.program) := by
  induction line with
  | nil =>
    rintro ⟨name, hcircle⟩
    cases hcircle with
    | single hstep => cases hstep.defined
    | tail _ hstep => cases hstep.defined
  | cons p children ih =>
    obtain ⟨rank, hrank⟩ := p.exists_rank
    rintro ⟨name, hcircle⟩
    by_cases hname : DrawnBy children name
    · exact ih h.tail ⟨name, ((h.steps hrank hcircle).1 hname).2⟩
    · have hless := ((h.steps hrank hcircle).2 hname).resolve_left hname
      exact Nat.lt_irrefl _ hless

end

/-- **The lines that renderings of a stock come to**: a template on its own, and a template in front of
a line with which a rendering of its head goes on. -/
inductive Stock.Line {engine : Engine} (stock : Stock engine) :
    List (Compiled engine.config) → Prop where
  | leaf {c : Compiled engine.config} (h : stock.Has c.template) : Line stock [c]
  | parent {c p : Compiled engine.config} {children : List (Compiled engine.config)}
      {fuel depth : Nat} {w w' : World} {d : Draft} (h : Line stock (p :: children))
      (hw : w.Begins stock.upkeep p.program (.ofLine ((p :: children).map Compiled.program)) depth)
      (hgo : HandsOn engine fuel w d w') (hhas : stock.Has c.template)
      (htemplate : d.template = c.template) (hprogram : d.program = c.program) :
      Line stock (c :: p :: children)

/-- A line is one of templates of the stock. -/
theorem Stock.Line.members {engine : Engine} {stock : Stock engine}
    {line : List (Compiled engine.config)} (h : stock.Line line) :
    ∀ c ∈ line, stock.Has c.template := by
  induction h with
  | leaf hhas =>
    intro c hc
    obtain rfl := List.mem_singleton.mp hc
    exact hhas
  | parent _ _ _ hhas _ _ ih => exact List.forall_mem_cons.mpr ⟨hhas, ih⟩

end Inlay
