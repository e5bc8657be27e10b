import Inlay.Proofs.Program.Faithful
import Inlay.Proofs.Program.Marks
import Inlay.Template

/-!
# Compiled templates

A template that was parsed, with its program.  Its program refers only to blocks that it has, and every
block knows the path of the template.

* `Template.Parsed`, `Compiled`: the templates meant here.
* `Compiled.get?_blocks_of_body`, `Compiled.get?_blocks_of_block`: the program of a template has
  every block that it refers to.
* `Compiled.origin`: where a block comes from.
* `Template.Says`: what all statements of a template have in common, those in its blocks included;
  `Compiled.marked_body` and `Compiled.marked_block` read it off the program.
-/

namespace Inlay

/-! ## The blocks that a tree refers to -/

theorem StatementKind.eq_block_of_shown {kind : StatementKind} {name : String}
    (h : kind.shown = .block name) : kind = .block name := by
  cases kind with
  | opening o => cases o <;> exact absurd h StatementKind.noConfusion
  | clause c => cases c <;> exact absurd h StatementKind.noConfusion
  | _ => exact h

mutual

/-- Every block reference in a hollow tree is one to a block that the tree defines. -/
theorem Statement.name_mem_of_outline_hollow {name : String} : ∀ s : Statement,
    .start (.block name) ∈ s.hollow.outline → name ∈ s.bodies.map BlockBody.name
  | .mk kind line span children => fun h => by
    by_cases hblock : ∃ other, kind = .block other
    · obtain ⟨other, rfl⟩ := hblock
      rw [Statement.hollow, Statement.outline_of_ne (fun _ => StatementKind.noConfusion),
        Statement.outlineAll_nil] at h
      obtain rfl : name = other := by simpa [nest, StatementKind.shown] using h
      rw [Statement.bodies, List.map_append]
      exact List.mem_append_right _ (List.mem_singleton_self _)
    · have hne : ∀ other, kind ≠ .block other := fun other hother => hblock ⟨other, hother⟩
      rw [Statement.hollow_of_ne hne] at h
      rw [Statement.bodies_of_ne hne]
      by_cases hcomment : ∃ text, kind = .comment text
      · obtain ⟨text, rfl⟩ := hcomment
        rw [Statement.outline] at h
        exact absurd h List.not_mem_nil
      · rw [Statement.outline_of_ne fun text htext => hcomment ⟨text, htext⟩] at h
        rcases List.mem_cons.mp h with heq | h
        · exact absurd (StatementKind.eq_block_of_shown (Mark.start.inj heq).symm) (hne name)
        · rcases List.mem_append.mp h with h | h
          · exact Statement.name_mem_of_outlineAll_hollowAll children h
          · exact absurd (List.mem_singleton.mp h) Mark.noConfusion

theorem Statement.name_mem_of_outlineAll_hollowAll {name : String} : ∀ ss : List Statement,
    .start (.block name) ∈ Statement.outlineAll (Statement.hollowAll ss) →
      name ∈ (Statement.bodiesAll ss).map BlockBody.name
  | [] => fun h => by
    rw [Statement.hollowAll_nil, Statement.outlineAll_nil] at h
    exact absurd h List.not_mem_nil
  | s :: rest => fun h => by
    rw [Statement.hollowAll_cons, Statement.outlineAll_cons] at h
    rw [Statement.bodiesAll_cons, List.map_append]
    rcases List.mem_append.mp h with h | h
    · exact List.mem_append_left _ (Statement.name_mem_of_outline_hollow s h)
    · exact List.mem_append_right _ (Statement.name_mem_of_outlineAll_hollowAll rest h)

end

mutual

/-- So is every block reference in the body of a block. -/
theorem Statement.name_mem_of_mem_bodies {name : String} {b : BlockBody} : ∀ s : Statement,
    b ∈ s.bodies → .start (.block name) ∈ Statement.outlineAll b.body →
      name ∈ s.bodies.map BlockBody.name
  | .mk kind line span children => fun hb h => by
    by_cases hblock : ∃ other, kind = .block other
    · obtain ⟨other, rfl⟩ := hblock
      rw [Statement.bodies] at hb
      rw [Statement.bodies, List.map_append]
      refine List.mem_append_left _ ?_
      rcases List.mem_append.mp hb with hb | hb
      · exact Statement.name_mem_of_mem_bodiesAll children hb h
      · obtain rfl := List.mem_singleton.mp hb
        exact Statement.name_mem_of_outlineAll_hollowAll children h
    · have hne : ∀ other, kind ≠ .block other := fun other hother => hblock ⟨other, hother⟩
      rw [Statement.bodies_of_ne hne] at hb ⊢
      exact Statement.name_mem_of_mem_bodiesAll children hb h

theorem Statement.name_mem_of_mem_bodiesAll {name : String} {b : BlockBody} :
    ∀ ss : List Statement, b ∈ Statement.bodiesAll ss →
      .start (.block name) ∈ Statement.outlineAll b.body →
        name ∈ (Statement.bodiesAll ss).map BlockBody.name
  | [] => fun hb _ => by
    rw [Statement.bodiesAll_nil] at hb
    exact absurd hb List.not_mem_nil
  | s :: rest => fun hb h => by
    rw [Statement.bodiesAll_cons] at hb
    rw [Statement.bodiesAll_cons, List.map_append]
    rcases List.mem_append.mp hb with hb | hb
    · exact List.mem_append_left _ (Statement.name_mem_of_mem_bodies s hb h)
    · exact List.mem_append_right _ (Statement.name_mem_of_mem_bodiesAll rest hb h)

end

/-! ## Tables of blocks -/

/-- The blocks of a program are those of its document, one by one. -/
theorem Program.Outlines.get?_blocks {p : Program} {origin : String} {d : Document}
    (h : p.Outlines origin d) (name : String) :
    (p.blocks.get? name).map (fun b => (b.name, b.origin, Step.outlineAll b.body)) =
      (d.blocks.get? name).map fun b => (b.name, origin, Statement.outlineAll b.body) := by
  have hblocks := congrArg (Dict.get? name) h.blocks
  have hleft := Dict.get?_mapEntries
    (fun _ (b : BlockProgram) => (b.name, b.origin, Step.outlineAll b.body)) name p.blocks
  have hright := Dict.get?_mapEntries
    (fun _ (b : BlockBody) => (b.name, origin, Statement.outlineAll b.body)) name d.blocks
  exact hleft.symm.trans (hblocks.trans hright)

/-- What the block of a program is in its document. -/
theorem Program.Outlines.exists_body {p : Program} {origin : String} {d : Document}
    (h : p.Outlines origin d) {name : String} {b : BlockProgram}
    (hb : p.blocks.get? name = some b) :
    ∃ body, d.blocks.get? name = some body ∧ b.origin = origin ∧
      Step.outlineAll b.body = Statement.outlineAll body.body := by
  have hblocks := h.get?_blocks name
  rw [hb, Option.map_some] at hblocks
  obtain ⟨body, hbody, heq⟩ := Option.map_eq_some_iff.mp hblocks.symm
  obtain ⟨-, heq⟩ := Prod.mk.inj heq
  obtain ⟨horigin, houtline⟩ := Prod.mk.inj heq
  exact ⟨body, hbody, horigin.symm, houtline.symm⟩

/-! ## Templates with their programs -/

/-- The template was parsed from some source. -/
def Template.Parsed (config : Config) (t : Template) : Prop :=
  ∃ source, Document.parse config t.path source = .ok t.document

/-- A parsed template with its program. -/
structure Compiled (config : Config) where
  template : Template
  program : Program
  parsed : template.Parsed config
  compile : template.compile = .ok program

/-- A parsed template compiles. -/
theorem Template.Parsed.exists_compiled {config : Config} {t : Template} (h : t.Parsed config) :
    ∃ c : Compiled config, c.template = t := by
  have hparsed := h
  obtain ⟨source, hsource⟩ := h
  obtain ⟨es, trees, hnested, htrees⟩ := Document.wellNested_of_parse hsource
  obtain ⟨p, hp, -⟩ := hnested.exists_program t.path
  exact ⟨⟨t, p, hparsed, by rw [Template.compile, htrees, hp]⟩, rfl⟩

/-- A property holds of all statements of a template, those in its blocks included. -/
structure Template.Says (P : StatementKind → Prop) (t : Template) : Prop where
  statements : Marked P (Statement.outlineAll t.document.statements)
  blocks : ∀ entry ∈ t.document.blocks, Marked P (Statement.outlineAll entry.2.body)

instance {P : StatementKind → Prop} [DecidablePred P] (t : Template) : Decidable (t.Says P) :=
  decidable_of_iff (Marked P (Statement.outlineAll t.document.statements) ∧
      ∀ entry ∈ t.document.blocks, Marked P (Statement.outlineAll entry.2.body))
    ⟨fun h => ⟨h.1, h.2⟩, fun h => ⟨h.1, h.2⟩⟩

namespace Compiled

variable {config : Config} (c : Compiled config)

/-- The trees behind a template, with the outlines of its program. -/
theorem exists_trees : ∃ trees, ((Statement.bodiesAll trees).map BlockBody.name).Nodup ∧
    c.template.document = Document.ofTrees trees ∧
      c.program.Outlines c.template.path c.template.document := by
  obtain ⟨source, hsource⟩ := c.parsed
  obtain ⟨es, trees, hnested, htrees⟩ := Document.wellNested_of_parse hsource
  obtain ⟨p, hp, houtlines⟩ := hnested.exists_program c.template.path
  have hcompile := c.compile
  rw [Template.compile, htrees, hp] at hcompile
  obtain rfl := Except.ok.inj hcompile
  exact ⟨trees, hnested.derives.map_name_bodiesAll.nodup_iff.mpr hnested.distinct, htrees,
    htrees ▸ houtlines⟩

theorem outlines : c.program.Outlines c.template.path c.template.document := by
  obtain ⟨trees, -, -, houtlines⟩ := c.exists_trees
  exact houtlines

theorem exists_body {name : String} {b : BlockProgram} (h : c.program.blocks.get? name = some b) :
    ∃ body, c.template.document.blocks.get? name = some body ∧ b.origin = c.template.path ∧
      Step.outlineAll b.body = Statement.outlineAll body.body :=
  c.outlines.exists_body h

/-- **A block knows the path of the template that defines it.** -/
theorem origin {name : String} {b : BlockProgram} (h : c.program.blocks.get? name = some b) :
    b.origin = c.template.path := by
  obtain ⟨body, -, horigin, -⟩ := c.exists_body h
  exact horigin

/-- A name among those of the trees is one of a block of the program. -/
theorem exists_block {trees : List Statement}
    (hdistinct : ((Statement.bodiesAll trees).map BlockBody.name).Nodup)
    (htrees : c.template.document = Document.ofTrees trees) {name : String}
    (h : name ∈ (Statement.bodiesAll trees).map BlockBody.name) :
    ∃ b, c.program.blocks.get? name = some b := by
  obtain ⟨body, hbody, rfl⟩ := List.mem_map.mp h
  have hblocks := c.outlines.get?_blocks body.name
  have hstored : c.template.document.blocks.get? body.name = some body := by
    rw [htrees]
    exact get?_storeAll_of_mem hdistinct hbody []
  rw [hstored, Option.map_some] at hblocks
  obtain ⟨b, hb, -⟩ := Option.map_eq_some_iff.mp hblocks
  exact ⟨b, hb⟩

/-- The program has the blocks of the document. -/
theorem isSome_get?_blocks (name : String) : (c.program.blocks.get? name).isSome ↔
    (c.template.document.blocks.get? name).isSome := by
  have hblocks := congrArg Option.isSome (c.outlines.get?_blocks name)
  rw [Option.isSome_map, Option.isSome_map] at hblocks
  rw [hblocks]

/-- **The program has every block that its body refers to.** -/
theorem get?_blocks_of_body {name : String}
    (h : .start (.block name) ∈ Step.outlineAll c.program.body) :
    ∃ b, c.program.blocks.get? name = some b := by
  obtain ⟨trees, hdistinct, htrees, houtlines⟩ := c.exists_trees
  rw [houtlines.body, htrees] at h
  exact c.exists_block hdistinct htrees (Statement.name_mem_of_outlineAll_hollowAll trees h)

/-- **The program has every block that one of its blocks refers to.** -/
theorem get?_blocks_of_block {slot name : String} {b : BlockProgram}
    (hslot : c.program.blocks.get? slot = some b)
    (h : .start (.block name) ∈ Step.outlineAll b.body) :
    ∃ b', c.program.blocks.get? name = some b' := by
  obtain ⟨trees, hdistinct, htrees, -⟩ := c.exists_trees
  obtain ⟨body, hbody, -, houtline⟩ := c.exists_body hslot
  rw [houtline] at h
  have hmem : (slot, body) ∈ storeAll [] (Statement.bodiesAll trees) := by
    have hmem := Dict.mem_of_get?_eq_some hbody
    rw [htrees] at hmem
    exact hmem
  obtain ⟨hbodies, -⟩ := (mem_storeAll hmem).resolve_left List.not_mem_nil
  exact c.exists_block hdistinct htrees (Statement.name_mem_of_mem_bodiesAll trees hbodies h)

variable {c}

/-- What all statements of a template have in common, those of its program's body have. -/
theorem marked_body {P : StatementKind → Prop} (h : c.template.Says P) :
    Marked P (Step.outlineAll c.program.body) :=
  c.outlines.body ▸ h.statements

/-- So have those of the blocks of its program. -/
theorem marked_block {P : StatementKind → Prop} (h : c.template.Says P) {name : String}
    {b : BlockProgram} (hb : c.program.blocks.get? name = some b) :
    Marked P (Step.outlineAll b.body) := by
  obtain ⟨body, hbody, -, houtline⟩ := c.exists_body hb
  rw [houtline]
  exact h.blocks _ (Dict.mem_of_get?_eq_some hbody)

end Compiled

end Inlay
