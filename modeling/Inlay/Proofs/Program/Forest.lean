import Mathlib.Logic.Relation
import Inlay.Proofs.Program.Loops
import Inlay.Proofs.Program.References

/-!
# The forest of blocks

Where a block is defined, a reference to it is left, and its body moves into the table.  So each
block of a program is referred to at exactly one place, in the body of the program or in the body of
another block, and the blocks form a forest whose roots are in the body of the program.

* `Step.referencesAll`, `Program.references`: the references of steps, and of a whole program.
* `Program.IsForest`: the blocks of a program form a forest over its body.
* `Derives.references_perm`: the references that are left in trees of the grammar, and those in the
  bodies that are taken out of them, are the blocks of the trees.
* `Program.Outlines.isForest`: so the blocks of a program form a forest.
* `Statement.AllHollow`: no block statement holds its body.
* `Document.isForest_of_parse`: the program of a source that parses is a forest, and its blocks are
  hollow.
-/

namespace Inlay

/-! ## References -/

mutual

/-- The blocks that a step draws where it stands, and the steps in it at every depth. -/
def Step.references : Step → List String
  | .block name => [name]
  | .choose branches otherwise => referencesBranches branches ++ referencesOptional otherwise
  | .forEach _ _ body otherwise => referencesAll body ++ referencesOptional otherwise
  | .whileTest _ body otherwise => referencesAll body ++ referencesOptional otherwise
  | .withBinding _ _ body => referencesAll body
  | .attempt body handlers otherwise finally_ =>
    referencesAll body ++ (referencesHandlers handlers ++
      (referencesOptional otherwise ++ referencesOptional finally_))
  | _ => []

/-- The references of steps. -/
def Step.referencesAll : List Step → List String
  | [] => []
  | s :: rest => s.references ++ referencesAll rest

/-- The references of a clause, if it is there. -/
def Step.referencesOptional : Option (List Step) → List String
  | none => []
  | some body => referencesAll body

/-- The references of the branches of a choice. -/
def Step.referencesBranches : List (Expr × List Step) → List String
  | [] => []
  | (_, body) :: rest => referencesAll body ++ referencesBranches rest

/-- The references of handlers. -/
def Step.referencesHandlers : List (ExceptHead × List Step) → List String
  | [] => []
  | (_, body) :: rest => referencesAll body ++ referencesHandlers rest

end

namespace Program

/-- The references of a program, those of its body and those of the bodies of all its blocks. -/
def references (p : Program) : List String :=
  Step.referencesAll p.body ++ p.blocks.flatMap fun (_, b) => Step.referencesAll b.body

/-- The body of one block has a reference to another one. -/
def Refers (p : Program) (name other : String) : Prop :=
  ∃ b, p.blocks.get? name = some b ∧ other ∈ Step.referencesAll b.body

/-- **The blocks of a program form a forest over its body.** -/
structure IsForest (p : Program) : Prop where
  /-- The references are the keys of the table of blocks. -/
  references : p.references.Perm p.blocks.keys
  /-- Each block is referred to at one place. -/
  once : p.references.Nodup
  /-- No block comes to refer to itself. -/
  acyclic : ∀ name, ¬ Relation.TransGen p.Refers name name
  /-- Every block is referred to by the body, or by a block that the body leads to. -/
  reached : ∀ name ∈ p.blocks.keys,
    ∃ root ∈ Step.referencesAll p.body, Relation.ReflTransGen p.Refers root name

end Program

/-! ## References in outlines -/

/-- The block whose statement begins at a mark. -/
def Mark.block? : Mark → Option String
  | .start (.block name) => some name
  | _ => none

/-- The names of the block statements of an outline. -/
def blocksOf (ms : List Mark) : List String :=
  ms.filterMap Mark.block?

theorem mem_blocksOf {name : String} {ms : List Mark} :
    name ∈ blocksOf ms ↔ .start (.block name) ∈ ms := by
  rw [blocksOf, List.mem_filterMap]
  constructor
  · rintro ⟨m, hm, hname⟩
    unfold Mark.block? at hname
    split at hname
    · exact Option.some.inj hname ▸ hm
    · cases hname
  · exact fun h => ⟨_, h, rfl⟩

@[simp] theorem blocksOf_nil : blocksOf [] = [] := rfl

@[simp] theorem blocksOf_append (ms ms' : List Mark) :
    blocksOf (ms ++ ms') = blocksOf ms ++ blocksOf ms' :=
  List.filterMap_append

@[simp] theorem blocksOf_nest_block (name : String) :
    blocksOf (nest (.block name) []) = [name] := rfl

theorem blocksOf_nest {kind : StatementKind} (h : ∀ name, kind ≠ .block name) (inner : List Mark) :
    blocksOf (nest kind inner) = blocksOf inner := by
  have hkind : Mark.block? (.start kind) = none := by
    unfold Mark.block?
    split
    · rename_i name heq
      exact absurd (Mark.start.inj heq) (h name)
    · rfl
  have hstop : blocksOf [.stop] = [] := rfl
  rw [nest, blocksOf, List.filterMap_cons_none hkind]
  exact (blocksOf_append inner [.stop]).trans (by rw [hstop, List.append_nil])

mutual

/-- The references of a step are the block statements of its outline. -/
theorem Step.references_eq : ∀ s : Step, s.references = blocksOf s.outline
  | .block name => by rw [references, outline, blocksOf_nest_block]
  | .choose branches otherwise => by
    have hfirst : blocksOf (outlineBranches branches) = blocksOf (outlineElifs branches) := by
      cases branches with
      | nil =>
        rw [outlineBranches, outlineElifs]
        rfl
      | cons branch rest =>
        obtain ⟨test, body⟩ := branch
        rw [outlineBranches, outlineElifs, blocksOf_append, blocksOf_append,
          blocksOf_nest fun _ => StatementKind.noConfusion,
          blocksOf_nest fun _ => StatementKind.noConfusion]
    rw [references, outline, blocksOf_append, hfirst, referencesBranches_eq, referencesOptional_eq]
  | .forEach targets iter body otherwise => by
    rw [references, outline, blocksOf_append, blocksOf_nest fun _ => StatementKind.noConfusion,
      referencesAll_eq, referencesOptional_eq]
  | .whileTest test body otherwise => by
    rw [references, outline, blocksOf_append, blocksOf_nest fun _ => StatementKind.noConfusion,
      referencesAll_eq, referencesOptional_eq]
  | .withBinding e newName body => by
    rw [references, outline, blocksOf_nest fun _ => StatementKind.noConfusion, referencesAll_eq]
  | .attempt body handlers otherwise finally_ => by
    rw [references, outline, blocksOf_append, blocksOf_append, blocksOf_append,
      blocksOf_nest fun _ => StatementKind.noConfusion,
      referencesAll_eq, referencesHandlers_eq, referencesOptional_eq, referencesOptional_eq]
  | .text _ | .output .. | .inclusion _ | .inheritance _ | .assign .. | .importModule _
  | .importNames _ | .raise _ | .declareGlobal _ | .assertion _ | .breakLoop | .continueLoop
  | .comment _ => by
    rw [references, outline] <;> first | rfl | nofun

theorem Step.referencesAll_eq : ∀ steps : List Step,
    Step.referencesAll steps = blocksOf (Step.outlineAll steps)
  | [] => by rw [referencesAll, outlineAll_nil, blocksOf_nil]
  | s :: rest => by
    rw [referencesAll, outlineAll_cons, blocksOf_append, Step.references_eq s,
      Step.referencesAll_eq rest]

theorem Step.referencesOptional_eq {c : Clause} : ∀ body : Option (List Step),
    Step.referencesOptional body = blocksOf (Step.outlineClause c body)
  | none => by rw [referencesOptional, outlineClause, blocksOf_nil]
  | some body => by
    rw [referencesOptional, outlineClause, blocksOf_nest fun _ => StatementKind.noConfusion,
      Step.referencesAll_eq body]

theorem Step.referencesBranches_eq : ∀ branches : List (Expr × List Step),
    Step.referencesBranches branches = blocksOf (Step.outlineElifs branches)
  | [] => by rw [referencesBranches, outlineElifs, blocksOf_nil]
  | (test, body) :: rest => by
    rw [referencesBranches, outlineElifs, blocksOf_append,
      blocksOf_nest fun _ => StatementKind.noConfusion,
      Step.referencesAll_eq body, Step.referencesBranches_eq rest]

theorem Step.referencesHandlers_eq : ∀ handlers : List (ExceptHead × List Step),
    Step.referencesHandlers handlers = blocksOf (Step.outlineHandlers handlers)
  | [] => by rw [referencesHandlers, outlineHandlers, blocksOf_nil]
  | (head, body) :: rest => by
    rw [referencesHandlers, outlineHandlers, blocksOf_append,
      blocksOf_nest fun _ => StatementKind.noConfusion,
      Step.referencesAll_eq body, Step.referencesHandlers_eq rest]

end

/-! ## References in trees -/

/-- The references that the bodies of blocks hold. -/
def referencesIn (bodies : List BlockBody) : List String :=
  bodies.flatMap fun b => blocksOf (Statement.outlineAll b.body)

@[simp] theorem referencesIn_nil : referencesIn [] = [] := rfl

@[simp] theorem referencesIn_append (bodies bodies' : List BlockBody) :
    referencesIn (bodies ++ bodies') = referencesIn bodies ++ referencesIn bodies' :=
  List.flatMap_append

@[simp] theorem referencesIn_singleton (b : BlockBody) :
    referencesIn [b] = blocksOf (Statement.outlineAll b.body) :=
  List.flatMap_singleton ..

theorem StatementKind.shown_ne_block {kind : StatementKind} (h : ∀ name, kind ≠ .block name)
    (name : String) : kind.shown ≠ .block name :=
  fun heq => h name (eq_block_of_shown heq)

/-- A statement that is no block, and has nothing in it if it is a comment, has the references of
what is nested in it. -/
theorem Statement.blocksOf_outline {item : Item} (h : ∀ name, item.kind ≠ .block name)
    {children : List Statement} (hcomment : ∀ text, item.kind = .comment text → children = []) :
    blocksOf (item.toStatement children).outline = blocksOf (outlineAll children) := by
  obtain ⟨kind, line, span⟩ := item
  rw [Item.toStatement]
  by_cases hkind : ∃ text, kind = .comment text
  · obtain ⟨text, rfl⟩ := hkind
    rw [hcomment text rfl, outline, outlineAll_nil]
  · rw [outline_of_ne fun text htext => hkind ⟨text, htext⟩,
      blocksOf_nest (StatementKind.shown_ne_block h)]

/-- **The references of trees are their blocks**: those that are left where blocks are taken out,
and those in the bodies that are taken out, are together the names of the blocks. -/
theorem Derives.references_perm {inLoop : Bool} {stretch : Stretch} {es : List Entry}
    {ss : List Statement} (h : Derives inLoop stretch es ss) :
    (blocksOf (Statement.outlineAll (Statement.hollowAll ss)) ++
      referencesIn (Statement.bodiesAll ss)).Perm
      ((Statement.bodiesAll ss).map BlockBody.name) := by
  rw [List.perm_iff_count]
  intro name
  induction h with
  | nil | noClause => simp
  | text text _ ih =>
    rw [Statement.hollowAll_cons, Statement.hollow_ofText, Statement.outlineAll_cons,
      Statement.bodiesAll_cons, Statement.bodies_ofText, Statement.ofText,
      Statement.outline_of_ne fun _ => StatementKind.noConfusion, Statement.outlineAll_nil,
      blocksOf_append, blocksOf_nest (StatementKind.shown_ne_block fun _ => StatementKind.noConfusion)]
    exact ih
  | simple stands _ ih =>
    rw [Statement.hollowAll_cons, Statement.hollow_toStatement_of_ne stands.ne_block,
      Statement.hollowAll_nil, Statement.outlineAll_cons, Statement.bodiesAll_cons,
      Statement.bodies_toStatement_of_ne stands.ne_block, Statement.bodiesAll_nil, blocksOf_append,
      Statement.blocksOf_outline stands.ne_block fun _ _ => rfl, Statement.outlineAll_nil]
    exact ih
  | @block _ _ _ inner _ item _ name opens _ _ _ ihBody ih =>
    have hreference : blocksOf (item.toStatement []).outline = [name] := by
      rw [Item.toStatement, opens, Statement.outline_of_ne fun _ => StatementKind.noConfusion,
        Statement.outlineAll_nil]
      rfl
    rw [Statement.hollowAll_cons, Statement.hollow_toStatement_block opens,
      Statement.outlineAll_cons, Statement.bodiesAll_cons, Statement.bodies_toStatement_block opens,
      blocksOf_append, hreference]
    simp only [referencesIn_append, referencesIn_singleton, List.map_append, List.map_cons,
      List.map_nil, List.count_append] at ihBody ih ⊢
    omega
  | scope opens _ _ _ _ _ ihBody ihClauses ih =>
    have hne := Item.ne_block_of_opening opens
    rw [Statement.hollowAll_cons, Statement.hollow_toStatement_of_ne hne,
      Statement.hollowAll_append, Statement.outlineAll_cons, Statement.outlineAll_append,
      Statement.bodiesAll_cons,
      Statement.bodies_toStatement_of_ne hne, Statement.bodiesAll_append, blocksOf_append,
      Statement.blocksOf_outline hne fun text htext => by cases opens.symm.trans htext]
    simp only [blocksOf_append, referencesIn_append, List.map_append, List.count_append]
      at ihBody ihClauses ih ⊢
    omega
  | clause opens _ _ ihBody ih =>
    have hne := Item.ne_block_of_clause opens
    rw [Statement.hollowAll_cons, Statement.hollow_toStatement_of_ne hne,
      Statement.outlineAll_cons, Statement.bodiesAll_cons, Statement.bodies_toStatement_of_ne hne,
      blocksOf_append, Statement.blocksOf_outline hne fun text htext => by
        cases opens.symm.trans htext]
    simp only [referencesIn_append, List.map_append, List.count_append] at ihBody ih ⊢
    omega

/-! ## Tables of blocks -/

/-- Bodies of different names are stored one by one. -/
theorem perm_storeAll {bodies : List BlockBody} (h : (bodies.map BlockBody.name).Nodup)
    {blocks : Dict BlockBody} (hnew : ∀ b ∈ bodies, blocks.get? b.name = none) :
    (storeAll blocks bodies).Perm (bodies.map (fun b => (b.name, b)) ++ blocks) := by
  induction bodies generalizing blocks with
  | nil => exact .refl _
  | cons b bodies ih =>
    rw [List.map_cons, List.nodup_cons] at h
    have hb : blocks.get? b.name = none := hnew b (List.mem_cons_self ..)
    have hrest : ∀ b' ∈ bodies, (blocks.insert b.name b).get? b'.name = none := by
      intro b' hb'
      have hne : b'.name ≠ b.name := fun he => h.1 (he ▸ List.mem_map_of_mem hb')
      rw [Dict.get?_insert_of_ne hne, hnew b' (List.mem_cons_of_mem _ hb')]
    rw [storeAll_cons, List.map_cons, List.cons_append]
    exact (ih h.2 hrest).trans
      (((Dict.perm_insert_of_get?_eq_none b hb).append_left _).trans List.perm_middle)

/-- The table of the blocks of trees has an entry for each of them. -/
theorem perm_ofTrees_blocks {trees : List Statement}
    (h : ((Statement.bodiesAll trees).map BlockBody.name).Nodup) :
    (Document.ofTrees trees).blocks.Perm
      ((Statement.bodiesAll trees).map fun b => (b.name, b)) := by
  have hnew : ∀ b ∈ Statement.bodiesAll trees, Dict.get? b.name ([] : Dict BlockBody) = none :=
    fun _ _ => rfl
  have hstored := perm_storeAll h hnew
  rwa [List.append_nil] at hstored

/-! ## The forest of a program -/

namespace Program.Outlines

variable {p : Program} {origin : String} {trees : List Statement}

/-- The keys of the table of blocks are the names of the blocks in the trees. -/
theorem perm_keys (h : p.Outlines origin (Document.ofTrees trees))
    (hdistinct : ((Statement.bodiesAll trees).map BlockBody.name).Nodup) :
    p.blocks.keys.Perm ((Statement.bodiesAll trees).map BlockBody.name) := by
  have hkeys : p.blocks.keys = (Document.ofTrees trees).blocks.keys := by
    have hblocks := congrArg (List.map Prod.fst) h.blocks
    rwa [List.map_map, List.map_map] at hblocks
  have hperm := (perm_ofTrees_blocks hdistinct).map Prod.fst
  rw [List.map_map] at hperm
  rw [hkeys]
  exact hperm

/-- The references of the program are those of the trees and of the bodies taken out of them. -/
theorem perm_references (h : p.Outlines origin (Document.ofTrees trees))
    (hdistinct : ((Statement.bodiesAll trees).map BlockBody.name).Nodup) :
    p.references.Perm (blocksOf (Statement.outlineAll (Statement.hollowAll trees)) ++
      referencesIn (Statement.bodiesAll trees)) := by
  have hbody : Step.referencesAll p.body =
      blocksOf (Statement.outlineAll (Statement.hollowAll trees)) := by
    rw [Step.referencesAll_eq, h.body]
    rfl
  have hblocks : (p.blocks.flatMap fun (_, b) => Step.referencesAll b.body) =
      (Document.ofTrees trees).blocks.flatMap
        fun entry => blocksOf (Statement.outlineAll entry.2.body) := by
    have houtlines := congrArg (List.flatMap fun outline => blocksOf outline.2.2.2) h.blocks
    rw [List.flatMap_map, List.flatMap_map] at houtlines
    simp only [Step.referencesAll_eq]
    exact houtlines
  have hperm := (perm_ofTrees_blocks hdistinct).flatMap_right
    fun entry => blocksOf (Statement.outlineAll entry.2.body)
  rw [List.flatMap_map] at hperm
  rw [references, hbody, hblocks]
  exact hperm.append_left _

/-- **The blocks of a program form a forest**, if it has the outlines of trees in which no two
blocks have one name. -/
theorem isForest {es : List Entry} (h : p.Outlines origin (Document.ofTrees trees))
    (hnested : WellNested es trees) : p.IsForest := by
  have hdistinct : ((Statement.bodiesAll trees).map BlockBody.name).Nodup :=
    hnested.derives.map_name_bodiesAll.nodup_iff.mpr hnested.distinct
  have hkeys : p.blocks.keys.Nodup := (h.perm_keys hdistinct).nodup_iff.mpr hdistinct
  let rank (name : String) : Nat := ((Statement.bodiesAll trees).map BlockBody.name).idxOf name
  have hrank {name other : String} (href : p.Refers name other) : rank other < rank name := by
    obtain ⟨b, hb, hother⟩ := href
    rw [Step.referencesAll_eq, mem_blocksOf] at hother
    exact h.idxOf_lt hdistinct hb hother
  have hreferences : p.references.Perm p.blocks.keys :=
    (h.perm_references hdistinct).trans
      (hnested.derives.references_perm.trans (h.perm_keys hdistinct).symm)
  refine ⟨hreferences, hreferences.nodup_iff.mpr hkeys, fun name hcycle => ?_, fun name hname => ?_⟩
  · have hlt : ∀ other, Relation.TransGen p.Refers name other → rank other < rank name := by
      intro other hreach
      induction hreach with
      | single href => exact hrank href
      | tail _ href ih => exact Nat.lt_trans (hrank href) ih
    exact Nat.lt_irrefl _ (hlt name hcycle)
  · -- The block is referred to somewhere.  If that is in another block, this one has a higher rank.
    induction hheight : (Statement.bodiesAll trees).length - rank name using Nat.strongRecOn
      generalizing name with
    | ind height ih =>
      rcases List.mem_append.mp (hreferences.mem_iff.mpr hname) with hroot | hinner
      · exact ⟨name, hroot, .refl⟩
      · obtain ⟨⟨slot, b⟩, hmem, href⟩ := List.mem_flatMap.mp hinner
        have hslot : p.blocks.get? slot = some b := Dict.get?_eq_some_of_mem hkeys hmem
        have hedge : p.Refers slot name := ⟨b, hslot, href⟩
        have hkey : slot ∈ p.blocks.keys := List.mem_map_of_mem hmem
        have hbound : rank slot < (Statement.bodiesAll trees).length := by
          have hname := (h.perm_keys hdistinct).mem_iff.mp hkey
          rw [← List.length_map BlockBody.name]
          exact List.idxOf_lt_length_of_mem hname
        have hlt := hrank hedge
        obtain ⟨root, hroot, hreach⟩ := ih _ (by omega) slot hkey rfl
        exact ⟨root, hroot, hreach.tail hedge⟩

end Program.Outlines

/-! ## Hollow blocks -/

mutual

/-- No block statement in the tree holds its body. -/
def Statement.IsHollow : Statement → Prop
  | .mk (.block _) _ _ children => children = []
  | .mk _ _ _ children => AllHollow children

/-- No block statement in the trees holds its body. -/
def Statement.AllHollow : List Statement → Prop
  | [] => True
  | s :: rest => s.IsHollow ∧ AllHollow rest

end

mutual

theorem Statement.isHollow_hollow : ∀ s : Statement, s.hollow.IsHollow
  | .mk kind line span children => by
    by_cases hblock : ∃ name, kind = .block name
    · obtain ⟨name, rfl⟩ := hblock
      rw [hollow, IsHollow]
    · have hne : ∀ name, kind ≠ .block name := fun name hname => hblock ⟨name, hname⟩
      rw [hollow_of_ne hne, IsHollow]
      · exact Statement.allHollow_hollowAll children
      · exact hne

/-- Trees whose bodies are taken out are hollow. -/
theorem Statement.allHollow_hollowAll :
    ∀ ss : List Statement, Statement.AllHollow (Statement.hollowAll ss)
  | [] => by
    rw [hollowAll_nil, AllHollow]
    exact trivial
  | s :: rest => by
    rw [hollowAll_cons, AllHollow]
    exact ⟨Statement.isHollow_hollow s, Statement.allHollow_hollowAll rest⟩

end

/-- **The blocks of a template form a forest.**  A source that parses has a program in which the
references to blocks, at every depth and in all bodies together, are the blocks of the program, each
once, in which no block leads to itself, and whose body leads to every block.  The steps and the blocks of
this program are those of the tree, and in the tree no block statement has children. -/
theorem Document.isForest_of_parse {config : Config} {file : String} {source : List Char}
    {d : Document} (h : Document.parse config file source = .ok d) (origin : String) :
    (∃ p, d.compile origin = .ok p ∧ p.IsForest ∧ p.Outlines origin d) ∧
      Statement.AllHollow d.statements ∧ ∀ entry ∈ d.blocks, Statement.AllHollow entry.2.body := by
  obtain ⟨es, trees, hnested, rfl⟩ := Document.wellNested_of_parse h
  obtain ⟨p, hp, houtlines⟩ := hnested.exists_program origin
  refine ⟨⟨p, hp, houtlines.isForest hnested, houtlines⟩, Statement.allHollow_hollowAll trees, ?_⟩
  rintro entry hentry
  obtain ⟨hbodies, -⟩ := (mem_storeAll hentry).resolve_left List.not_mem_nil
  obtain ⟨es, inner, -, hinner⟩ := hnested.derives.exists_of_mem_bodiesAll hbodies
  rw [hinner]
  exact Statement.allHollow_hollowAll inner

/-- Blocks in a clause of a block, and in a loop. -/
theorem Document.isForest_of_parse_nested :
    ∃ d, Document.parse Config.default "page.html"
        ("<% block a %><% if x %><% block b %>1<% end %><% else %><% block c %>2<% end %><% end %>" ++
          "<% end %><% for y in z %><% block d %><% end %><% end %>").toList = .ok d ∧
      (∃ p, d.compile "page.html" = .ok p ∧ p.IsForest ∧ p.Outlines "page.html" d) ∧
        Statement.AllHollow d.statements ∧ ∀ entry ∈ d.blocks, Statement.AllHollow entry.2.body := by
  obtain ⟨d, hd⟩ := exists_eq_ok_of_isOk (x := Document.parse Config.default "page.html"
    ("<% block a %><% if x %><% block b %>1<% end %><% else %><% block c %>2<% end %><% end %>" ++
      "<% end %><% for y in z %><% block d %><% end %><% end %>").toList) (by decide +kernel)
  exact ⟨d, hd, Document.isForest_of_parse hd "page.html"⟩

end Inlay
