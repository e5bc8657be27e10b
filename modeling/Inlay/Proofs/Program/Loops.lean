import Inlay.Proofs.Program.Compiled

/-!
# Loops and what stands in them

A `break` or a `continue` of a template that parses stands in the body of a loop.  The grammar says so of
the trees of the template.  Here it is said of outlines, where trees and programs are the same, and then of
the steps of the program: no statement list of a program is left by a step that stands in it, because in
the steps a loop holds its body, and its `else` clause stands beside it.

* `Sheltered`: every `break` and `continue` of an outline stands in the body of a loop.
* `Derives.sheltered`: so it is in the trees of the grammar.
* `Step.Sheltered`, `Step.AllSheltered`: the same for steps.
* `Compiled.sheltered_body`, `Compiled.sheltered_block`: so it is in the program of a template.
-/

namespace Inlay

/-! ## Outlines -/

/-- Does the statement leave a loop or its turn? -/
def StatementKind.leavesLoop : StatementKind → Bool
  | .inline .breakLoop | .inline .continueLoop => true
  | _ => false

/-- Is the body of the statement the body of a loop? -/
def StatementKind.isLoop : StatementKind → Bool
  | .opening o => o.isLoop
  | _ => false

/-- **Every `break` and `continue` of an outline stands in the body of a loop.**  The first argument
says of the statements around the outline, the innermost one first, which of them are loops. -/
def Sheltered : List Bool → List Mark → Prop
  | _, [] => True
  | loops, .start kind :: rest =>
    (kind.leavesLoop = true → loops.any id = true) ∧ Sheltered (kind.isLoop :: loops) rest
  | loops, .stop :: rest => Sheltered loops.tail rest
  | loops, .branchless :: rest => Sheltered loops rest

/-- The nested marks of a statement stand in it. -/
theorem sheltered_nest {loops : List Bool} {kind : StatementKind} {inner rest : List Mark} :
    Sheltered loops (nest kind inner ++ rest) ↔ (kind.leavesLoop = true → loops.any id = true) ∧
      Sheltered (kind.isLoop :: loops) (inner ++ .stop :: rest) := by
  rw [nest, List.cons_append, List.append_assoc, Sheltered]
  rfl

theorem sheltered_stop {loops : List Bool} {rest : List Mark} (isLoop : Bool) :
    Sheltered (isLoop :: loops) (.stop :: rest) ↔ Sheltered loops rest := by
  rw [Sheltered, List.tail_cons]

/-- A statement without a body, which stands where it may. -/
theorem sheltered_nest_nil {loops : List Bool} {kind : StatementKind} {rest : List Mark}
    (h : kind.leavesLoop = true → loops.any id = true) :
    Sheltered loops (nest kind [] ++ rest) ↔ Sheltered loops rest := by
  rw [sheltered_nest, List.nil_append, sheltered_stop]
  exact and_iff_right h

/-! ## Trees -/

theorem StatementKind.leavesLoop_shown (kind : StatementKind) :
    kind.shown.leavesLoop = kind.leavesLoop := by
  cases kind with
  | opening o => cases o <;> rfl
  | clause c => cases c <;> rfl
  | _ => rfl

theorem StatementKind.isLoop_shown (kind : StatementKind) : kind.shown.isLoop = kind.isLoop := by
  cases kind with
  | opening o => cases o <;> rfl
  | clause c => cases c <;> rfl
  | _ => rfl

theorem StatementKind.MayStand.any_of_leavesLoop {loops : List Bool} {kind : StatementKind}
    (h : kind.MayStand (loops.any id)) (hleaves : kind.leavesLoop = true) :
    loops.any id = true := by
  unfold StatementKind.leavesLoop at hleaves
  split at hleaves
  · exact h
  · exact h
  · cases hleaves

/-- **In the trees of the grammar every `break` and `continue` stands in the body of a loop.** -/
theorem Derives.sheltered {inLoop : Bool} {stretch : Stretch} {es : List Entry}
    {ss : List Statement} (h : Derives inLoop stretch es ss) {loops : List Bool}
    (hloops : loops.any id = inLoop) {rest : List Mark} (hrest : Sheltered loops rest) :
    Sheltered loops (Statement.outlineAll (Statement.hollowAll ss) ++ rest) := by
  induction h generalizing loops rest with
  | nil | noClause =>
    rw [Statement.hollowAll_nil, Statement.outlineAll_nil]
    exact hrest
  | text text _ ih =>
    rw [Statement.hollowAll_cons, Statement.hollow_ofText, Statement.outlineAll_cons,
      List.append_assoc, Statement.ofText,
      Statement.outline_of_ne (fun _ => StatementKind.noConfusion), Statement.outlineAll_nil]
    exact (sheltered_nest_nil (fun h => Bool.noConfusion h)).mpr (ih hloops hrest)
  | @simple _ _ _ item stands _ ih =>
    obtain ⟨kind, line, span⟩ := item
    have hrest := ih hloops hrest
    rw [Statement.hollowAll_cons, Statement.hollow_toStatement_of_ne stands.ne_block,
      Statement.hollowAll_nil, Statement.outlineAll_cons, List.append_assoc, Item.toStatement]
    by_cases hcomment : ∃ text, kind = .comment text
    · obtain ⟨text, rfl⟩ := hcomment
      rw [Statement.outline]
      exact hrest
    · rw [Statement.outline_of_ne fun text h => hcomment ⟨text, h⟩, Statement.outlineAll_nil]
      refine (sheltered_nest_nil fun hleaves => ?_).mpr hrest
      rw [StatementKind.leavesLoop_shown] at hleaves
      exact StatementKind.MayStand.any_of_leavesLoop (hloops.symm ▸ stands) hleaves
  | @block _ _ _ _ _ item _ name opens _ _ _ _ ih =>
    rw [Statement.hollowAll_cons, Statement.hollow_toStatement_block opens,
      Statement.outlineAll_cons, List.append_assoc, Item.toStatement, opens,
      Statement.outline_of_ne (fun _ => StatementKind.noConfusion), Statement.outlineAll_nil]
    exact (sheltered_nest_nil fun h => Bool.noConfusion h).mpr (ih hloops hrest)
  | @scope inLoop _ _ _ _ _ _ item _ o _ opens _ _ _ _ _ ihBody ihClauses ih =>
    rw [Statement.hollowAll_cons,
      Statement.hollow_toStatement_of_ne (Item.ne_block_of_opening opens),
      Statement.hollowAll_append, Statement.outlineAll_cons, Statement.outlineAll_append,
      Item.toStatement, opens, Statement.outline_of_ne (fun _ => StatementKind.noConfusion),
      List.append_assoc, List.append_assoc, sheltered_nest, StatementKind.leavesLoop_shown,
      StatementKind.isLoop_shown]
    refine ⟨fun h => Bool.noConfusion h, ihBody ?_ ?_⟩
    · rw [List.any_cons, hloops]
      rfl
    · exact (sheltered_stop _).mpr (ihClauses hloops (ih hloops hrest))
  | @clause inLoop _ _ _ _ item c _ opens _ _ ihBody ih =>
    rw [Statement.hollowAll_cons,
      Statement.hollow_toStatement_of_ne (Item.ne_block_of_clause opens),
      Statement.outlineAll_cons, Item.toStatement, opens,
      Statement.outline_of_ne (fun _ => StatementKind.noConfusion),
      List.append_assoc, sheltered_nest, StatementKind.leavesLoop_shown,
      StatementKind.isLoop_shown]
    refine ⟨fun h => Bool.noConfusion h, ihBody ?_ ?_⟩
    · rw [List.any_cons, hloops]
      rfl
    · exact (sheltered_stop _).mpr (ih hloops hrest)

/-- The body of a block in the trees of the grammar is a row of items of its own, in no loop. -/
theorem Derives.exists_of_mem_bodiesAll {inLoop : Bool} {stretch : Stretch} {es : List Entry}
    {ss : List Statement} (h : Derives inLoop stretch es ss) {b : BlockBody}
    (hb : b ∈ Statement.bodiesAll ss) :
    ∃ es inner, Derives false .items es inner ∧ b.body = Statement.hollowAll inner := by
  induction h with
  | nil | noClause =>
    rw [Statement.bodiesAll_nil] at hb
    exact absurd hb List.not_mem_nil
  | text text _ ih =>
    rw [Statement.bodiesAll_cons, Statement.bodies_ofText] at hb
    exact ih hb
  | simple stands _ ih =>
    rw [Statement.bodiesAll_cons, Statement.bodies_toStatement_of_ne stands.ne_block,
      Statement.bodiesAll_nil] at hb
    exact ih hb
  | block opens _ nested _ ihBody ih =>
    rw [Statement.bodiesAll_cons, Statement.bodies_toStatement_block opens] at hb
    rcases List.mem_append.mp hb with hb | hb
    · rcases List.mem_append.mp hb with hb | hb
      · exact ihBody hb
      · obtain rfl := List.mem_singleton.mp hb
        exact ⟨_, _, nested, rfl⟩
    · exact ih hb
  | scope opens _ _ _ _ _ ihBody ihClauses ih =>
    rw [Statement.bodiesAll_cons,
      Statement.bodies_toStatement_of_ne (Item.ne_block_of_opening opens),
      Statement.bodiesAll_append] at hb
    rcases List.mem_append.mp hb with hb | hb
    · exact ihBody hb
    · exact (List.mem_append.mp hb).elim ihClauses ih
  | clause opens _ _ ihBody ih =>
    rw [Statement.bodiesAll_cons,
      Statement.bodies_toStatement_of_ne (Item.ne_block_of_clause opens)] at hb
    exact (List.mem_append.mp hb).elim ihBody ih

/-! ## Steps -/

mutual

/-- Every `break` and `continue` of the step stands in the body of a loop in it, or the step itself
stands in one. -/
def Step.Sheltered (inLoop : Bool) : Step → Prop
  | .breakLoop | .continueLoop => inLoop = true
  | .choose branches otherwise => BranchesSheltered inLoop branches ∧ OptionalSheltered inLoop otherwise
  | .forEach _ _ body otherwise | .whileTest _ body otherwise =>
    AllSheltered true body ∧ OptionalSheltered inLoop otherwise
  | .withBinding _ _ body => AllSheltered inLoop body
  | .attempt body handlers otherwise finally_ =>
    AllSheltered inLoop body ∧ HandlersSheltered inLoop handlers ∧
      OptionalSheltered inLoop otherwise ∧ OptionalSheltered inLoop finally_
  | .text _ | .output .. | .block _ | .inclusion _ | .inheritance _ | .assign .. | .importModule _
  | .importNames _ | .raise _ | .declareGlobal _ | .assertion _ | .comment _ => True

/-- So it is with each step of a list. -/
def Step.AllSheltered (inLoop : Bool) : List Step → Prop
  | [] => True
  | step :: rest => step.Sheltered inLoop ∧ AllSheltered inLoop rest

/-- So it is with each step of a list, if there is one. -/
def Step.OptionalSheltered (inLoop : Bool) : Option (List Step) → Prop
  | none => True
  | some body => AllSheltered inLoop body

/-- So it is in each branch of a choice. -/
def Step.BranchesSheltered (inLoop : Bool) : List (Expr × List Step) → Prop
  | [] => True
  | (_, body) :: rest => AllSheltered inLoop body ∧ BranchesSheltered inLoop rest

/-- So it is in each handler. -/
def Step.HandlersSheltered (inLoop : Bool) : List (ExceptHead × List Step) → Prop
  | [] => True
  | (_, body) :: rest => AllSheltered inLoop body ∧ HandlersSheltered inLoop rest

end

/-- What holds of what is nested in a statement, and what stands behind the statement. -/
theorem sheltered_of_nest {kind : StatementKind} {inner : List Mark} {P : Prop} {loops : List Bool}
    {rest : List Mark}
    (hinner : ∀ {rest}, Sheltered (kind.isLoop :: loops) (inner ++ rest) →
      P ∧ Sheltered (kind.isLoop :: loops) rest)
    (h : Sheltered loops (nest kind inner ++ rest)) : P ∧ Sheltered loops rest := by
  obtain ⟨hP, hrest⟩ := hinner (sheltered_nest.mp h).2
  exact ⟨hP, (sheltered_stop _).mp hrest⟩

mutual

/-- **What is sheltered in the outline of a step is sheltered in the step.** -/
theorem Step.sheltered_of_outline : ∀ (step : Step) {loops : List Bool} {rest : List Mark},
    Inlay.Sheltered loops (step.outline ++ rest) →
      step.Sheltered (loops.any id) ∧ Inlay.Sheltered loops rest
  | .breakLoop, _, _ | .continueLoop, _, _ => fun h => by
    rw [Step.outline, sheltered_nest] at h
    exact ⟨h.1 rfl, (sheltered_stop _).mp h.2⟩
  | .choose branches otherwise, _, _ => fun h => by
    rw [Step.outline, List.append_assoc] at h
    obtain ⟨hbranches, h⟩ := branchesSheltered_of_outline branches h
    obtain ⟨hotherwise, h⟩ := optionalSheltered_of_outline otherwise h
    exact ⟨⟨hbranches, hotherwise⟩, h⟩
  | .forEach _ _ body otherwise, _, _ | .whileTest _ body otherwise, _, _ => fun h => by
    rw [Step.outline, List.append_assoc] at h
    obtain ⟨hbody, h⟩ := sheltered_of_nest (allSheltered_of_outline body) h
    obtain ⟨hotherwise, h⟩ := optionalSheltered_of_outline otherwise h
    exact ⟨⟨hbody, hotherwise⟩, h⟩
  | .withBinding _ _ body, _, _ => fun h => by
    rw [Step.outline] at h
    exact sheltered_of_nest (allSheltered_of_outline body) h
  | .attempt body handlers otherwise finally_, _, _ => fun h => by
    rw [Step.outline, List.append_assoc, List.append_assoc, List.append_assoc] at h
    obtain ⟨hbody, h⟩ := sheltered_of_nest (allSheltered_of_outline body) h
    obtain ⟨hhandlers, h⟩ := handlersSheltered_of_outline handlers h
    obtain ⟨hotherwise, h⟩ := optionalSheltered_of_outline otherwise h
    obtain ⟨hfinally, h⟩ := optionalSheltered_of_outline finally_ h
    exact ⟨⟨hbody, hhandlers, hotherwise, hfinally⟩, h⟩
  | .text _, _, _ | .output .., _, _ | .block _, _, _ | .inclusion _, _, _ | .inheritance _, _, _
  | .assign .., _, _ | .importModule _, _, _ | .importNames _, _, _ | .raise _, _, _
  | .declareGlobal _, _, _ | .assertion _, _, _ => fun h => by
    rw [Step.outline] at h
    exact ⟨trivial, (sheltered_stop _).mp (sheltered_nest.mp h).2⟩
  | .comment _, _, _ => fun h => by
    rw [Step.outline] at h
    exact ⟨trivial, h⟩

theorem Step.allSheltered_of_outline : ∀ (steps : List Step) {loops : List Bool} {rest : List Mark},
    Inlay.Sheltered loops (Step.outlineAll steps ++ rest) →
      Step.AllSheltered (loops.any id) steps ∧ Inlay.Sheltered loops rest
  | [], _, _ => fun h => by
    rw [Step.outlineAll_nil] at h
    exact ⟨trivial, h⟩
  | step :: steps, _, _ => fun h => by
    rw [Step.outlineAll_cons, List.append_assoc] at h
    obtain ⟨hstep, h⟩ := sheltered_of_outline step h
    obtain ⟨hsteps, h⟩ := allSheltered_of_outline steps h
    exact ⟨⟨hstep, hsteps⟩, h⟩

theorem Step.optionalSheltered_of_outline {c : Clause} :
    ∀ (steps : Option (List Step)) {loops : List Bool} {rest : List Mark},
      Inlay.Sheltered loops (Step.outlineClause c steps ++ rest) →
        Step.OptionalSheltered (loops.any id) steps ∧ Inlay.Sheltered loops rest
  | none, _, _ => fun h => by
    rw [Step.outlineClause] at h
    exact ⟨trivial, h⟩
  | some body, _, _ => fun h => by
    rw [Step.outlineClause] at h
    exact sheltered_of_nest (allSheltered_of_outline body) h

theorem Step.elifsSheltered_of_outline :
    ∀ (branches : List (Expr × List Step)) {loops : List Bool} {rest : List Mark},
      Inlay.Sheltered loops (Step.outlineElifs branches ++ rest) →
        Step.BranchesSheltered (loops.any id) branches ∧ Inlay.Sheltered loops rest
  | [], _, _ => fun h => by
    rw [Step.outlineElifs] at h
    exact ⟨trivial, h⟩
  | (_, body) :: branches, _, _ => fun h => by
    rw [Step.outlineElifs, List.append_assoc] at h
    obtain ⟨hbody, h⟩ := sheltered_of_nest (allSheltered_of_outline body) h
    obtain ⟨hbranches, h⟩ := elifsSheltered_of_outline branches h
    exact ⟨⟨hbody, hbranches⟩, h⟩

theorem Step.branchesSheltered_of_outline :
    ∀ (branches : List (Expr × List Step)) {loops : List Bool} {rest : List Mark},
      Inlay.Sheltered loops (Step.outlineBranches branches ++ rest) →
        Step.BranchesSheltered (loops.any id) branches ∧ Inlay.Sheltered loops rest
  | [], _, _ => fun h => by
    rw [Step.outlineBranches, List.singleton_append, Inlay.Sheltered] at h
    exact ⟨trivial, h⟩
  | (_, body) :: branches, _, _ => fun h => by
    rw [Step.outlineBranches, List.append_assoc] at h
    obtain ⟨hbody, h⟩ := sheltered_of_nest (allSheltered_of_outline body) h
    obtain ⟨hbranches, h⟩ := elifsSheltered_of_outline branches h
    exact ⟨⟨hbody, hbranches⟩, h⟩

theorem Step.handlersSheltered_of_outline :
    ∀ (handlers : List (ExceptHead × List Step)) {loops : List Bool} {rest : List Mark},
      Inlay.Sheltered loops (Step.outlineHandlers handlers ++ rest) →
        Step.HandlersSheltered (loops.any id) handlers ∧ Inlay.Sheltered loops rest
  | [], _, _ => fun h => by
    rw [Step.outlineHandlers] at h
    exact ⟨trivial, h⟩
  | (_, body) :: handlers, _, _ => fun h => by
    rw [Step.outlineHandlers, List.append_assoc] at h
    obtain ⟨hbody, h⟩ := sheltered_of_nest (allSheltered_of_outline body) h
    obtain ⟨hhandlers, h⟩ := handlersSheltered_of_outline handlers h
    exact ⟨⟨hbody, hhandlers⟩, h⟩

end

/-! ## Programs -/

namespace Compiled

variable {config : Config} (c : Compiled config)

/-- **In the body of a program every `break` and `continue` stands in the body of a loop.** -/
theorem sheltered_body : Step.AllSheltered false c.program.body := by
  obtain ⟨source, hsource⟩ := c.parsed
  obtain ⟨es, trees, hnested, htrees⟩ := Document.wellNested_of_parse hsource
  have houtline : Sheltered [] (Statement.outlineAll (Statement.hollowAll trees) ++ []) :=
    hnested.derives.sheltered rfl trivial
  have hbody : Step.outlineAll c.program.body = Statement.outlineAll (Statement.hollowAll trees) := by
    rw [c.outlines.body, htrees]
    rfl
  rw [← hbody] at houtline
  exact (Step.allSheltered_of_outline c.program.body houtline).1

/-- **So it is in its blocks.** -/
theorem sheltered_block {name : String} {b : BlockProgram}
    (h : c.program.blocks.get? name = some b) : Step.AllSheltered false b.body := by
  obtain ⟨source, hsource⟩ := c.parsed
  obtain ⟨es, trees, hnested, htrees⟩ := Document.wellNested_of_parse hsource
  obtain ⟨body, hbody, -, houtline⟩ := c.exists_body h
  have hmem : (name, body) ∈ storeAll [] (Statement.bodiesAll trees) := by
    have hmem := Dict.mem_of_get?_eq_some hbody
    rw [htrees] at hmem
    exact hmem
  obtain ⟨hbodies, -⟩ := (mem_storeAll hmem).resolve_left List.not_mem_nil
  obtain ⟨es, inner, hderives, hinner⟩ := hnested.derives.exists_of_mem_bodiesAll hbodies
  have hsheltered : Sheltered [] (Statement.outlineAll (Statement.hollowAll inner) ++ []) :=
    hderives.sheltered rfl trivial
  rw [← hinner, ← houtline] at hsheltered
  exact (Step.allSheltered_of_outline b.body hsheltered).1

end Compiled

end Inlay
