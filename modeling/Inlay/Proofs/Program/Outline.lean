import Inlay.Program.Compile
import Inlay.Proofs.Statement.Clauses

/-!
# Outlines

A tree of statements and a list of steps are compared through their outlines. An outline is a row of
marks: each statement begins with what it is and ends behind all that is nested in it. In a tree the
clauses of a statement are its siblings; a step holds its clauses, and its outline shows them behind
its body, one after the other.

An outline leaves out what steps do not keep: lines and spans, comments, and the word `async`. A
handler of the kind `Exception` is shown as one that handles every fault. A choice begins with its
first branch; a choice that has none would show nothing of its beginning, and its `else` clause would
seem to belong to the step in front of it, so it has a mark that no statement has.

* `Statement.outlineAll`, `Step.outlineAll`: the outlines.
* `Opening.outline_of_toStep`: the step of an opening statement has the outline of the statement and
  its clauses, whatever the clauses are.
* `Opening.toStep_of_admits`: there is such a step for the clauses that the statement admits.
-/

namespace Inlay

/-- A mark of an outline. -/
inductive Mark where
  | start (kind : StatementKind)
  | stop
  /-- In the place of the first branch of a choice without branches. -/
  | branchless

/-- A handler as outlines show it: the kind `Exception` is left out, and the name stays. -/
def ExceptHead.shown (head : ExceptHead) : ExceptHead :=
  if head.kind = some "Exception" then ⟨none, head.newName⟩ else head

/-- The handlers of steps are those that outlines show. -/
theorem ExceptHead.widened_eq_shown (head : ExceptHead) : head.widened = head.shown := by
  obtain ⟨kind, newName⟩ := head
  cases kind with
  | none => rfl
  | some kind =>
    by_cases hkind : kind = "Exception"
    · simp [widened, shown, hkind]
    · simp [widened, shown, hkind]

/-- A statement as outlines show it. -/
def StatementKind.shown : StatementKind → StatementKind
  | .opening (.forEach head _) => .opening (.forEach head false)
  | .opening (.withBinding head _) => .opening (.withBinding head false)
  | .clause (.except head) => .clause (.except head.shown)
  | kind => kind

/-- The outline of a statement, from the outline of what is nested in it. -/
def nest (kind : StatementKind) (inner : List Mark) : List Mark :=
  .start kind :: (inner ++ [.stop])

mutual

/-- The outline of a statement. -/
def Statement.outline : Statement → List Mark
  | .mk (.comment _) _ _ _ => []
  | .mk kind _ _ children => nest kind.shown (outlineAll children)

/-- The outline of siblings. -/
def Statement.outlineAll : List Statement → List Mark
  | [] => []
  | s :: rest => s.outline ++ outlineAll rest

end

mutual

/-- The outline of a step. -/
def Step.outline : Step → List Mark
  | .text s => nest (.plain s) []
  | .output filter e => nest (.output filter e) []
  | .block name => nest (.block name) []
  | .inclusion path => nest (.inclusion path) []
  | .inheritance path => nest (.inheritance path) []
  | .choose branches otherwise =>
    outlineBranches branches ++ outlineClause .elseBranch otherwise
  | .forEach targets iter body otherwise =>
    nest (.opening (.forEach ⟨targets, iter⟩ false)) (outlineAll body) ++
      outlineClause .elseBranch otherwise
  | .whileTest test body otherwise =>
    nest (.opening (.whileTest test)) (outlineAll body) ++ outlineClause .elseBranch otherwise
  | .withBinding e newName body =>
    nest (.opening (.withBinding ⟨e, newName⟩ false)) (outlineAll body)
  | .attempt body handlers otherwise finally_ =>
    nest (.opening .tryBody) (outlineAll body) ++ (outlineHandlers handlers ++
      (outlineClause .elseBranch otherwise ++ outlineClause .finally_ finally_))
  | .assign targets e => nest (.assignment targets e) []
  | .importModule head => nest (.inline (.importModule head)) []
  | .importNames head => nest (.inline (.importNames head)) []
  | .raise head => nest (.inline (.raise head)) []
  | .declareGlobal names => nest (.inline (.declareGlobal names)) []
  | .assertion head => nest (.inline (.assertion head)) []
  | .breakLoop => nest (.inline .breakLoop) []
  | .continueLoop => nest (.inline .continueLoop) []
  | .comment _ => []

/-- The outline of steps. -/
def Step.outlineAll : List Step → List Mark
  | [] => []
  | s :: rest => s.outline ++ outlineAll rest

/-- The outline of a clause, if it is there. -/
def Step.outlineClause (c : Clause) : Option (List Step) → List Mark
  | none => []
  | some body => nest (.clause c) (outlineAll body)

/-- The outline of the branches of a choice: the first one opens it, the others are clauses. -/
def Step.outlineBranches : List (Expr × List Step) → List Mark
  | [] => [.branchless]
  | (test, body) :: rest =>
    nest (.opening (.ifTest test)) (outlineAll body) ++ outlineElifs rest

/-- The outline of the branches of a choice behind the first one. -/
def Step.outlineElifs : List (Expr × List Step) → List Mark
  | [] => []
  | (test, body) :: rest => nest (.clause (.elifTest test)) (outlineAll body) ++ outlineElifs rest

/-- The outline of handlers. -/
def Step.outlineHandlers : List (ExceptHead × List Step) → List Mark
  | [] => []
  | (head, body) :: rest => nest (.clause (.except head)) (outlineAll body) ++ outlineHandlers rest

end

/-- The outline of clauses with the steps in them. -/
def outlineClauses : List ClauseSteps → List Mark
  | [] => []
  | (c, body) :: rest =>
    nest (StatementKind.clause c).shown (Step.outlineAll body) ++ outlineClauses rest

namespace Statement

@[simp] theorem outlineAll_nil : outlineAll [] = [] := by
  rw [outlineAll]

@[simp] theorem outlineAll_cons (s : Statement) (rest : List Statement) :
    outlineAll (s :: rest) = s.outline ++ outlineAll rest := by
  rw [outlineAll]

@[simp] theorem outlineAll_append (ss ss' : List Statement) :
    outlineAll (ss ++ ss') = outlineAll ss ++ outlineAll ss' := by
  induction ss with
  | nil => rfl
  | cons s ss ih => rw [List.cons_append, outlineAll_cons, outlineAll_cons, ih, List.append_assoc]

theorem outline_of_ne {kind : StatementKind} (h : ∀ text, kind ≠ .comment text)
    (line : Option Nat) (span : Span) (children : List Statement) :
    (mk kind line span children).outline = nest kind.shown (outlineAll children) := by
  rw [outline]
  exact h

end Statement

namespace Step

@[simp] theorem outlineAll_nil : outlineAll [] = [] := by
  rw [outlineAll]

@[simp] theorem outlineAll_cons (s : Step) (rest : List Step) :
    outlineAll (s :: rest) = s.outline ++ outlineAll rest := by
  rw [outlineAll]

@[simp] theorem outlineAll_append (steps steps' : List Step) :
    outlineAll (steps ++ steps') = outlineAll steps ++ outlineAll steps' := by
  induction steps with
  | nil => rfl
  | cons s steps ih =>
    rw [List.cons_append, outlineAll_cons, outlineAll_cons, ih, List.append_assoc]

/-- Comments leave no mark. -/
theorem outlineAll_comments (lines : List String) : outlineAll (lines.map .comment) = [] := by
  induction lines with
  | nil => exact outlineAll_nil
  | cons line lines ih => rw [List.map_cons, outlineAll_cons, ih, outline, List.append_nil]

end Step

/-! ## Clauses taken off the front

Whatever is taken off the front of a row of clauses, nothing is lost. -/

theorem outline_takeElifs (ks : List ClauseSteps) :
    Step.outlineElifs (takeElifs ks).1 ++ outlineClauses (takeElifs ks).2 = outlineClauses ks := by
  fun_induction takeElifs ks with
  | case1 test body rest branches rest' hrest ih =>
    rw [hrest] at ih
    rw [Step.outlineElifs, List.append_assoc, ih, outlineClauses]
    rfl
  | case2 rest => rw [Step.outlineElifs, List.nil_append]

theorem outline_takeHandlers (ks : List ClauseSteps) :
    Step.outlineHandlers (takeHandlers ks).1 ++ outlineClauses (takeHandlers ks).2 =
      outlineClauses ks := by
  fun_induction takeHandlers ks with
  | case1 head body rest handlers rest' hrest ih =>
    rw [hrest] at ih
    rw [Step.outlineHandlers, List.append_assoc, ih, outlineClauses, head.widened_eq_shown]
    rfl
  | case2 rest => rw [Step.outlineHandlers, List.nil_append]

theorem outline_takeElse (ks : List ClauseSteps) :
    Step.outlineClause .elseBranch (takeElse ks).1 ++ outlineClauses (takeElse ks).2 =
      outlineClauses ks := by
  fun_cases takeElse ks with
  | case1 body rest =>
    rw [Step.outlineClause, outlineClauses]
    rfl
  | case2 rest => rw [Step.outlineClause, List.nil_append]

theorem outline_takeFinally (ks : List ClauseSteps) :
    Step.outlineClause .finally_ (takeFinally ks).1 ++ outlineClauses (takeFinally ks).2 =
      outlineClauses ks := by
  fun_cases takeFinally ks with
  | case1 body rest =>
    rw [Step.outlineClause, outlineClauses]
    rfl
  | case2 rest => rw [Step.outlineClause, List.nil_append]

theorem noClauses_eq_ok_iff {α : Type} {a b : α} {ks : List ClauseSteps} :
    noClauses a ks = .ok b ↔ ks = [] ∧ a = b := by
  cases ks with
  | nil => simp [noClauses]
  | cons k ks => simp [noClauses]

/-- **The step of an opening statement keeps its clauses**: its outline is that of the statement
and, behind it, of the clauses. -/
theorem Opening.outline_of_toStep {o : Opening} {body : List Step} {ks : List ClauseSteps}
    {step : Step} (h : o.toStep body ks = .ok step) :
    step.outline =
      nest (StatementKind.opening o).shown (Step.outlineAll body) ++ outlineClauses ks := by
  cases o with
  | ifTest test =>
    rcases helifs : takeElifs ks with ⟨branches, others⟩
    rcases helse : takeElse others with ⟨otherwise, rest⟩
    rw [toStep, helifs] at h
    simp only [helse] at h
    obtain ⟨rfl, rfl⟩ := noClauses_eq_ok_iff.mp h
    rw [← outline_takeElifs ks, helifs, ← outline_takeElse others, helse, outlineClauses,
      Step.outline, Step.outlineBranches, List.append_nil, List.append_assoc]
    rfl
  | whileTest test =>
    rcases helse : takeElse ks with ⟨otherwise, rest⟩
    rw [toStep, helse] at h
    obtain ⟨rfl, rfl⟩ := noClauses_eq_ok_iff.mp h
    rw [← outline_takeElse ks, helse, outlineClauses, Step.outline, List.append_nil]
    rfl
  | forEach head isAsync =>
    rcases helse : takeElse ks with ⟨otherwise, rest⟩
    rw [toStep, helse] at h
    obtain ⟨rfl, rfl⟩ := noClauses_eq_ok_iff.mp h
    rw [← outline_takeElse ks, helse, outlineClauses, Step.outline, List.append_nil]
    rfl
  | withBinding head isAsync =>
    obtain ⟨rfl, rfl⟩ := noClauses_eq_ok_iff.mp h
    rw [outlineClauses, Step.outline, List.append_nil]
    rfl
  | tryBody =>
    rcases hhandlers : takeHandlers ks with ⟨handlers, others⟩
    rcases helse : takeElse others with ⟨otherwise, behind⟩
    rcases hfinally : takeFinally behind with ⟨finally_, rest⟩
    rw [toStep, hhandlers] at h
    simp only [helse, hfinally] at h
    split at h
    · exact absurd h (by simp)
    · obtain ⟨rfl, rfl⟩ := noClauses_eq_ok_iff.mp h
      rw [← outline_takeHandlers ks, hhandlers, ← outline_takeElse others, helse,
        ← outline_takeFinally behind, hfinally, outlineClauses, Step.outline, List.append_nil]
      rfl

/-! ## Clauses that a statement admits -/

theorem map_fst_takeElifs {tests : List Expr} {cs : List Clause} (hcs : ∀ t, .elifTest t ∉ cs)
    {ks : List ClauseSteps} (h : ks.map Prod.fst = tests.map .elifTest ++ cs) :
    (takeElifs ks).2.map Prod.fst = cs := by
  fun_induction takeElifs ks generalizing tests with
  | case1 test body rest branches rest' hrest ih =>
    rw [List.map_cons] at h
    cases tests with
    | nil =>
      rw [List.map_nil, List.nil_append] at h
      exact absurd (h ▸ List.mem_cons_self ..) (hcs test)
    | cons test tests =>
      rw [hrest] at ih
      exact ih (List.cons.inj h).2
  | case2 rest hrest =>
    cases tests with
    | nil => exact h
    | cons test tests =>
      cases rest with
      | nil => exact absurd h.symm (List.cons_ne_nil _ _)
      | cons k rest =>
        obtain ⟨c, body⟩ := k
        obtain rfl : c = .elifTest test := (List.cons.inj h).1
        exact absurd rfl (hrest test body rest)

theorem map_fst_takeHandlers {heads : List ExceptHead} {cs : List Clause}
    (hcs : ∀ head, .except head ∉ cs) {ks : List ClauseSteps}
    (h : ks.map Prod.fst = heads.map .except ++ cs) :
    (takeHandlers ks).2.map Prod.fst = cs := by
  fun_induction takeHandlers ks generalizing heads with
  | case1 head body rest handlers rest' hrest ih =>
    rw [List.map_cons] at h
    cases heads with
    | nil =>
      rw [List.map_nil, List.nil_append] at h
      exact absurd (h ▸ List.mem_cons_self ..) (hcs head)
    | cons head heads =>
      rw [hrest] at ih
      exact ih (List.cons.inj h).2
  | case2 rest hrest =>
    cases heads with
    | nil => exact h
    | cons head heads =>
      cases rest with
      | nil => exact absurd h.symm (List.cons_ne_nil _ _)
      | cons k rest =>
        obtain ⟨c, body⟩ := k
        obtain rfl : c = .except head := (List.cons.inj h).1
        exact absurd rfl (hrest head body rest)

theorem map_fst_takeElse {tail cs : List Clause} (htail : AtMostOne .elseBranch tail)
    (hcs : .elseBranch ∉ cs) {ks : List ClauseSteps} (h : ks.map Prod.fst = tail ++ cs) :
    (takeElse ks).2.map Prod.fst = cs := by
  fun_cases takeElse ks with
  | case1 body rest =>
    rcases htail with rfl | rfl
    · rw [List.map_cons, List.nil_append] at h
      exact absurd (h ▸ List.mem_cons_self ..) hcs
    · exact (List.cons.inj h).2
  | case2 ks hks =>
    rcases htail with rfl | rfl
    · exact h
    · cases ks with
      | nil => exact absurd h.symm (List.cons_ne_nil _ _)
      | cons k rest =>
        obtain ⟨c, body⟩ := k
        obtain rfl : c = .elseBranch := (List.cons.inj h).1
        exact absurd rfl (hks body rest)

theorem takeFinally_snd_eq_nil {ks : List ClauseSteps}
    (h : AtMostOne .finally_ (ks.map Prod.fst)) : (takeFinally ks).2 = [] := by
  rcases h with h | h
  · obtain rfl := List.map_eq_nil_iff.mp h
    rfl
  · obtain ⟨⟨c, body⟩, rest, rfl, rfl, hrest⟩ := List.map_eq_cons_iff.mp h
    exact List.map_eq_nil_iff.mp hrest

theorem takeElse_snd_eq_nil {ks : List ClauseSteps}
    (h : AtMostOne .elseBranch (ks.map Prod.fst)) : (takeElse ks).2 = [] :=
  List.map_eq_nil_iff.mp (map_fst_takeElse h List.not_mem_nil (List.append_nil _).symm)

theorem noClauses_nil {α : Type} (a : α) {ks : List ClauseSteps} (h : ks = []) :
    noClauses a ks = .ok a :=
  noClauses_eq_ok_iff.mpr ⟨h, rfl⟩

/-- **An opening statement becomes a step** with any clauses that it admits. -/
theorem Opening.toStep_of_admits {o : Opening} {ks : List ClauseSteps}
    (h : o.Admits (ks.map Prod.fst)) (body : List Step) :
    ∃ step, o.toStep body ks = .ok step := by
  cases o with
  | ifTest test =>
    obtain ⟨tests, tail, htail, hks⟩ := h
    have helif : ∀ t, Clause.elifTest t ∉ tail := by
      rcases htail with rfl | rfl <;> simp
    have hrest := map_fst_takeElifs helif hks
    exact ⟨_, noClauses_nil _ (takeElse_snd_eq_nil (hrest ▸ htail))⟩
  | whileTest test => exact ⟨_, noClauses_nil _ (takeElse_snd_eq_nil h)⟩
  | forEach head isAsync => exact ⟨_, noClauses_nil _ (takeElse_snd_eq_nil h)⟩
  | withBinding head isAsync => exact ⟨_, noClauses_nil _ (List.map_eq_nil_iff.mp h)⟩
  | tryBody =>
    rw [toStep]
    rcases h with ⟨head, heads, tail, last, htail, hlast, hks⟩ | hks
    · have hexcept : ∀ head, Clause.except head ∉ tail ++ last := by
        rcases htail with rfl | rfl <;> rcases hlast with rfl | rfl <;> simp
      have helse : Clause.elseBranch ∉ last := by
        rcases hlast with rfl | rfl <;> simp
      obtain ⟨⟨c, inner⟩, rest, rfl, rfl, hrest⟩ := List.map_eq_cons_iff.mp hks
      rw [List.append_assoc] at hrest
      have hhandlers := map_fst_takeHandlers hexcept hrest
      have hclauses := map_fst_takeElse htail helse hhandlers
      exact ⟨_, noClauses_nil _ (takeFinally_snd_eq_nil (hclauses ▸ hlast))⟩
    · obtain ⟨⟨c, inner⟩, rest, rfl, rfl, hrest⟩ := List.map_eq_cons_iff.mp hks
      obtain rfl := List.map_eq_nil_iff.mp hrest
      exact ⟨_, rfl⟩

end Inlay
