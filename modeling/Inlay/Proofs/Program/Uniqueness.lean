import Inlay.Proofs.Program.Outline

/-!
# Steps that outlines determine

Steps with one outline are the same steps, but for comments, which leave no mark.  An outline is read from
its front.  The first mark tells the step that it begins; a body ends at the first `stop` that ends no step in
it; and a clause belongs to the step in front of it, because no step begins with a clause.

* `Step.bareAll`, `Program.bare`: steps and programs without comments.
* `Step.BegunBy`: the mark that the outline of a step begins with.
* `Closing`, `Apart`: what stands behind the steps of a body, and behind clauses.
* `Step.bareAll_eq_of_outlineAll_eq`: the outline determines the steps.
-/

namespace Inlay

/-! ## Steps without comments -/

mutual

/-- The step without the comments in it. -/
def Step.bare : Step → Step
  | .choose branches otherwise => .choose (bareBranches branches) (bareOptional otherwise)
  | .forEach targets iter body otherwise =>
    .forEach targets iter (bareAll body) (bareOptional otherwise)
  | .whileTest test body otherwise => .whileTest test (bareAll body) (bareOptional otherwise)
  | .withBinding e newName body => .withBinding e newName (bareAll body)
  | .attempt body handlers otherwise finally_ =>
    .attempt (bareAll body) (bareHandlers handlers) (bareOptional otherwise) (bareOptional finally_)
  | step => step

/-- The steps without the comments among them and in them. -/
def Step.bareAll : List Step → List Step
  | [] => []
  | .comment _ :: rest => bareAll rest
  | step :: rest => step.bare :: bareAll rest

/-- A clause without comments, if it is there. -/
def Step.bareOptional : Option (List Step) → Option (List Step)
  | none => none
  | some body => some (bareAll body)

/-- Branches without comments. -/
def Step.bareBranches : List (Expr × List Step) → List (Expr × List Step)
  | [] => []
  | (test, body) :: rest => (test, bareAll body) :: bareBranches rest

/-- Handlers without comments. -/
def Step.bareHandlers : List (ExceptHead × List Step) → List (ExceptHead × List Step)
  | [] => []
  | (head, body) :: rest => (head, bareAll body) :: bareHandlers rest

end

/-- The program without comments. -/
def Program.bare (p : Program) : Program where
  body := Step.bareAll p.body
  blocks := p.blocks.mapEntries fun _ b => { b with body := Step.bareAll b.body }

/-! ## The front of an outline -/

/-- The step begins with the mark in its outline.  Comments have none. -/
inductive Step.BegunBy : Mark → Step → Prop
  | text (s : String) : BegunBy (.start (.plain s)) (.text s)
  | output (filter : Filter) (e : Expr) : BegunBy (.start (.output filter e)) (.output filter e)
  | block (name : String) : BegunBy (.start (.block name)) (.block name)
  | inclusion (path : Expr) : BegunBy (.start (.inclusion path)) (.inclusion path)
  | inheritance (path : Expr) : BegunBy (.start (.inheritance path)) (.inheritance path)
  | noBranch (otherwise : Option (List Step)) : BegunBy .branchless (.choose [] otherwise)
  | choose (test : Expr) (body : List Step) (branches : List (Expr × List Step))
      (otherwise : Option (List Step)) :
      BegunBy (.start (.opening (.ifTest test))) (.choose ((test, body) :: branches) otherwise)
  | forEach (targets : List String) (iter : Expr) (body : List Step) (otherwise : Option (List Step)) :
      BegunBy (.start (.opening (.forEach ⟨targets, iter⟩ false))) (.forEach targets iter body otherwise)
  | whileTest (test : Expr) (body : List Step) (otherwise : Option (List Step)) :
      BegunBy (.start (.opening (.whileTest test))) (.whileTest test body otherwise)
  | withBinding (e : Expr) (newName : Option String) (body : List Step) :
      BegunBy (.start (.opening (.withBinding ⟨e, newName⟩ false))) (.withBinding e newName body)
  | attempt (body : List Step) (handlers : List (ExceptHead × List Step))
      (otherwise finally_ : Option (List Step)) :
      BegunBy (.start (.opening .tryBody)) (.attempt body handlers otherwise finally_)
  | assign (targets : List String) (e : Expr) : BegunBy (.start (.assignment targets e)) (.assign targets e)
  | importModule (head : ImportHead) : BegunBy (.start (.inline (.importModule head))) (.importModule head)
  | importNames (head : FromHead) : BegunBy (.start (.inline (.importNames head))) (.importNames head)
  | raise (head : Option RaiseHead) : BegunBy (.start (.inline (.raise head))) (.raise head)
  | declareGlobal (names : List String) :
      BegunBy (.start (.inline (.declareGlobal names))) (.declareGlobal names)
  | assertion (head : AssertHead) : BegunBy (.start (.inline (.assertion head))) (.assertion head)
  | breakLoop : BegunBy (.start (.inline .breakLoop)) .breakLoop
  | continueLoop : BegunBy (.start (.inline .continueLoop)) .continueLoop

namespace Step

theorem BegunBy.ne_stop {m : Mark} {s : Step} (h : s.BegunBy m) : m ≠ .stop := by
  rintro rfl
  cases h

theorem BegunBy.ne_clause {m : Mark} {s : Step} (h : s.BegunBy m) (c : Clause) : m ≠ .start (.clause c) := by
  rintro rfl
  cases h

/-- The outline of a step begins with the mark that begins it. -/
theorem BegunBy.exists_outline_eq {m : Mark} {s : Step} (h : s.BegunBy m) :
    ∃ tail, s.outline = m :: tail := by
  cases h with
  | noBranch => exact ⟨_, by rw [outline, outlineBranches]; rfl⟩
  | choose => exact ⟨_, by rw [outline, outlineBranches, nest]; rfl⟩
  | forEach | whileTest | attempt => exact ⟨_, by rw [outline, nest]; rfl⟩
  | _ => exact ⟨_, by rw [outline, nest]⟩

theorem exists_begunBy (s : Step) : (∃ line, s = .comment line) ∨ ∃ m, s.BegunBy m := by
  cases s with
  | comment line => exact .inl ⟨line, rfl⟩
  | choose branches otherwise =>
    cases branches with
    | nil => exact .inr ⟨_, .noBranch otherwise⟩
    | cons branch branches => exact .inr ⟨_, .choose branch.1 branch.2 branches otherwise⟩
  | _ => exact .inr ⟨_, by constructor⟩

theorem BegunBy.bareAll_cons {m : Mark} {s : Step} (h : s.BegunBy m) (rest : List Step) :
    bareAll (s :: rest) = s.bare :: bareAll rest := by
  cases h <;> simp only [bareAll]

/-- Steps are comments, or there is a first one among them that is none. -/
theorem bareAll_cases (ss : List Step) : (outlineAll ss = [] ∧ bareAll ss = []) ∨
    ∃ (s : Step) (m : Mark) (rest : List Step), s.BegunBy m ∧
      outlineAll ss = s.outline ++ outlineAll rest ∧ bareAll ss = s.bare :: bareAll rest := by
  induction ss with
  | nil => exact .inl ⟨outlineAll_nil, by rw [bareAll]⟩
  | cons s ss ih =>
    rcases s.exists_begunBy with ⟨line, rfl⟩ | ⟨m, hs⟩
    · rw [outlineAll_cons, outline, List.nil_append, bareAll]
      exact ih
    · exact .inr ⟨s, m, ss, hs, outlineAll_cons s ss, hs.bareAll_cons ss⟩

end Step

/-! ## What stands behind -/

/-- Behind the steps of a body there is nothing, or the end of the body. -/
def Closing (ms : List Mark) : Prop :=
  ∀ m ∈ ms.head?, m = .stop

/-- The marks do not begin with such a clause. -/
def Apart (p : Clause → Prop) (ms : List Mark) : Prop :=
  ∀ c, .start (.clause c) ∈ ms.head? → ¬ p c

section

variable {ms : List Mark} {p : Clause → Prop}

theorem closing_stop : Closing (.stop :: ms) := by
  rintro m ⟨⟩
  rfl

theorem Closing.apart (h : Closing ms) : Apart p ms := by
  intro c hc
  cases h _ hc

/-- No step begins with a clause. -/
theorem Closing.apart_outlineAll (h : Closing ms) (ss : List Step) : Apart p (Step.outlineAll ss ++ ms) := by
  rcases Step.bareAll_cases ss with ⟨hnil, -⟩ | ⟨s, m, rest, hs, hss, -⟩
  · rw [hnil, List.nil_append]
    exact h.apart
  · obtain ⟨tail, htail⟩ := hs.exists_outline_eq
    rw [hss, htail]
    rintro c ⟨⟩
    exact absurd rfl (hs.ne_clause c)

theorem Apart.optional (h : Apart p ms) {c : Clause} (hc : ¬ p c) (o : Option (List Step)) :
    Apart p (Step.outlineClause c o ++ ms) := by
  cases o with
  | none =>
    rw [Step.outlineClause]
    exact h
  | some body =>
    rw [Step.outlineClause, nest]
    rintro c' ⟨⟩
    exact hc

theorem Apart.ne_nest (h : Apart p ms) {c : Clause} (hc : p c) (inner rest : List Mark) :
    ms ≠ nest (.clause c) inner ++ rest := by
  rintro rfl
  exact h c rfl hc

end

/-- A statement, what is nested in it and what stands behind it are found again in an outline, if this
holds of the steps that are nested in it. -/
theorem nest_append_cancel {kind kind' : StatementKind} {body body' : List Step} {r r' : List Mark}
    (hbody : ∀ {t t' : List Mark}, Closing t → Closing t' →
      Step.outlineAll body ++ t = Step.outlineAll body' ++ t' →
        Step.bareAll body = Step.bareAll body' ∧ t = t')
    (h : nest kind (Step.outlineAll body) ++ r = nest kind' (Step.outlineAll body') ++ r') :
    kind = kind' ∧ Step.bareAll body = Step.bareAll body' ∧ r = r' := by
  simp only [nest, List.cons_append, List.append_assoc, List.cons.injEq, Mark.start.injEq] at h
  obtain ⟨hkind, h⟩ := h
  obtain ⟨hbare, h⟩ := hbody closing_stop closing_stop h
  exact ⟨hkind, hbare, (List.cons.inj h).2⟩

/-! ## Steps with one outline -/

mutual

/-- Two steps that begin with one mark are the same if their outlines are, where no clause stands behind
them. -/
theorem Step.BegunBy.bare_eq : ∀ {s s' : Step} {m : Mark} {r r' : List Mark}, s.BegunBy m → s'.BegunBy m →
    (∀ p, Apart p r) → (∀ p, Apart p r') → s.outline ++ r = s'.outline ++ r' → s.bare = s'.bare ∧ r = r'
  | .choose [] otherwise, _, _, _, _, hs, hs', hr, hr', h => by
    cases hs
    cases hs'
    rw [Step.outline, Step.outline, Step.outlineBranches, List.append_assoc, List.append_assoc] at h
    obtain ⟨hotherwise, h⟩ := Step.bareOptional_eq (hr _) (hr' _) (List.cons.inj h).2
    rw [Step.bare, Step.bare, hotherwise]
    exact ⟨rfl, h⟩
  | .choose ((test, body) :: branches) otherwise, _, _, _, _, hs, hs', hr, hr', h => by
    cases hs
    cases hs'
    rw [Step.outline, Step.outline, Step.outlineBranches, Step.outlineBranches, List.append_assoc,
      List.append_assoc, List.append_assoc, List.append_assoc] at h
    obtain ⟨-, hbody, h⟩ := nest_append_cancel Step.bareAll_eq h
    obtain ⟨hbranches, h⟩ := Step.bareElifs_eq ((hr _).optional nofun _) ((hr' _).optional nofun _) h
    obtain ⟨hotherwise, h⟩ := Step.bareOptional_eq (hr _) (hr' _) h
    rw [Step.bare, Step.bare, Step.bareBranches, Step.bareBranches, hbody, hbranches, hotherwise]
    exact ⟨rfl, h⟩
  | .forEach targets iter body otherwise, _, _, _, _, hs, hs', hr, hr', h => by
    cases hs
    cases hs'
    rw [Step.outline, Step.outline, List.append_assoc, List.append_assoc] at h
    obtain ⟨-, hbody, h⟩ := nest_append_cancel Step.bareAll_eq h
    obtain ⟨hotherwise, h⟩ := Step.bareOptional_eq (hr _) (hr' _) h
    rw [Step.bare, Step.bare, hbody, hotherwise]
    exact ⟨rfl, h⟩
  | .whileTest test body otherwise, _, _, _, _, hs, hs', hr, hr', h => by
    cases hs
    cases hs'
    rw [Step.outline, Step.outline, List.append_assoc, List.append_assoc] at h
    obtain ⟨-, hbody, h⟩ := nest_append_cancel Step.bareAll_eq h
    obtain ⟨hotherwise, h⟩ := Step.bareOptional_eq (hr _) (hr' _) h
    rw [Step.bare, Step.bare, hbody, hotherwise]
    exact ⟨rfl, h⟩
  | .withBinding e newName body, _, _, _, _, hs, hs', _, _, h => by
    cases hs
    cases hs'
    rw [Step.outline, Step.outline] at h
    obtain ⟨-, hbody, h⟩ := nest_append_cancel Step.bareAll_eq h
    rw [Step.bare, Step.bare, hbody]
    exact ⟨rfl, h⟩
  | .attempt body handlers otherwise finally_, _, _, _, _, hs, hs', hr, hr', h => by
    cases hs
    cases hs'
    simp only [Step.outline, List.append_assoc] at h
    obtain ⟨-, hbody, h⟩ := nest_append_cancel Step.bareAll_eq h
    obtain ⟨hhandlers, h⟩ := Step.bareHandlers_eq (((hr _).optional nofun _).optional nofun _)
      (((hr' _).optional nofun _).optional nofun _) h
    obtain ⟨hotherwise, h⟩ := Step.bareOptional_eq ((hr _).optional nofun _) ((hr' _).optional nofun _) h
    obtain ⟨hfinally, h⟩ := Step.bareOptional_eq (hr _) (hr' _) h
    rw [Step.bare, Step.bare, hbody, hhandlers, hotherwise, hfinally]
    exact ⟨rfl, h⟩
  | .text _, _, _, _, _, hs, hs', _, _, h | .output .., _, _, _, _, hs, hs', _, _, h
  | .block _, _, _, _, _, hs, hs', _, _, h | .inclusion _, _, _, _, _, hs, hs', _, _, h
  | .inheritance _, _, _, _, _, hs, hs', _, _, h | .assign .., _, _, _, _, hs, hs', _, _, h
  | .importModule _, _, _, _, _, hs, hs', _, _, h | .importNames _, _, _, _, _, hs, hs', _, _, h
  | .raise _, _, _, _, _, hs, hs', _, _, h | .declareGlobal _, _, _, _, _, hs, hs', _, _, h
  | .assertion _, _, _, _, _, hs, hs', _, _, h | .breakLoop, _, _, _, _, hs, hs', _, _, h
  | .continueLoop, _, _, _, _, hs, hs', _, _, h => by
    cases hs
    cases hs'
    exact ⟨rfl, List.append_cancel_left h⟩

/-- The steps of a body and what stands behind them. -/
theorem Step.bareAll_eq : ∀ {ss ss' : List Step} {r r' : List Mark}, Closing r → Closing r' →
    Step.outlineAll ss ++ r = Step.outlineAll ss' ++ r' → Step.bareAll ss = Step.bareAll ss' ∧ r = r'
  | [], ss', r, r', hr, _, h => by
    rcases Step.bareAll_cases ss' with ⟨hnil, hbare⟩ | ⟨s', m, rest, hs', hrest, -⟩
    · rw [hnil] at h
      rw [hbare]
      exact ⟨rfl, h⟩
    · obtain ⟨tail, htail⟩ := hs'.exists_outline_eq
      rw [hrest, htail, Step.outlineAll_nil, List.nil_append] at h
      exact absurd (hr m (h ▸ rfl)) hs'.ne_stop
  | s :: ss, ss', r, r', hr, hr', h => by
    rcases s.exists_begunBy with ⟨line, rfl⟩ | ⟨m, hs⟩
    · rw [Step.outlineAll_cons, Step.outline, List.nil_append] at h
      rw [Step.bareAll]
      exact Step.bareAll_eq hr hr' h
    · -- Comments in front of the other steps are passed, and both first steps begin with one mark.
      obtain ⟨tail, htail⟩ := hs.exists_outline_eq
      rcases Step.bareAll_cases ss' with ⟨hnil, -⟩ | ⟨s', m', rest, hs', hrest, hbare⟩
      · rw [hnil, Step.outlineAll_cons, htail, List.nil_append] at h
        exact absurd (hr' m (h ▸ rfl)) hs.ne_stop
      · rw [hrest, Step.outlineAll_cons, List.append_assoc, List.append_assoc] at h
        obtain rfl : m' = m := by
          obtain ⟨tail', htail'⟩ := hs'.exists_outline_eq
          rw [htail, htail'] at h
          exact (List.cons.inj h).1.symm
        obtain ⟨hstep, h⟩ := hs.bare_eq hs' (fun _ => hr.apart_outlineAll ss)
          (fun _ => hr'.apart_outlineAll rest) h
        obtain ⟨hsteps, h⟩ := Step.bareAll_eq hr hr' h
        rw [hs.bareAll_cons, hbare, hstep, hsteps]
        exact ⟨rfl, h⟩

/-- A clause, where no clause of its kind stands behind it. -/
theorem Step.bareOptional_eq {c : Clause} : ∀ {o o' : Option (List Step)} {r r' : List Mark},
    Apart (· = c) r → Apart (· = c) r' → Step.outlineClause c o ++ r = Step.outlineClause c o' ++ r' →
    Step.bareOptional o = Step.bareOptional o' ∧ r = r'
  | none, none, _, _, _, _, h => ⟨rfl, h⟩
  | some body, none, _, _, _, hr', h => by
    rw [Step.outlineClause, Step.outlineClause, List.nil_append] at h
    exact absurd h.symm (hr'.ne_nest rfl _ _)
  | none, some body', _, _, hr, _, h => by
    rw [Step.outlineClause, Step.outlineClause, List.nil_append] at h
    exact absurd h (hr.ne_nest rfl _ _)
  | some body, some body', _, _, _, _, h => by
    rw [Step.outlineClause, Step.outlineClause] at h
    obtain ⟨-, hbody, h⟩ := nest_append_cancel Step.bareAll_eq h
    rw [Step.bareOptional, Step.bareOptional, hbody]
    exact ⟨rfl, h⟩

/-- Branches behind the first one, where no such branch stands behind them. -/
theorem Step.bareElifs_eq : ∀ {bs bs' : List (Expr × List Step)} {r r' : List Mark},
    Apart (fun c => ∃ test, c = .elifTest test) r → Apart (fun c => ∃ test, c = .elifTest test) r' →
    Step.outlineElifs bs ++ r = Step.outlineElifs bs' ++ r' →
    Step.bareBranches bs = Step.bareBranches bs' ∧ r = r'
  | [], [], _, _, _, _, h => ⟨rfl, h⟩
  | (test, body) :: bs, [], _, _, _, hr', h => by
    rw [Step.outlineElifs, Step.outlineElifs, List.nil_append, List.append_assoc] at h
    exact absurd h.symm (hr'.ne_nest ⟨test, rfl⟩ _ _)
  | [], (test', body') :: bs', _, _, hr, _, h => by
    rw [Step.outlineElifs, Step.outlineElifs, List.nil_append, List.append_assoc] at h
    exact absurd h (hr.ne_nest ⟨test', rfl⟩ _ _)
  | (test, body) :: bs, (test', body') :: bs', _, _, hr, hr', h => by
    rw [Step.outlineElifs, Step.outlineElifs, List.append_assoc, List.append_assoc] at h
    obtain ⟨hkind, hbody, h⟩ := nest_append_cancel Step.bareAll_eq h
    obtain ⟨hbranches, hrest⟩ := Step.bareElifs_eq hr hr' h
    cases hkind
    rw [Step.bareBranches, Step.bareBranches, hbody, hbranches]
    exact ⟨rfl, hrest⟩

/-- Handlers, where no handler stands behind them. -/
theorem Step.bareHandlers_eq : ∀ {handlers handlers' : List (ExceptHead × List Step)} {r r' : List Mark},
    Apart (fun c => ∃ head, c = .except head) r → Apart (fun c => ∃ head, c = .except head) r' →
    Step.outlineHandlers handlers ++ r = Step.outlineHandlers handlers' ++ r' →
    Step.bareHandlers handlers = Step.bareHandlers handlers' ∧ r = r'
  | [], [], _, _, _, _, h => ⟨rfl, h⟩
  | (head, body) :: rest, [], _, _, _, hr', h => by
    rw [Step.outlineHandlers, Step.outlineHandlers, List.nil_append, List.append_assoc] at h
    exact absurd h.symm (hr'.ne_nest ⟨head, rfl⟩ _ _)
  | [], (head', body') :: rest', _, _, hr, _, h => by
    rw [Step.outlineHandlers, Step.outlineHandlers, List.nil_append, List.append_assoc] at h
    exact absurd h (hr.ne_nest ⟨head', rfl⟩ _ _)
  | (head, body) :: rest, (head', body') :: rest', _, _, hr, hr', h => by
    rw [Step.outlineHandlers, Step.outlineHandlers, List.append_assoc, List.append_assoc] at h
    obtain ⟨hkind, hbody, h⟩ := nest_append_cancel Step.bareAll_eq h
    obtain ⟨hhandlers, hrest⟩ := Step.bareHandlers_eq hr hr' h
    cases hkind
    rw [Step.bareHandlers, Step.bareHandlers, hbody, hhandlers]
    exact ⟨rfl, hrest⟩

end

/-- **Steps with one outline are the same steps**, but for comments. -/
theorem Step.bareAll_eq_of_outlineAll_eq {ss ss' : List Step} (h : Step.outlineAll ss = Step.outlineAll ss') :
    Step.bareAll ss = Step.bareAll ss' := by
  have hnil : Closing [] := fun m hm => by cases hm
  have hrest : Step.outlineAll ss ++ [] = Step.outlineAll ss' ++ [] := by rw [h]
  exact (Step.bareAll_eq hnil hnil hrest).1

end Inlay
