import Inlay.Proofs.Program.Uniqueness
import Inlay.Proofs.Statement.Nesting

/-!
# Programs of parsed templates

The clauses of a statement are its siblings in a tree and its parts in a program.  Which statement a
clause belongs to is therefore found a second time, by `Statement.assemble`, which knows nothing of
the nesting.  In the tree of a template that parsed it always succeeds, and it finds what the nesting
found.

* `Assembles`: siblings become clauses and steps with the same outline.
* `Derives.assembles`: so do the trees of the grammar. Behind clauses there has to be something that
  assembles, because a row of clauses is assembled together with what follows.
* `Program.Outlines`: a program has the outlines of a document; `Program.Outlines.bare_eq`: but for
  comments, no other program has them.
* `WellNested.exists_program`, `Document.compile_of_parse`: every template that parses has a program,
  and the program has the outlines of the template.
-/

namespace Inlay

/-! ## Siblings that assemble -/

/-- Siblings become clauses and steps which have, one behind the other, the outline of the
siblings. -/
structure Assembles (ss : List Statement) (ks : List ClauseSteps) (steps : List Step) : Prop where
  assemble : Statement.assemble ss = .ok (ks, steps)
  outline : outlineClauses ks ++ Step.outlineAll steps = Statement.outlineAll ss

namespace Assembles

variable {ss children rest : List Statement} {ks : List ClauseSteps} {steps body : List Step}

/-- Siblings without clauses at their front are a sequence. -/
theorem sequence (h : Assembles ss [] steps) : Statement.sequence ss = .ok steps :=
  bind_eq_ok_iff.mpr ⟨([], steps), h.assemble, rfl⟩

theorem outlineAll (h : Assembles ss [] steps) :
    Step.outlineAll steps = Statement.outlineAll ss :=
  h.outline

theorem nil : Assembles [] [] [] where
  assemble := by rw [Statement.assemble]
  outline := by rw [Step.outlineAll_nil, Statement.outlineAll_nil]; rfl

/-- The steps of a statement are those of what is nested in it, if these are a sequence. -/
theorem bodySteps (h : Assembles children [] body) (kind : StatementKind) (line : Option Nat)
    (span : Span) : (Statement.mk kind line span children).bodySteps = .ok body := by
  rw [Statement.bodySteps]
  exact h.sequence

/-- A statement that becomes steps by itself, in front of siblings that are a sequence. -/
theorem simple {kind : StatementKind} {new : List Step} (hopening : ∀ o, kind ≠ .opening o)
    (hclause : ∀ c, kind ≠ .clause c) (hnew : kind.toSteps = .ok new) (line : Option Nat)
    (span : Span) (houtline : Step.outlineAll new = (Statement.mk kind line span []).outline)
    (h : Assembles rest [] steps) :
    Assembles (.mk kind line span [] :: rest) [] (new ++ steps) where
  assemble := by
    have hbody := nil.bodySteps kind line span
    rw [Statement.assemble, h.assemble]
    simp only [hbody, Statement.kind, bind, Except.bind, hnew]
    cases kind with
    | opening o => exact absurd rfl (hopening o)
    | clause c => exact absurd rfl (hclause c)
    | _ => rfl
  outline := by
    rw [Step.outlineAll_append, Statement.outlineAll_cons, houtline, h.outlineAll]
    rfl

/-- An opening statement takes the clauses behind it, if it admits them. -/
theorem opening {o : Opening} (hchildren : Assembles children [] body)
    (h : Assembles rest ks steps) (hadmits : o.Admits (ks.map Prod.fst)) (line : Option Nat)
    (span : Span) :
    ∃ step, Assembles (.mk (.opening o) line span children :: rest) [] (step :: steps) := by
  obtain ⟨step, hstep⟩ := Opening.toStep_of_admits hadmits body
  refine ⟨step, ?_, ?_⟩
  · rw [Statement.assemble, h.assemble]
    simp only [hchildren.bodySteps, Statement.kind, bind, Except.bind, hstep]
    rfl
  · rw [Step.outlineAll_cons, Opening.outline_of_toStep hstep, Statement.outlineAll_cons,
      Statement.outline_of_ne (fun _ => StatementKind.noConfusion), hchildren.outlineAll, ← h.outline,
      List.append_assoc]
    rfl

/-- A clause waits in front of the clauses behind it. -/
theorem clause (c : Clause) (hchildren : Assembles children [] body) (h : Assembles rest ks steps)
    (line : Option Nat) (span : Span) :
    Assembles (.mk (.clause c) line span children :: rest) ((c, body) :: ks) steps where
  assemble := by
    rw [Statement.assemble, h.assemble]
    simp only [hchildren.bodySteps, Statement.kind, bind, Except.bind]
    rfl
  outline := by
    rw [outlineClauses, Statement.outlineAll_cons,
      Statement.outline_of_ne (fun _ => StatementKind.noConfusion), hchildren.outlineAll, ← h.outline,
      List.append_assoc]

end Assembles

/-- A statement that may stand without a body becomes steps with its own outline. -/
theorem StatementKind.MayStand.exists_toSteps {inLoop : Bool} {kind : StatementKind}
    (h : kind.MayStand inLoop) (line : Option Nat) (span : Span) :
    ∃ new, kind.toSteps = .ok new ∧
      Step.outlineAll new = (Statement.mk kind line span []).outline := by
  cases kind with
  | block | opening | clause | ending => exact h.elim
  | comment text =>
    refine ⟨_, rfl, ?_⟩
    rw [Step.outlineAll_comments, Statement.outline]
  | inline i =>
    cases i with
    | declareNonlocal => exact h.elim
    | _ => exact ⟨_, rfl, by simp [Step.outline, Statement.outline, StatementKind.shown]⟩
  | _ => exact ⟨_, rfl, by simp [Step.outline, Statement.outline, StatementKind.shown]⟩

/-! ## The trees of the grammar assemble -/

/-- What trees read as a stretch become: items become steps, and clauses wait in front of the steps
behind them. -/
def Stretch.Assemble : Stretch → List Statement → Prop
  | .items, ss => ∃ steps, Assembles ss [] steps
  | .clauses cs, ss => ∀ rest steps, Assembles rest [] steps →
      ∃ ks, ks.map Prod.fst = cs ∧ Assembles (ss ++ rest) ks steps

/-- **The trees of the grammar assemble.** -/
theorem Derives.assembles {inLoop : Bool} {stretch : Stretch} {es : List Entry}
    {ss : List Statement} (h : Derives inLoop stretch es ss) :
    stretch.Assemble (Statement.hollowAll ss) := by
  induction h with
  | nil =>
    rw [Statement.hollowAll_nil]
    exact ⟨[], .nil⟩
  | text text _ ih =>
    obtain ⟨steps, ih⟩ := ih
    rw [Statement.hollowAll_cons, Statement.hollow_ofText]
    exact ⟨_, ih.simple (fun _ => StatementKind.noConfusion) (fun _ => StatementKind.noConfusion)
      rfl none ⟨0, 0⟩ (by simp [Step.outline, Statement.outline, StatementKind.shown])⟩
  | @simple _ _ _ item stands _ ih =>
    obtain ⟨steps, ih⟩ := ih
    obtain ⟨new, hnew, houtline⟩ := stands.exists_toSteps (some item.line) item.span
    rw [Statement.hollowAll_cons, Statement.hollow_toStatement_of_ne stands.ne_block,
      Statement.hollowAll_nil]
    refine ⟨_, ih.simple ?_ ?_ hnew (some item.line) item.span houtline⟩
    · rintro o ho
      rw [ho] at stands
      exact stands
    · rintro c hc
      rw [hc] at stands
      exact stands
  | @block _ _ _ _ _ item _ name opens _ _ _ _ ih =>
    obtain ⟨steps, ih⟩ := ih
    rw [Statement.hollowAll_cons, Statement.hollow_toStatement_block opens, Item.toStatement, opens]
    exact ⟨_, ih.simple (fun _ => StatementKind.noConfusion) (fun _ => StatementKind.noConfusion)
      rfl _ _ (by simp [Step.outline, Statement.outline, StatementKind.shown])⟩
  | scope opens admits _ _ _ _ ihBody ihClauses ih =>
    obtain ⟨body, ihBody⟩ := ihBody
    obtain ⟨steps, ih⟩ := ih
    obtain ⟨ks, hks, ihClauses⟩ := ihClauses _ steps ih
    rw [Statement.hollowAll_cons,
      Statement.hollow_toStatement_of_ne (Item.ne_block_of_opening opens),
      Statement.hollowAll_append, Item.toStatement, opens]
    obtain ⟨step, hstep⟩ := ihBody.opening ihClauses (hks.symm ▸ admits) _ _
    exact ⟨_, hstep⟩
  | noClause =>
    intro rest steps hrest
    rw [Statement.hollowAll_nil]
    exact ⟨[], rfl, hrest⟩
  | @clause _ _ _ _ _ item c _ opens _ _ ihBody ih =>
    intro rest steps hrest
    obtain ⟨body, ihBody⟩ := ihBody
    obtain ⟨ks, hks, ih⟩ := ih rest steps hrest
    rw [Statement.hollowAll_cons,
      Statement.hollow_toStatement_of_ne (Item.ne_block_of_clause opens), Item.toStatement, opens,
      List.cons_append]
    exact ⟨(c, body) :: ks, by rw [List.map_cons, hks], ihBody.clause c ih _ _⟩

/-- The bodies of the blocks in the trees of the grammar assemble. -/
theorem Derives.assembles_of_mem_bodiesAll {inLoop : Bool} {stretch : Stretch} {es : List Entry}
    {ss : List Statement} (h : Derives inLoop stretch es ss) :
    ∀ b ∈ Statement.bodiesAll ss, ∃ steps, Assembles b.body [] steps := by
  induction h with
  | nil | noClause =>
    rw [Statement.bodiesAll_nil]
    exact fun b hb => absurd hb List.not_mem_nil
  | text text _ ih =>
    rw [Statement.bodiesAll_cons, Statement.bodies_ofText]
    exact ih
  | simple stands _ ih =>
    rw [Statement.bodiesAll_cons, Statement.bodies_toStatement_of_ne stands.ne_block,
      Statement.bodiesAll_nil]
    exact ih
  | block opens _ nested _ ihBody ih =>
    rw [Statement.bodiesAll_cons, Statement.bodies_toStatement_block opens]
    intro b hb
    rcases List.mem_append.mp hb with hb | hb
    · rcases List.mem_append.mp hb with hb | hb
      · exact ihBody b hb
      · obtain rfl := List.mem_singleton.mp hb
        exact nested.assembles
    · exact ih b hb
  | scope opens _ _ _ _ _ ihBody ihClauses ih =>
    rw [Statement.bodiesAll_cons,
      Statement.bodies_toStatement_of_ne (Item.ne_block_of_opening opens),
      Statement.bodiesAll_append]
    intro b hb
    rcases List.mem_append.mp hb with hb | hb
    · exact ihBody b hb
    · exact (List.mem_append.mp hb).elim (ihClauses b) (ih b)
  | clause opens _ _ ihBody ih =>
    rw [Statement.bodiesAll_cons,
      Statement.bodies_toStatement_of_ne (Item.ne_block_of_clause opens)]
    exact fun b hb => (List.mem_append.mp hb).elim (ihBody b) (ih b)

/-! ## The program of a document -/

theorem mem_storeAll {bodies : List BlockBody} {blocks : Dict BlockBody}
    {entry : String × BlockBody} (h : entry ∈ storeAll blocks bodies) :
    entry ∈ blocks ∨ entry.2 ∈ bodies ∧ entry.1 = entry.2.name := by
  induction bodies generalizing blocks with
  | nil => exact Or.inl h
  | cons b bodies ih =>
    rcases ih h with h | ⟨h, hname⟩
    · rcases Dict.mem_insert h with rfl | h
      · exact Or.inr ⟨List.mem_cons_self .., rfl⟩
      · exact Or.inl h
    · exact Or.inr ⟨List.mem_cons_of_mem _ h, hname⟩

/-- If a computation succeeds on all members of a list, and what it gives looks like what it was
given, then the list it gives looks like the list it was given. -/
theorem exists_mapM_eq_ok {ε α β γ : Type} {f : α → Except ε β} {g : β → γ} {g' : α → γ}
    {as : List α} (h : ∀ a ∈ as, ∃ b, f a = .ok b ∧ g b = g' a) :
    ∃ bs, as.mapM f = .ok bs ∧ bs.map g = as.map g' := by
  induction as with
  | nil => exact ⟨[], rfl, rfl⟩
  | cons a as ih =>
    obtain ⟨b, hb, hg⟩ := h a (List.mem_cons_self ..)
    obtain ⟨bs, hbs, hmap⟩ := ih fun a ha => h a (List.mem_cons_of_mem _ ha)
    refine ⟨b :: bs, mapM_cons_eq_ok_iff.mpr ⟨b, bs, hb, hbs, rfl⟩, ?_⟩
    rw [List.map_cons, List.map_cons, hg, hmap]

/-- A program has the outlines of a document whose path is `origin`: that of its statements, and
for each block in the table that of its body. -/
structure Program.Outlines (p : Program) (origin : String) (d : Document) : Prop where
  body : Step.outlineAll p.body = Statement.outlineAll d.statements
  blocks : p.blocks.map (fun (key, b) => (key, b.name, b.origin, Step.outlineAll b.body)) =
    d.blocks.map fun (key, b) => (key, b.name, origin, Statement.outlineAll b.body)

/-- What is told apart by a function is told apart in each place of a list. -/
theorem map_eq_map_of_imp {α β γ : Type} {f : α → β} {g : α → γ} (hfg : ∀ a a', f a = f a' → g a = g a') :
    ∀ {as as' : List α}, as.map f = as'.map f → as.map g = as'.map g
  | [], [], _ => rfl
  | a :: as, a' :: as', h => by
    obtain ⟨ha, has⟩ := List.cons.inj h
    rw [List.map_cons, List.map_cons, hfg a a' ha, map_eq_map_of_imp hfg has]

/-- **The outlines of a document determine the program**, but for comments. -/
theorem Program.Outlines.bare_eq {p p' : Program} {origin : String} {d : Document}
    (h : p.Outlines origin d) (h' : p'.Outlines origin d) : p.bare = p'.bare := by
  have hbody : Step.bareAll p.body = Step.bareAll p'.body :=
    Step.bareAll_eq_of_outlineAll_eq (h.body.trans h'.body.symm)
  have hblocks : p.bare.blocks = p'.bare.blocks := by
    refine map_eq_map_of_imp (fun (key, b) (key', b') heq => ?_) (h.blocks.trans h'.blocks.symm)
    simp only [Prod.mk.injEq] at heq
    obtain ⟨hkey, hname, horigin, hsteps⟩ := heq
    simp only [Prod.mk.injEq, BlockProgram.mk.injEq]
    exact ⟨hkey, hname, horigin, Step.bareAll_eq_of_outlineAll_eq hsteps⟩
  rw [Program.bare, Program.bare, hbody]
  exact congrArg _ hblocks

/-- The document of a well nested template has a program with its outlines. -/
theorem WellNested.exists_program {es : List Entry} {trees : List Statement}
    (h : WellNested es trees) (origin : String) :
    ∃ p, (Document.ofTrees trees).compile origin = .ok p ∧
      p.Outlines origin (Document.ofTrees trees) := by
  obtain ⟨body, hbody⟩ := h.derives.assembles
  obtain ⟨blocks, hblocks, hmap⟩ : ∃ blocks : Dict BlockProgram,
      (Document.ofTrees trees).blocks.mapM (fun (key, b) => do
        return (key, BlockProgram.mk b.name origin (← Statement.sequence b.body))) =
          Except.ok (ε := Error) blocks ∧
        blocks.map (fun (key, b) => (key, b.name, b.origin, Step.outlineAll b.body)) =
          (Document.ofTrees trees).blocks.map fun (key, b) =>
            (key, b.name, origin, Statement.outlineAll b.body) := by
    refine exists_mapM_eq_ok fun (key, b) hmem => ?_
    obtain ⟨hb, -⟩ := (mem_storeAll hmem).resolve_left List.not_mem_nil
    obtain ⟨steps, hsteps⟩ := h.derives.assembles_of_mem_bodiesAll b hb
    refine ⟨(key, ⟨b.name, origin, steps⟩), bind_eq_ok_iff.mpr ⟨steps, hsteps.sequence, rfl⟩, ?_⟩
    show (key, b.name, origin, Step.outlineAll steps) =
      (key, b.name, origin, Statement.outlineAll b.body)
    rw [hsteps.outlineAll]
  refine ⟨⟨body, blocks⟩, ?_, hbody.outlineAll, hmap⟩
  exact bind_eq_ok_iff.mpr ⟨body, hbody.sequence, bind_eq_ok_iff.mpr ⟨blocks, hblocks, rfl⟩⟩

/-- **Every template that parses has a program, and the program is the template.**  None of the
refusals of `Document.compile` is met.  The steps have the outline of the statements, and so have the
bodies of the blocks: no statement and no clause is lost, doubled, moved or taken by another
statement.  Any program of which this is true is the same program, but for comments. -/
theorem Document.compile_of_parse {config : Config} {file : String} {source : List Char}
    {d : Document} (h : Document.parse config file source = .ok d) (origin : String) :
    ∃ p, d.compile origin = .ok p ∧
      Step.outlineAll p.body = Statement.outlineAll d.statements ∧
      p.blocks.map (fun (key, b) => (key, b.name, b.origin, Step.outlineAll b.body)) =
        d.blocks.map (fun (key, b) => (key, b.name, origin, Statement.outlineAll b.body)) ∧
      ∀ p' : Program, p'.Outlines origin d → p'.bare = p.bare := by
  obtain ⟨es, trees, hnested, rfl⟩ := Document.wellNested_of_parse h
  obtain ⟨p, hp, houtlines⟩ := hnested.exists_program origin
  exact ⟨p, hp, houtlines.body, houtlines.blocks, fun _ h' => h'.bare_eq houtlines⟩

/-- A template with a choice in a block, and behind it a `try` with all that may follow one. -/
theorem Document.compile_of_parse_clauses :
    ∃ d, Document.parse Config.default "page.html"
        ("<% block a %>1<% if x %>2<% elif y %>3<% else %>4<% end %><% end %>" ++
          "<% try %>5<% except KeyError as k %>6<% except Exception as e %>7<% else %>8" ++
          "<% finally %>9<% end %>").toList = .ok d ∧
      ∃ p, d.compile "page.html" = .ok p ∧
        Step.outlineAll p.body = Statement.outlineAll d.statements ∧
        p.blocks.map (fun (key, b) => (key, b.name, b.origin, Step.outlineAll b.body)) =
          d.blocks.map (fun (key, b) => (key, b.name, "page.html", Statement.outlineAll b.body)) ∧
        ∀ p' : Program, p'.Outlines "page.html" d → p'.bare = p.bare := by
  obtain ⟨d, hd⟩ := exists_eq_ok_of_isOk (x := Document.parse Config.default "page.html"
    ("<% block a %>1<% if x %>2<% elif y %>3<% else %>4<% end %><% end %>" ++
      "<% try %>5<% except KeyError as k %>6<% except Exception as e %>7<% else %>8" ++
      "<% finally %>9<% end %>").toList)
    (by decide +kernel)
  exact ⟨d, hd, Document.compile_of_parse hd "page.html"⟩

end Inlay
