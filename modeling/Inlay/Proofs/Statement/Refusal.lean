import Inlay.Proofs.Statement.Nesting

/-!
# Why a template does not parse

An error of the parser is about a statement: the one that cannot be told or pushed, or the one that
opened a scope which is closed too early or not at all.  A nesting remembers where its scopes and its
blocks were opened, and these are statements that have been pushed.  None of the errors that rendering
raises is among them, nor an inner error.

* `Error.Cites`: the error is about the statement at a place.
* `Nesting.Records`: what a nesting remembers, it remembers of the segments behind it.
* `Nesting.Records.pushSegment`, `Nesting.Records.foldlM`: one segment more, and many.
* `Document.cites_of_parse`: the error of a source cites a statement of the source, unless a statement is
  not closed.
* `Document.exists_place_of_parse`: the error of a source that does not parse has a place.
-/

namespace Inlay

section

variable {ε α β : Type}

theorem bind_eq_error_iff {x : Except ε α} {f : α → Except ε β} {e : ε} :
    x >>= f = .error e ↔ x = .error e ∨ ∃ a, x = .ok a ∧ f a = .error e := by
  cases x with
  | error e' => simp [bind, Except.bind]
  | ok a => simp [bind, Except.bind]

end

variable {config : Config} {file : String}

/-! ## What is cited -/

/-- **The error is about the statement at a place**, with this text, that stands behind these segments.
In a conflict of blocks it is a block statement, and the line that is named is that of another one among
the segments that has the same name. -/
def Error.Cites (config : Config) (earlier : List Segment) (text : List Char) (place : Place) :
    Error → Prop
  | .malformed why p => p = place ∧ why ≠ .missingEndMark
  | .unknownStatement _ p => p = place
  | .blockConflict name first p => p = place ∧
      Nesting.classify config place text = .ok (.block name) ∧ ∃ text' span,
        .statement text' first span ∈ earlier ∧
          Nesting.classify config ⟨place.file, first, span⟩ text' = .ok (.block name)
  | _ => False

/-- The error is about one of the statements in a row of segments. -/
def Error.CitesAmong (config : Config) (file : String) (segments : List Segment) (e : Error) : Prop :=
  ∃ earlier text line span later, segments = earlier ++ .statement text line span :: later ∧
    e.Cites config earlier text ⟨file, line, span⟩

namespace Error

theorem Cites.place?_eq {earlier : List Segment} {text : List Char} {place : Place} {e : Error}
    (h : e.Cites config earlier text place) : e.place? = some place := by
  cases e with
  | malformed why p => exact congrArg some h.1
  | unknownStatement statement p => exact congrArg some h
  | blockConflict name first p => exact congrArg some h.1
  | _ => exact h.elim

theorem CitesAmong.append {segments : List Segment} {e : Error}
    (h : e.CitesAmong config file segments) (more : List Segment) :
    e.CitesAmong config file (segments ++ more) := by
  obtain ⟨earlier, text, line, span, later, rfl, hcites⟩ := h
  exact ⟨earlier, text, line, span, later ++ more, by simp, hcites⟩

/-- A statement of the row is malformed. -/
theorem citesAmong_malformed {segments : List Segment} {text : List Char} {line : Nat} {span : Span}
    (h : .statement text line span ∈ segments) {why : SyntaxFault} (hwhy : why ≠ .missingEndMark) :
    (malformed why ⟨file, line, span⟩).CitesAmong config file segments := by
  obtain ⟨earlier, later, rfl⟩ := List.append_of_mem h
  exact ⟨earlier, text, line, span, later, rfl, rfl, hwhy⟩

end Error

/-! ## Statements that cannot be told

The text of a statement is behind its marks, so no grammar says that an end mark is missing. -/

namespace Grammar

variable {text rest : List Char} {keyword : String}

theorem map_ne {α β : Type} {f : α → β} {x : Except SyntaxFault α}
    (h : x ≠ .error .missingEndMark) : x.map f ≠ .error .missingEndMark := by
  cases x with
  | error why =>
    intro heq
    cases heq
    exact h rfl
  | ok a => nofun

theorem readHead_ne {σ α : Type} (what : String) (m : Automaton σ α) (text : List Char) :
    readHead what m text ≠ .error .missingEndMark := by
  rw [readHead]
  split <;> simp

theorem claim_ne {σ α : Type} (what : String) (m : Automaton σ α) (text : List Char)
    (make : α → StatementKind) : claim what m text make ≠ .error .missingEndMark :=
  map_ne (readHead_ne what m text)

theorem bare_ne (text : List Char) (kind : StatementKind) :
    bare text kind ≠ .error .missingEndMark :=
  nofun

attribute [local simp] claim_ne bare_ne

theorem matchOpening_ne : matchOpening keyword rest ≠ .error .missingEndMark := by
  unfold matchOpening matchFor matchWith
  split
  case h_6 => split <;> simp
  all_goals simp

theorem matchClause_ne : matchClause keyword rest ≠ .error .missingEndMark := by
  unfold matchClause
  split <;> simp

theorem matchInline_ne : matchInline keyword rest ≠ .error .missingEndMark := by
  unfold matchInline
  split
  case h_5 => split <;> simp
  all_goals simp

theorem matchOutput_ne : matchOutput config text ≠ .error .missingEndMark := by
  unfold matchOutput
  split
  · simp
  · dsimp only
    split
    · simp
    · split <;> simp
  · simp

theorem readAssignment_ne : readAssignment rest ≠ .error .missingEndMark := by
  unfold readAssignment
  split
  · dsimp only
    split
    · simp
    · split
      · simp
      · exact map_ne (readHead_ne _ _ _)
  · simp

theorem match?_ne (g : Grammar) : g.match? config text ≠ .error .missingEndMark := by
  unfold match?
  cases g with
  | block =>
    unfold matchBlock
    dsimp only
    split
    · simp
    · split <;> simp
  | opening => exact matchOpening_ne
  | clause => exact matchClause_ne
  | inline => exact matchInline_ne
  | output => exact matchOutput_ne
  | ending => simp
  | assignment =>
    dsimp only
    split
    · exact map_ne readAssignment_ne
    · simp
  | inclusion | inheritance | comment =>
    dsimp only
    split <;> simp

end Grammar

theorem Config.firstMatch_ne {text : List Char} (grammars : List Grammar) :
    config.firstMatch text grammars ≠ .error .missingEndMark := by
  induction grammars with
  | nil => nofun
  | cons g grammars ih =>
    intro h
    rcases bind_eq_error_iff.mp h with h | ⟨found, -, h⟩
    · exact Grammar.match?_ne g h
    · cases found with
      | none => exact ih h
      | some kind => cases h

/-- A statement that cannot be told is the one that the error is about. -/
theorem Nesting.cites_of_classify {place : Place} {text : List Char} {e : Error}
    (h : classify config place text = .error e) (earlier : List Segment) :
    e.Cites config earlier text place := by
  unfold classify at h
  dsimp only at h
  split at h
  · obtain rfl := Except.error.inj h
    exact ⟨rfl, nofun⟩
  · split at h
    · rename_i why hwhy
      obtain rfl := Except.error.inj h
      refine ⟨rfl, ?_⟩
      rintro rfl
      exact Config.firstMatch_ne _ hwhy
    · obtain rfl := Except.error.inj h
      rfl
    · cases h

/-! ## What a nesting remembers -/

namespace Nesting

/-- **What a nesting remembers, it remembers of the segments behind it**: its scopes were opened by
statements among them, and the lines of its blocks are those of block statements among them. -/
structure Records (config : Config) (file : String) (seen : List Segment) (n : Nesting) : Prop where
  scopes : ∀ s ∈ n.scopes, ∃ text, .statement text s.item.line s.item.span ∈ seen
  blocks : ∀ {name first}, n.blockLines.get? name = some first → ∃ text span,
    .statement text first span ∈ seen ∧ classify config ⟨file, first, span⟩ text = .ok (.block name)

namespace Records

variable {seen : List Segment} {n n' : Nesting} {item : Item} {top : OpenScope}
  {rest : List OpenScope} {text : List Char}

theorem empty (config : Config) (file : String) : Records config file [] .empty :=
  ⟨fun _ h => absurd h List.not_mem_nil, fun h => absurd h (Option.some_ne_none _).symm⟩

theorem mono (h : Records config file seen n) {seen' : List Segment} (hseen : seen ⊆ seen') :
    Records config file seen' n := by
  constructor
  · intro s hs
    obtain ⟨text, htext⟩ := h.scopes s hs
    exact ⟨text, hseen htext⟩
  · intro name first hfirst
    obtain ⟨text, span, htext, hblock⟩ := h.blocks hfirst
    exact ⟨text, span, hseen htext, hblock⟩

/-- Only the items of the open scopes matter, not what is nested in them. -/
theorem attach (h : Records config file seen n) (s : Statement) :
    Records config file seen (n.attach s) := by
  obtain ⟨statements, scopes, blocks, blockLines⟩ := n
  cases scopes with
  | nil => exact ⟨h.scopes, h.blocks⟩
  | cons top rest =>
    obtain ⟨htop, hrest⟩ := List.forall_mem_cons.mp h.scopes
    exact ⟨List.forall_mem_cons.mpr ⟨htop, hrest⟩, h.blocks⟩

theorem close (h : Records config file seen n) (s : OpenScope) :
    Records config file seen (n.close s) := by
  have hstored (blocks : Dict BlockBody) : Records config file seen { n with blocks := blocks } :=
    ⟨h.scopes, h.blocks⟩
  rw [Nesting.close]
  split
  · exact (hstored _).attach _
  · exact h.attach _

theorem openScope (h : Records config file seen n)
    (hitem : .statement text item.line item.span ∈ seen) (chain : Chain) :
    Records config file seen (n.openScope item chain) :=
  ⟨List.forall_mem_cons.mpr ⟨⟨text, hitem⟩, h.scopes⟩, h.blocks⟩

/-- The innermost scope taken off. -/
theorem outer (h : Records config file seen n) (hscopes : n.scopes = top :: rest) :
    Records config file seen { n with scopes := rest } :=
  ⟨fun s hs => h.scopes s (hscopes ▸ List.mem_cons_of_mem _ hs), h.blocks⟩

theorem openBlock (h : Records config file seen n)
    (hitem : .statement text item.line item.span ∈ seen) {name : String}
    (hkind : item.kind = .block name)
    (hblock : classify config ⟨file, item.line, item.span⟩ text = .ok item.kind) :
    Records config file seen (n.openBlock item) := by
  suffices hlines : Records config file seen
      { n with blockLines := note n.blockLines (.item item) } from hlines.openScope hitem .block
  refine ⟨h.scopes, fun {other first} hfirst => ?_⟩
  by_cases hname : other = name
  · subst hname
    have hline : (note n.blockLines (.item item)).get? other = some item.line := by
      obtain ⟨kind, line, span⟩ := item
      obtain rfl : kind = .block other := hkind
      exact Dict.get?_insert_self ..
    obtain rfl := Option.some.inj (hline.symm.trans hfirst)
    exact ⟨text, item.span, hitem, hkind ▸ hblock⟩
  · have hne : (Entry.item item).block? ≠ some other := by
      rw [Entry.block?_item hkind]
      exact fun heq => hname (Option.some.inj heq).symm
    rw [get?_note_of_ne hne] at hfirst
    exact h.blocks hfirst

/-- A statement pushed. -/
theorem push (h : Records config file seen n)
    (hitem : .statement text item.line item.span ∈ seen)
    (hkind : classify config ⟨file, item.line, item.span⟩ text = .ok item.kind)
    (hpush : n.push file item = .ok n') : Records config file seen n' := by
  cases push_eq_ok_iff.mp hpush with
  | simple stands => exact h.attach _
  | opening opens => exact h.openScope hitem _
  | block opens new => exact h.openBlock hitem opens hkind
  | clause opens scopes follows => exact ((h.outer scopes).close _).openScope hitem _
  | ending ends scopes whole => exact (h.outer scopes).close _

/-- **A statement that cannot be pushed**: the error is about this statement, or about the one that
opened the innermost scope. -/
theorem citesAmong_of_push (h : Records config file seen n)
    (hkind : classify config ⟨file, item.line, item.span⟩ text = .ok item.kind) {e : Error}
    (hpush : n.push file item = .error e) :
    e.CitesAmong config file (seen ++ [.statement text item.line item.span]) := by
  have hlast : Segment.statement text item.line item.span ∈
      seen ++ [.statement text item.line item.span] :=
    List.mem_append_right _ (List.mem_singleton_self _)
  unfold Nesting.push at hpush
  split at hpush
  · unfold pushClause at hpush
    split at hpush
    · obtain rfl := Except.error.inj hpush
      exact Error.citesAmong_malformed hlast nofun
    · split at hpush
      · cases hpush
      · obtain rfl := Except.error.inj hpush
        exact Error.citesAmong_malformed hlast nofun
  · unfold pushEnding at hpush
    split at hpush
    · obtain rfl := Except.error.inj hpush
      exact Error.citesAmong_malformed hlast nofun
    · rename_i top rest hscopes
      split at hpush
      · obtain rfl := Except.error.inj hpush
        obtain ⟨opener, hopener⟩ := h.scopes top (hscopes ▸ List.mem_cons_self ..)
        have hcites : (malformed file top.item .unfinishedTry).CitesAmong config file seen :=
          Error.citesAmong_malformed hopener nofun
        exact hcites.append _
      · cases hpush
  · rename_i name hblock
    unfold pushBlock at hpush
    split at hpush
    · rename_i first hfirst
      obtain rfl := Except.error.inj hpush
      exact ⟨seen, text, item.line, item.span, [], rfl, rfl, hblock ▸ hkind, h.blocks hfirst⟩
    · cases hpush
  · cases hpush
  · split at hpush
    · cases hpush
    · rename_i kind _ _ _ _ why hwhy
      obtain rfl := Except.error.inj hpush
      refine Error.citesAmong_malformed hlast ?_
      rintro rfl
      unfold checkInline at hwhy
      split at hwhy
      · split at hwhy <;> cases hwhy
      · split at hwhy <;> cases hwhy
      · cases hwhy
      · cases hwhy

/-- One segment more. -/
theorem pushSegment (h : Records config file seen n) {segment : Segment}
    (hpush : n.pushSegment config file segment = .ok n') :
    Records config file (seen ++ [segment]) n' := by
  have h := h.mono (List.subset_append_left seen [segment])
  cases segment with
  | plain text =>
    obtain rfl := Except.ok.inj hpush
    exact h.attach _
  | statement text line span =>
    obtain ⟨kind, hkind, hpush⟩ := bind_eq_ok_iff.mp hpush
    have hlast : Segment.statement text line span ∈ seen ++ [.statement text line span] :=
      List.mem_append_right _ (List.mem_singleton_self _)
    have hpush : n.push file ⟨kind, line, span⟩ = .ok n' := hpush
    exact h.push hlast hkind hpush

/-- A segment that cannot be pushed. -/
theorem citesAmong_of_pushSegment (h : Records config file seen n) {segment : Segment} {e : Error}
    (hpush : n.pushSegment config file segment = .error e) :
    e.CitesAmong config file (seen ++ [segment]) := by
  cases segment with
  | plain text => cases hpush
  | statement text line span =>
    rcases bind_eq_error_iff.mp hpush with hkind | ⟨kind, hkind, hpush⟩
    · exact ⟨seen, text, line, span, [], rfl, cites_of_classify hkind seen⟩
    · have hpush : n.push file ⟨kind, line, span⟩ = .error e := hpush
      exact h.citesAmong_of_push hkind hpush

/-- Many segments more. -/
theorem foldlM (h : Records config file seen n) {segments : List Segment}
    (hpush : segments.foldlM (Nesting.pushSegment config file) n = .ok n') :
    Records config file (seen ++ segments) n' := by
  induction segments generalizing seen n with
  | nil =>
    obtain rfl := Except.ok.inj hpush
    rwa [List.append_nil]
  | cons segment segments ih =>
    obtain ⟨n₁, hfirst, hrest⟩ := foldlM_cons_eq_ok_iff.mp hpush
    have hbehind := ih (h.pushSegment hfirst) hrest
    rwa [List.append_assoc] at hbehind

/-- Segments that cannot be pushed. -/
theorem citesAmong_of_foldlM (h : Records config file seen n) {segments : List Segment} {e : Error}
    (hpush : segments.foldlM (Nesting.pushSegment config file) n = .error e) :
    e.CitesAmong config file (seen ++ segments) := by
  induction segments generalizing seen n with
  | nil => exact absurd hpush nofun
  | cons segment segments ih =>
    rw [List.append_cons]
    rw [List.foldlM_cons] at hpush
    rcases bind_eq_error_iff.mp hpush with hfirst | ⟨n₁, hfirst, hrest⟩
    · exact (h.citesAmong_of_pushSegment hfirst).append segments
    · exact ih (h.pushSegment hfirst) hrest

/-- A scope that is still open at the end of the source: the error is about the statement that opened
it. -/
theorem citesAmong_of_finish (h : Records config file seen n) {e : Error}
    (hfinish : n.finish file = .error e) : e.CitesAmong config file seen := by
  unfold Nesting.finish at hfinish
  split at hfinish
  · cases hfinish
  · rename_i top rest hscopes
    obtain rfl := Except.error.inj hfinish
    obtain ⟨opener, hopener⟩ := h.scopes top (hscopes ▸ List.mem_cons_self ..)
    exact Error.citesAmong_malformed hopener nofun

end Records

end Nesting

/-! ## Sources that do not parse -/

/-- **The error of a source that does not parse is about a statement of the source**, unless some
statement is not closed. -/
theorem Document.cites_of_parse {source : List Char} {e : Error}
    (h : Document.parse config file source = .error e) :
    Segment.scan file source = .error e ∨
      ∃ segments, Segment.scan file source = .ok segments ∧ e.CitesAmong config file segments := by
  rcases bind_eq_error_iff.mp h with h | ⟨segments, hsegments, h⟩
  · exact Or.inl h
  · have hempty := Nesting.Records.empty config file
    refine Or.inr ⟨segments, hsegments, ?_⟩
    rcases bind_eq_error_iff.mp h with h | ⟨n, hfold, hfinish⟩
    · exact hempty.citesAmong_of_foldlM h
    · exact (hempty.foldlM hfold).citesAmong_of_finish hfinish

/-- The error of a source that does not parse points into the source. -/
theorem Document.exists_place_of_parse {source : List Char} {e : Error}
    (h : Document.parse config file source = .error e) : ∃ place, e.place? = some place := by
  rcases Document.cites_of_parse h with h | ⟨segments, -, earlier, text, line, span, later, -, hcites⟩
  · unfold Segment.scan at h
    split at h
    · cases h
    · obtain rfl := Except.error.inj h
      exact ⟨_, rfl⟩
  · exact ⟨_, hcites.place?_eq⟩

end Inlay
