import Inlay.Statement.Nesting
import Mathlib

/-!
# The order of the grammars

No two grammars claim one text.  A grammar with keywords claims only texts that begin with one of them, the
comments begin with their sign, and an output statement has an equals sign behind its first word, which is
then the name of a filter and, unless a filter is called like a statement, no keyword.  So what a text is
does not depend on the order in which the grammars are tried, and neither does the tree of a source.

* `Grammar.keywords`: the words that the texts of a grammar begin with.
* `Grammar.candidate?`: the grammar that a text looks like.
* `Grammar.candidate?_of_claims`: no other grammar claims the text.
* `Config.firstMatch_congr`: of a row of grammars only the members matter.
* `Config.classifies_in_any_order`: every order of the grammars tells the same statements.
-/

namespace Inlay

namespace Grammar

variable {config : Config} {text rest : List Char} {keyword : String}

/-! ## The looks of a text -/

/-- The words that the texts of a grammar begin with.  Comments and output statements have none. -/
def keywords : Grammar → List String
  | block => ["block"]
  | inclusion => ["include"]
  | inheritance => ["inherit"]
  | opening => ["if", "while", "for", "with", "try", "async"]
  | ending => ["end"]
  | clause => ["elif", "else", "except", "finally"]
  | inline => ["break", "continue", "import", "from", "raise", "global", "nonlocal", "assert"]
  | comment => []
  | output => []
  | assignment => ["let"]

/-- The words that statements begin with. -/
def allKeywords : List String :=
  defaultOrder.flatMap keywords

/-- The grammar that has the keyword. -/
def ofKeyword? (word : String) : Option Grammar :=
  defaultOrder.find? fun g => g.keywords.contains word

/-- The grammar of a text that begins with no keyword, by the character behind its first word. -/
def ofSign? : Option Char → Option Grammar
  | some '=' => some output
  | some '#' => some comment
  | _ => none

/-- The grammar that a text looks like: that of its keyword, or else that of the sign behind its first
word. -/
def candidate? (text : List Char) : Option Grammar :=
  (ofKeyword? (splitKeyword text).1).or (ofSign? (text.dropWhile isWordPart).head?)

theorem mem_defaultOrder (g : Grammar) : g ∈ defaultOrder := by
  cases g <;> decide

theorem mem_allKeywords {g : Grammar} (h : keyword ∈ g.keywords) : keyword ∈ allKeywords :=
  List.mem_flatMap_of_mem (mem_defaultOrder g) h

/-- No two grammars share a keyword. -/
theorem ofKeyword?_of_mem {g : Grammar} (h : keyword ∈ g.keywords) : ofKeyword? keyword = some g := by
  have hall : ∀ g ∈ defaultOrder, ∀ word ∈ g.keywords, ofKeyword? word = some g := by decide
  exact hall g (mem_defaultOrder g) keyword h

/-- What is no keyword has no grammar. -/
theorem ofKeyword?_of_not_mem (h : keyword ∉ allKeywords) : ofKeyword? keyword = none := by
  refine List.find?_eq_none.mpr fun g _ hg => h ?_
  exact mem_allKeywords (List.contains_iff_mem.mp hg)

/-! ## What a grammar claims -/

/-- The grammar does not leave the text to the others: the text is one of its statements, or a malformed
one. -/
def Claims (config : Config) (g : Grammar) (text : List Char) : Prop :=
  g.match? config text ≠ .ok none

theorem mem_keywords_of_matchBlock (h : matchBlock keyword rest ≠ .ok none) :
    keyword ∈ block.keywords := by
  by_contra hkeyword
  refine h (if_pos ?_)
  simpa [keywords] using hkeyword

theorem mem_keywords_of_matchOpening (h : matchOpening keyword rest ≠ .ok none) :
    keyword ∈ opening.keywords := by
  unfold matchOpening at h
  split at h
  case h_7 => exact absurd rfl h
  all_goals decide

theorem mem_keywords_of_matchClause (h : matchClause keyword rest ≠ .ok none) :
    keyword ∈ clause.keywords := by
  unfold matchClause at h
  split at h
  case h_5 => exact absurd rfl h
  all_goals decide

theorem mem_keywords_of_matchInline (h : matchInline keyword rest ≠ .ok none) :
    keyword ∈ inline.keywords := by
  unfold matchInline at h
  split at h
  case h_9 => exact absurd rfl h
  all_goals decide

/-- **A grammar other than those of comments and of output statements claims only texts that begin with one
of its keywords.** -/
theorem Claims.mem_keywords {g : Grammar} (h : g.Claims config text) (hcomment : g ≠ comment)
    (houtput : g ≠ output) : (splitKeyword text).1 ∈ g.keywords := by
  unfold Claims match? at h
  cases g with
  | block => exact mem_keywords_of_matchBlock h
  | opening => exact mem_keywords_of_matchOpening h
  | clause => exact mem_keywords_of_matchClause h
  | inline => exact mem_keywords_of_matchInline h
  | comment => exact absurd rfl hcomment
  | output => exact absurd rfl houtput
  | ending =>
    have htext : text = "end".toList := by
      by_contra hne
      exact h (congrArg Except.ok (if_neg fun heq => hne (beq_iff_eq.mp heq)))
    rw [htext]
    decide
  | inclusion | inheritance | assignment =>
    by_contra hkeyword
    exact h (if_neg fun heq => hkeyword (List.mem_singleton.mpr (beq_iff_eq.mp heq)))

/-- A comment begins with its sign, so its first word is empty. -/
theorem Claims.exists_of_comment (h : comment.Claims config text) : ∃ rest, text = '#' :: rest := by
  unfold Claims match? at h
  dsimp only at h
  split at h
  · exact ⟨_, rfl⟩
  · exact absurd rfl h

/-- An output statement has an equals sign behind the name of a filter or behind nothing. -/
theorem Claims.of_output (h : output.Claims config text) :
    (text.dropWhile isWordPart).head? = some '=' ∧
      ((splitKeyword text).1.isEmpty ∨ (config.filter? (splitKeyword text).1).isSome) := by
  unfold Claims match? matchOutput at h
  dsimp only at h
  split at h
  · exact absurd rfl h
  · rename_i source hsource
    refine ⟨by rw [hsource]; rfl, ?_⟩
    by_contra hnone
    obtain ⟨hword, hfilter⟩ := not_or.mp hnone
    rw [splitKeyword] at hword hfilter
    rw [Option.not_isSome_iff_eq_none] at hfilter
    simp only [if_neg hword, hfilter] at h
    exact h rfl
  · exact absurd rfl h

end Grammar

/-! ## At most one grammar claims a text -/

/-- No filter of the configuration is called like a statement. -/
def Config.SparesKeywords (config : Config) : Prop :=
  ∀ word ∈ Grammar.allKeywords, config.filters.get? word = none

namespace Grammar

variable {config : Config} {text : List Char}

/-- An output statement begins with no keyword. -/
theorem Claims.not_mem_allKeywords (h : output.Claims config text) (hconfig : config.SparesKeywords) :
    (splitKeyword text).1 ∉ allKeywords := by
  intro hword
  have hall : ∀ word ∈ allKeywords, word.isEmpty = false ∧ (word == "default") = false := by decide
  obtain ⟨hempty, hdefault⟩ := hall _ hword
  rcases h.of_output.2 with hsome | hsome
  · rw [hempty] at hsome
    cases hsome
  · rw [Config.filter?, hconfig _ hword, hdefault] at hsome
    cases hsome

/-- **Only the grammar that a text looks like claims it.** -/
theorem candidate?_of_claims (hconfig : config.SparesKeywords) {g : Grammar}
    (h : g.Claims config text) : candidate? text = some g := by
  by_cases hcomment : g = comment
  · subst hcomment
    obtain ⟨rest, rfl⟩ := h.exists_of_comment
    rfl
  by_cases houtput : g = output
  · subst houtput
    have hword := h.not_mem_allKeywords hconfig
    rw [candidate?, ofKeyword?_of_not_mem hword, h.of_output.1]
    rfl
  · have hword := h.mem_keywords hcomment houtput
    rw [candidate?, ofKeyword?_of_mem hword]
    rfl

/-- At most one grammar claims a text. -/
theorem Claims.eq (hconfig : config.SparesKeywords) {g g' : Grammar} (h : g.Claims config text)
    (h' : g'.Claims config text) : g = g' :=
  Option.some.inj ((candidate?_of_claims hconfig h).symm.trans (candidate?_of_claims hconfig h'))

end Grammar

/-! ## Grammars in a row -/

namespace Config

open Grammar

variable {config : Config} {text : List Char}

/-- A text that no grammar of the row claims is no statement. -/
theorem firstMatch_of_not_claims {order : List Grammar} (h : ∀ g ∈ order, ¬ g.Claims config text) :
    config.firstMatch text order = .ok none := by
  induction order with
  | nil => rfl
  | cons g order ih =>
    obtain ⟨hg, horder⟩ := List.forall_mem_cons.mp h
    have hnone : g.match? config text = .ok none := not_not.mp hg
    rw [firstMatch, hnone]
    exact ih horder

/-- A text that a grammar of the row claims is what this grammar says. -/
theorem firstMatch_of_claims (hconfig : config.SparesKeywords) {g : Grammar} {order : List Grammar}
    (hmem : g ∈ order) (h : g.Claims config text) :
    config.firstMatch text order =
      (g.match? config text).map fun found => found.map fun kind => (g, kind) := by
  induction order with
  | nil => exact absurd hmem List.not_mem_nil
  | cons first order ih =>
    rw [firstMatch]
    by_cases hfirst : first.Claims config text
    · obtain rfl := h.eq hconfig hfirst
      rcases hmatch : g.match? config text with why | found
      · rfl
      · cases found with
        | none => exact absurd hmatch h
        | some kind => rfl
    · have hne : g ≠ first := by
        rintro rfl
        exact hfirst h
      have hnone : first.match? config text = .ok none := not_not.mp hfirst
      rw [hnone]
      exact ih ((List.mem_cons.mp hmem).resolve_left hne)

/-- **Of a row of grammars only the members matter.** -/
theorem firstMatch_congr (hconfig : config.SparesKeywords) {order order' : List Grammar}
    (h : ∀ g, g ∈ order ↔ g ∈ order') (text : List Char) :
    config.firstMatch text order = config.firstMatch text order' := by
  by_cases hclaims : ∃ g ∈ order, g.Claims config text
  · obtain ⟨g, hmem, hg⟩ := hclaims
    rw [firstMatch_of_claims hconfig hmem hg, firstMatch_of_claims hconfig ((h g).mp hmem) hg]
  · have hnone : ∀ g ∈ order, ¬ g.Claims config text := fun g hmem hg => hclaims ⟨g, hmem, hg⟩
    rw [firstMatch_of_not_claims hnone,
      firstMatch_of_not_claims fun g hmem => hnone g ((h g).mpr hmem)]

/-- A row of grammars depends on the configuration only through what each grammar says. -/
theorem firstMatch_eq_of_match? {config' : Config}
    (h : ∀ g : Grammar, g.match? config text = g.match? config' text) (order : List Grammar) :
    config.firstMatch text order = config'.firstMatch text order := by
  induction order with
  | nil => rfl
  | cons g order ih => rw [firstMatch, firstMatch, h, ih]

theorem classify_withGrammars_of_perm (hconfig : config.SparesKeywords) {order order' : List Grammar}
    (h : order.Perm order') (text : List Char) :
    (config.withGrammars order).classify text = (config.withGrammars order').classify text := by
  have hmatch (others : List Grammar) (g : Grammar) :
      g.match? (config.withGrammars others) text = g.match? config text := rfl
  have hsame (others : List Grammar) :
      (config.withGrammars others).classify text = config.firstMatch text others :=
    firstMatch_eq_of_match? (hmatch others) others
  rw [hsame, hsame]
  exact firstMatch_congr hconfig (fun g => h.mem_iff) text

end Config

/-- The tree of a source depends on the configuration only through what its statements are. -/
theorem Document.parse_congr {config config' : Config}
    (h : ∀ text, config.classify text = config'.classify text) (file : String) (source : List Char) :
    Document.parse config file source = Document.parse config' file source := by
  have hpush : Nesting.pushSegment config file = Nesting.pushSegment config' file := by
    funext n segment
    simp only [Nesting.pushSegment, Nesting.classify, h]
  rw [Document.parse, Document.parse, hpush]

/-! ## Every order of the grammars -/

/-- **Every order of the grammars tells the same statements.**  If no filter is called like a statement, at
most one grammar claims a text, as a statement or as a malformed one; so the same statement, the same
fault or none is found in every order, and every source has the same tree or the same error. -/
theorem Config.classifies_in_any_order {config : Config} (hconfig : config.SparesKeywords) :
    (∀ text g g', Grammar.Claims config g text → Grammar.Claims config g' text → g = g') ∧
      ∀ order, order.Perm Grammar.defaultOrder →
        (∀ text, (config.withGrammars order).classify text =
          (config.withGrammars Grammar.defaultOrder).classify text) ∧
        ∀ file source, Document.parse (config.withGrammars order) file source =
          Document.parse (config.withGrammars Grammar.defaultOrder) file source := by
  refine ⟨fun text g g' h h' => h.eq hconfig h', fun order horder => ?_⟩
  have hclassify := classify_withGrammars_of_perm hconfig horder
  exact ⟨hclassify, Document.parse_congr hclassify⟩

/-- The built-in filters spare the keywords.  An output statement without an expression is one in the
opposite order too, where the grammar of the output statements comes before those of the keywords. -/
theorem Config.classifies_in_any_order_reversed :
    Config.default.SparesKeywords ∧ Grammar.defaultOrder.reverse.Perm Grammar.defaultOrder ∧
      (Config.default.withGrammars Grammar.defaultOrder.reverse).classify "h=".toList =
        .error .emptyOutput := by
  have hspares : Config.default.SparesKeywords := by
    unfold Config.SparesKeywords
    decide
  have horder := Grammar.defaultOrder.reverse_perm
  refine ⟨hspares, horder, ?_⟩
  rw [((classifies_in_any_order hspares).2 _ horder).1]
  rfl

end Inlay
