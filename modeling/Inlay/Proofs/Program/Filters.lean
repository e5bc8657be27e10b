import Inlay.Proofs.Program.Compiled

/-!
# Filters of output statements

An output statement names a filter, and the configuration says what the name means.  The meaning is
looked up when the template is parsed and goes with the statement from then on, so that it is still the
right one where the statement is run.

* `Derives.says`: what all entries of a template have in common, its statements have, those in its
  blocks included; `Template.Parsed.says`: the same for what is read from a source.
* `Config.bound_of_classify`: a statement that is read has the filter of its name.
* `Template.Parsed.bound`: so have all statements of a template.
-/

namespace Inlay

variable {config : Config}

/-! ## From entries to statements -/

/-- A property of statements holds of an entry, as outlines show it. -/
def Entry.Says (P : StatementKind → Prop) : Entry → Prop
  | .text s => P (.plain (String.ofList s))
  | .item i => P i.kind.shown

namespace Statement

variable {P : StatementKind → Prop} {kind : StatementKind}

theorem marked_outline (h : P kind.shown) {children : List Statement}
    (hchildren : Marked P (outlineAll children)) (line : Option Nat) (span : Span) :
    Marked P (mk kind line span children).outline := by
  by_cases hcomment : ∃ text, kind = .comment text
  · obtain ⟨text, rfl⟩ := hcomment
    rw [outline]
    exact marked_nil
  · rw [outline_of_ne fun text htext => hcomment ⟨text, htext⟩]
    exact marked_nest.mpr ⟨h, hchildren⟩

/-- Statements side by side have a property, those in their blocks included. -/
def AllSay (P : StatementKind → Prop) (ss : List Statement) : Prop :=
  Marked P (outlineAll (hollowAll ss)) ∧ ∀ b ∈ bodiesAll ss, Marked P (outlineAll b.body)

theorem allSay_nil : AllSay P [] := by
  rw [AllSay, hollowAll_nil, outlineAll_nil, bodiesAll_nil]
  exact ⟨marked_nil, fun _ h => absurd h List.not_mem_nil⟩

theorem AllSay.append {ss ss' : List Statement} (h : AllSay P ss) (h' : AllSay P ss') :
    AllSay P (ss ++ ss') := by
  rw [AllSay, hollowAll_append, outlineAll_append, bodiesAll_append]
  exact ⟨marked_append.mpr ⟨h.1, h'.1⟩,
    fun b hb => (List.mem_append.mp hb).elim (h.2 b) (h'.2 b)⟩

/-- A statement with others nested in it, in front of further ones. -/
theorem AllSay.cons {inner ss : List Statement} {line : Option Nat} {span : Span}
    (hkind : P kind.shown) (hinner : AllSay P inner) (h : AllSay P ss) :
    AllSay P (mk kind line span inner :: ss) := by
  rw [← List.singleton_append]
  refine AllSay.append ?_ h
  rw [AllSay, hollowAll_cons, hollowAll_nil, outlineAll_cons, outlineAll_nil, List.append_nil,
    bodiesAll_cons, bodiesAll_nil, List.append_nil]
  by_cases hblock : ∃ name, kind = .block name
  · obtain ⟨name, rfl⟩ := hblock
    rw [hollow, bodies]
    refine ⟨marked_outline hkind (by rw [outlineAll_nil]; exact marked_nil) _ _, fun b hb => ?_⟩
    rcases List.mem_append.mp hb with hb | hb
    · exact hinner.2 b hb
    · obtain rfl := List.mem_singleton.mp hb
      exact hinner.1
  · have hne : ∀ name, kind ≠ .block name := fun name hname => hblock ⟨name, hname⟩
    rw [hollow_of_ne hne, bodies_of_ne hne]
    exact ⟨marked_outline hkind hinner.1 _ _, hinner.2⟩

end Statement

open Statement (AllSay allSay_nil)

/-- **What all entries have in common, the statements of their trees have.** -/
theorem Derives.says {P : StatementKind → Prop} {inLoop : Bool} {stretch : Stretch} {es : List Entry}
    {ss : List Statement} (h : Derives inLoop stretch es ss) (hes : ∀ e ∈ es, e.Says P) :
    AllSay P ss := by
  induction h with
  | nil => exact allSay_nil
  | text text _ ih =>
    obtain ⟨htext, hes⟩ := List.forall_mem_cons.mp hes
    exact AllSay.cons htext allSay_nil (ih hes)
  | simple stands _ ih =>
    obtain ⟨hitem, hes⟩ := List.forall_mem_cons.mp hes
    exact .cons hitem allSay_nil (ih hes)
  | block opens ends _ _ ihBody ih =>
    obtain ⟨hitem, hes⟩ := List.forall_mem_cons.mp hes
    obtain ⟨hbody, hes⟩ := List.forall_mem_append.mp hes
    exact .cons hitem (ihBody hbody) (ih (List.forall_mem_cons.mp hes).2)
  | scope opens admits ends _ _ _ ihBody ihClauses ih =>
    obtain ⟨hitem, hes⟩ := List.forall_mem_cons.mp hes
    obtain ⟨hbody, hes⟩ := List.forall_mem_append.mp hes
    obtain ⟨hparts, hes⟩ := List.forall_mem_append.mp hes
    exact .cons hitem (ihBody hbody) ((ihClauses hparts).append (ih (List.forall_mem_cons.mp hes).2))
  | noClause => exact allSay_nil
  | clause opens _ _ ihBody ih =>
    obtain ⟨hitem, hes⟩ := List.forall_mem_cons.mp hes
    obtain ⟨hbody, hes⟩ := List.forall_mem_append.mp hes
    exact .cons hitem (ihBody hbody) (ih hes)

theorem exists_of_mem_mapM {ε α β : Type} {f : α → Except ε β} {as : List α} {bs : List β}
    (h : as.mapM f = .ok bs) {b : β} (hb : b ∈ bs) : ∃ a ∈ as, f a = .ok b := by
  induction as generalizing bs with
  | nil =>
    cases h
    exact absurd hb List.not_mem_nil
  | cons a as ih =>
    obtain ⟨b', bs', hhead, hrest, rfl⟩ := mapM_cons_eq_ok_iff.mp h
    rcases List.mem_cons.mp hb with rfl | hb
    · exact ⟨a, List.mem_cons_self .., hhead⟩
    · obtain ⟨a', ha', hentry⟩ := ih hrest hb
      exact ⟨a', List.mem_cons_of_mem _ ha', hentry⟩

/-- What all texts have in common, and all statements that can be told, the entries of segments have. -/
theorem Segment.says_entry {P : StatementKind → Prop} (hplain : ∀ s, P (.plain s))
    (hclassify : ∀ text g kind, config.classify text = .ok (some (g, kind)) → P kind.shown)
    {file : String} {segment : Segment} {e : Entry} (h : segment.entry config file = .ok e) :
    e.Says P := by
  cases segment with
  | plain text =>
    cases h
    exact hplain _
  | statement text line span =>
    obtain ⟨kind, hkind, h⟩ := bind_eq_ok_iff.mp h
    cases h
    unfold Nesting.classify at hkind
    dsimp only at hkind
    split at hkind
    · cases hkind
    · split at hkind
      · cases hkind
      · cases hkind
      · rename_i hfound
        cases hkind
        exact hclassify _ _ _ hfound

/-- **So have the statements of a template that is read.** -/
theorem Template.Parsed.says {P : StatementKind → Prop} (hplain : ∀ s, P (.plain s))
    (hclassify : ∀ text g kind, config.classify text = .ok (some (g, kind)) → P kind.shown)
    {t : Template} (h : t.Parsed config) : t.Says P := by
  obtain ⟨source, hsource⟩ := h
  obtain ⟨segments, -, hdocument⟩ := bind_eq_ok_iff.mp hsource
  obtain ⟨es, trees, hes, hnested, htrees⟩ := Document.eq_ok_iff_wellNested.mp hdocument
  have hsaid : AllSay P trees := hnested.derives.says fun e he => by
    obtain ⟨segment, -, hentry⟩ := exists_of_mem_mapM hes he
    exact Segment.says_entry hplain hclassify hentry
  constructor
  · rw [htrees]
    exact hsaid.1
  · rintro ⟨name, b⟩ hb
    rw [htrees] at hb
    obtain ⟨hbodies, -⟩ := (mem_storeAll hb).resolve_left List.not_mem_nil
    exact hsaid.2 b hbodies

/-! ## What is claimed -/

/-- What a grammar makes of a text has a property. -/
def Claim.Gives (P : StatementKind → Prop) (c : Claim) : Prop :=
  ∀ kind, c = .ok (some kind) → P kind

namespace Claim.Gives

variable {P : StatementKind → Prop} {text : List Char}

theorem nothing : Gives P (.ok none) := by
  intro kind h
  cases h

theorem malformed (why : SyntaxFault) : Gives P (.error why) := by
  intro kind h
  cases h

theorem just {kind : StatementKind} (h : P kind) : Gives P (.ok (some kind)) := by
  intro kind' h'
  cases h'
  exact h

theorem of_bare {kind : StatementKind} (h : P kind) : Gives P (Inlay.bare text kind) := by
  rw [Inlay.bare]
  split
  · exact just h
  · exact nothing

theorem of_claim {σ α : Type} {what : String} {m : Automaton σ α} {make : α → StatementKind}
    (h : ∀ a, P (make a)) : Gives P (Inlay.claim what m text make) := by
  rw [Inlay.claim]
  cases readHead what m text with
  | error why => exact malformed why
  | ok a => exact just (h a)

end Claim.Gives

/-- An output statement has the filter that its name means. -/
def StatementKind.Bound (config : Config) : StatementKind → Prop
  | .output filter _ => config.filter? filter.name = some filter.apply
  | _ => True

namespace Grammar

open Claim.Gives

variable {keyword : String} {text rest : List Char}

theorem bound_matchBlock : (matchBlock keyword rest).Gives (StatementKind.Bound config) := by
  unfold matchBlock
  split
  · exact nothing
  · split
    · exact just trivial
    · exact malformed _

theorem bound_matchOpening : (matchOpening keyword rest).Gives (StatementKind.Bound config) := by
  unfold matchOpening
  split
  · exact of_claim fun _ => trivial
  · exact of_claim fun _ => trivial
  · exact of_claim fun _ => trivial
  · exact of_claim fun _ => trivial
  · exact of_bare trivial
  · split
    · exact of_claim fun _ => trivial
    · exact of_claim fun _ => trivial
    · exact nothing
  · exact nothing

theorem bound_matchClause : (matchClause keyword rest).Gives (StatementKind.Bound config) := by
  unfold matchClause
  split
  · exact of_claim fun _ => trivial
  · exact of_bare trivial
  · exact of_claim fun _ => trivial
  · exact of_bare trivial
  · exact nothing

theorem bound_matchInline : (matchInline keyword rest).Gives (StatementKind.Bound config) := by
  unfold matchInline
  split
  · exact of_bare trivial
  · exact of_bare trivial
  · exact of_claim fun _ => trivial
  · exact of_claim fun _ => trivial
  · split
    · exact just trivial
    · exact of_claim fun _ => trivial
  · exact of_claim fun _ => trivial
  · exact of_claim fun _ => trivial
  · exact of_claim fun _ => trivial
  · exact nothing

/-- The filter is looked up under the name that is kept beside it. -/
theorem bound_matchOutput : (matchOutput config text).Gives (StatementKind.Bound config) := by
  unfold matchOutput
  split
  · exact nothing
  · dsimp only
    split
    · exact nothing
    · rename_i apply hfilter
      split
      · exact malformed _
      · exact of_claim fun _ => hfilter
  · exact nothing

theorem bound_readAssignment :
    Claim.Gives (StatementKind.Bound config) ((readAssignment rest).map some) := by
  unfold readAssignment
  split
  · dsimp only
    split
    · exact malformed _
    · split
      · exact malformed _
      · generalize readHead "assigned expression" Expr.reader _ = value
        cases value with
        | error why => exact malformed why
        | ok e => exact just trivial
  · exact malformed _

theorem bound_match? (g : Grammar) : (g.match? config text).Gives (StatementKind.Bound config) := by
  unfold match?
  cases g with
  | block => exact bound_matchBlock
  | inclusion =>
    dsimp only
    split
    · exact of_claim fun _ => trivial
    · exact nothing
  | inheritance =>
    dsimp only
    split
    · exact of_claim fun _ => trivial
    · exact nothing
  | opening => exact bound_matchOpening
  | ending =>
    dsimp only
    split
    · exact just trivial
    · exact nothing
  | clause => exact bound_matchClause
  | inline => exact bound_matchInline
  | comment =>
    dsimp only
    split
    · exact just trivial
    · exact nothing
  | output => exact bound_matchOutput
  | assignment =>
    dsimp only
    split
    · exact bound_readAssignment
    · exact nothing

end Grammar

theorem Config.bound_of_firstMatch {text : List Char} {grammars : List Grammar} {g : Grammar}
    {kind : StatementKind} (h : config.firstMatch text grammars = .ok (some (g, kind))) :
    kind.Bound config := by
  induction grammars with
  | nil => cases h
  | cons first grammars ih =>
    obtain ⟨found, hfound, h⟩ := bind_eq_ok_iff.mp h
    cases found with
    | none => exact ih h
    | some other =>
      cases h
      exact Grammar.bound_match? _ kind hfound

/-- **A statement that can be told has the filter that its name means.** -/
theorem Config.bound_of_classify {text : List Char} {g : Grammar} {kind : StatementKind}
    (h : config.classify text = .ok (some (g, kind))) : kind.Bound config :=
  config.bound_of_firstMatch h

theorem StatementKind.Bound.shown {kind : StatementKind} (h : kind.Bound config) :
    kind.shown.Bound config := by
  cases kind with
  | opening o => cases o <;> trivial
  | clause c => cases c <;> trivial
  | _ => exact h

/-- **In a template that is read every output statement has the filter that its name means.** -/
theorem Template.Parsed.bound {t : Template} (h : t.Parsed config) :
    t.Says (StatementKind.Bound config) :=
  h.says (fun _ => trivial) fun _ _ _ hkind => (Config.bound_of_classify hkind).shown

end Inlay
