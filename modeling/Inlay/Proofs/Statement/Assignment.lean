import Inlay.Statement.Grammar
import Inlay.Expr.Head
import Mathlib

/-!
# Where an assignment is cut

The equals sign of an assignment is looked for by a scan of its own, which knows quoted texts and the
four comparisons with an equals sign and nothing else of the tokens.  It is compared here with the
reader of tokens: in a text that is cut into lexemes the scan cuts at the tokens `=` and nowhere
else, since every other lexeme has no equals sign, or is one of the four comparisons, or is a quoted
text, and the two readers agree on where a quoted text ends.

* `Lexeme.Shape`: what the characters of a lexeme are, with `Lexeme.shape_first`.
* `Text.Passes`: a piece of text that the scan goes over without a cut, with `Lexeme.Shape.passes`.
* `Token.passes_of_lex`: a text without the token `=` is gone over.
* `Text.cutBare_assignment`: targets and an expression are cut apart at the sign between them.
* `Grammar.match?_assignment`: an assignment is read as its targets and its expression.
-/

namespace Inlay

/-! ## White space at the ends -/

namespace Text

variable {s blanks : List Char}

/-- Nothing is trimmed from a text just if neither end is a blank. -/
theorem trim_eq_self_iff : trim s = s ↔
    (∀ c ∈ s.head?, isBlank c = false) ∧ ∀ c ∈ s.getLast?, isBlank c = false := by
  have hfront : s.dropWhile isBlank = s ↔ ∀ c ∈ s.head?, isBlank c = false := by
    cases s with
    | nil => simp
    | cons c rest => simp [List.dropWhile_eq_self_iff]
  have hback : trimEnd s = s ↔ ∀ c ∈ s.getLast?, isBlank c = false := by
    rw [trimEnd, ← List.rdropWhile, List.rdropWhile_eq_self_iff]
    constructor
    · intro h c hc
      obtain ⟨hne, rfl⟩ := List.mem_getLast?_eq_getLast hc
      simpa using h hne
    · intro h hne
      simpa using h _ (List.getLast?_eq_some_getLast hne)
  rw [← hfront, ← hback]
  constructor
  · intro h
    have hprefix : trim s <+: s.dropWhile isBlank := List.rdropWhile_prefix isBlank _
    have hlength : s.length ≤ (s.dropWhile isBlank).length := by
      conv_lhs => rw [← h]
      exact hprefix.length_le
    have hdrop : s.dropWhile isBlank = s :=
      (List.dropWhile_suffix isBlank).eq_of_length_le hlength
    exact ⟨hdrop, by rwa [trim, hdrop] at h⟩
  · rintro ⟨hdrop, hend⟩
    rw [trim, hdrop, hend]

theorem trim_blanks_append (h : ∀ c ∈ blanks, isBlank c = true) (s : List Char) :
    trim (blanks ++ s) = trim s := by
  rw [trim, List.dropWhile_append_of_pos h, trim]

theorem trim_append_blanks (h : ∀ c ∈ blanks, isBlank c = true) (s : List Char) :
    trim (s ++ blanks) = trim s := by
  have hend (t : List Char) : trimEnd (t ++ blanks) = trimEnd t := by
    rw [trimEnd, List.reverse_append,
      List.dropWhile_append_of_pos fun c hc => h c (List.mem_reverse.mp hc), trimEnd]
  rw [trim, trim, List.dropWhile_append]
  split
  · rename_i hempty
    rw [List.isEmpty_iff.mp hempty, List.dropWhile_eq_nil_iff.mpr h]
  · exact hend _

end Text

/-! ## The characters of a lexeme -/

namespace Lexeme

variable {c : Char} {rest : List Char}

/-- The characters that the scan for an equals sign looks at. -/
def marks : List Char := ['"', '\'', '=', '!', '<', '>']

/-- A character that the scan for an equals sign goes over. -/
def Plain (c : Char) : Prop :=
  c ∉ marks

instance (c : Char) : Decidable (Plain c) :=
  inferInstanceAs (Decidable (c ∉ marks))

/-- A class of characters without the marks. -/
theorem plain_of {p : Char → Bool} (hp : marks.all (fun d => !p d) = true) (h : p c = true) :
    Plain c := by
  intro hc
  have hnot := List.all_eq_true.mp hp c hc
  rw [h] at hnot
  exact absurd hnot Bool.false_ne_true

/-- What the characters of a lexeme are. -/
inductive Shape : Lexeme → List Char → Prop where
  | plain {lexeme : Lexeme} {text : List Char} (h : ∀ d ∈ text, Plain d) : Shape lexeme text
  | mark (s : Sign) : Shape (.token (.sign s)) s.symbol.toList
  | quoted (s : String) {q : Char} {rest : List Char} {n : Nat} (hq : q = '"' ∨ q = '\'')
      (hclosed : quotedLength q rest = (true, n)) : Shape (.token (.str s)) (q :: rest.take n)

theorem plain_of_isSpace (h : isSpace c = true) : Plain c :=
  plain_of (by decide) h

theorem plain_of_isDigit (h : c.isDigit = true) : Plain c :=
  plain_of (by decide) h

theorem plain_takeWhile {p : Char → Bool} (hp : marks.all (fun d => !p d) = true)
    (s : List Char) : ∀ d ∈ s.take (s.takeWhile p).length, Plain d := by
  rw [← List.prefix_iff_eq_take.mp (List.takeWhile_prefix p)]
  exact fun d hd => plain_of hp (List.mem_takeWhile_imp hd)

/-- Nothing in a run of blanks is a mark. -/
theorem plain_blankLength (s : List Char) : ∀ d ∈ s.take (blankLength s), Plain d := by
  fun_induction blankLength s with
  | case1 => simp
  | case2 rest ih => simpa using ⟨by decide, by decide, ih⟩
  | case3 rest ih => simpa using ⟨by decide, by decide, by decide, ih⟩
  | case4 rest => simp; decide
  | case5 c rest _ _ _ hspace ih => simpa using ⟨plain_of_isSpace hspace, ih⟩
  | case6 => simp

theorem plain_exponentLength (s : List Char) :
    ∀ d ∈ s.take (fractionLength.exponentLength s), Plain d := by
  have hsigned (rest : List Char) (signs : Nat) (hsigns : ∀ d ∈ rest.take signs, Plain d) :
      ∀ d ∈ rest.take (signs + ((rest.drop signs).takeWhile Char.isDigit).length), Plain d := by
    rw [List.take_add]
    exact List.forall_mem_append.mpr ⟨hsigns, plain_takeWhile (by decide) _⟩
  unfold fractionLength.exponentLength
  split
  · simp
  · rename_i c rest
    split
    · rename_i he
      have hc : Plain c := plain_of (p := fun d => d == 'e' || d == 'E') (by decide) he
      extract_lets signs digits
      have hsigns : ∀ d ∈ rest.take signs, Plain d := by
        unfold signs
        split
        · simpa using (by decide : Plain '+')
        · simpa using (by decide : Plain '-')
        · simp
      split
      · simp
      · rw [Nat.add_assoc, Nat.add_comm 1, List.take_succ_cons]
        exact List.forall_mem_cons.mpr ⟨hc, hsigned rest signs hsigns⟩
    · simp

theorem plain_fractionLength (s : List Char) : ∀ d ∈ s.take (fractionLength s), Plain d := by
  unfold fractionLength
  split
  · rename_i rest
    extract_lets digits
    split
    · simp
    · rw [Nat.add_right_comm, List.take_succ_cons, List.take_add]
      refine List.forall_mem_cons.mpr ⟨by decide, List.forall_mem_append.mpr ⟨?_, ?_⟩⟩
      · exact plain_takeWhile (by decide) rest
      · exact plain_exponentLength _
  · simp

/-- A mark is no lexeme, or a sign with this text. -/
theorem shape_ofMark (c : Char) (rest : List Char) : (ofMark c rest.head?).1 = .bad ∨
    Shape (ofMark c rest.head?).1 (c :: rest.take (ofMark c rest.head?).2) := by
  have htwo (s : Sign) (d : Char) (hs : s.symbol.toList = [c, d]) (hd : rest.head? == some d) :
      Shape (.token (.sign s)) (c :: rest.take 1) := by
    have hrest : rest.take 1 = [d] := by
      rw [List.take_one, beq_iff_eq.mp hd]
      rfl
    rw [hrest, ← hs]
    exact .mark s
  unfold ofMark
  split
  case h_1 =>
    split_ifs with hd
    · exact .inr (htwo .eq '=' rfl hd)
    · exact .inr (.mark .assign)
  case h_2 =>
    split_ifs with hd
    · exact .inr (htwo .ne '=' rfl hd)
    · exact .inl rfl
  case h_3 =>
    split_ifs with hd
    · exact .inr (htwo .le '=' rfl hd)
    · exact .inr (.mark .lt)
  case h_4 =>
    split_ifs with hd
    · exact .inr (htwo .ge '=' rfl hd)
    · exact .inr (.mark .gt)
  case h_5 =>
    split_ifs with hd
    · exact .inr (htwo .doubleSlash '/' rfl hd)
    · exact .inr (.mark .slash)
  case h_19 => exact .inl rfl
  all_goals exact .inr (.mark _)

/-- **What a lexeme looks like.** -/
theorem shape_first (h : (first c rest).1 ≠ .bad) :
    Shape (first c rest).1 (c :: rest.take (first c rest).2) := by
  unfold first at h ⊢
  split_ifs at h ⊢ with hblank hname hdigit hquote
  · refine .plain (List.forall_mem_cons.mpr ⟨?_, ?_⟩)
    · rw [startsBlank, Bool.or_eq_true, Bool.and_eq_true, beq_iff_eq] at hblank
      rcases hblank with hspace | ⟨rfl, -⟩
      · exact plain_of_isSpace hspace
      · decide
    · have hrun := plain_blankLength (c :: rest)
      cases hlength : blankLength (c :: rest) with
      | zero => simp
      | succ n =>
        rw [hlength, List.take_succ_cons] at hrun
        exact (List.forall_mem_cons.mp hrun).2
  · exact .plain (List.forall_mem_cons.mpr
      ⟨plain_of (by decide) hname, plain_takeWhile (by decide) rest⟩)
  · refine .plain (List.forall_mem_cons.mpr ⟨plain_of_isDigit hdigit, ?_⟩)
    rw [List.take_add]
    exact List.forall_mem_append.mpr ⟨plain_takeWhile (by decide) rest, plain_fractionLength _⟩
  · rw [Bool.or_eq_true, beq_iff_eq, beq_iff_eq] at hquote
    cases hclosed : quotedLength c rest with
    | mk closed n => 
      cases closed with
      | false => simp [hclosed] at h
      | true => 
        simp only [if_true]
        exact .quoted _ hquote hclosed
  · exact (shape_ofMark c rest).resolve_left h

end Lexeme

/-! ## The scan -/

namespace Text

open Lexeme

variable {c : Char} {before : Option Char} {piece piece' rest : List Char}

/-- More text in front of the first piece. -/
def prepend (text : List Char) (pieces : List (List Char)) : List (List Char) :=
  text.foldr consPiece pieces

@[simp] theorem prepend_cons (text piece : List Char) (pieces : List (List Char)) :
    prepend text (piece :: pieces) = (text ++ piece) :: pieces := by
  induction text with
  | nil => rfl
  | cons c text ih =>
    rw [prepend, List.foldr_cons, ← prepend, ih]
    rfl

theorem prepend_append (text text' : List Char) (pieces : List (List Char)) :
    prepend (text ++ text') pieces = prepend text (prepend text' pieces) :=
  List.foldr_append

/-- The scan goes over this text without a cut, whatever stands in front of it and behind. -/
def Passes (text : List Char) : Prop :=
  ∀ before rest, ∃ before', cutBare none false before (text ++ rest) =
    prepend text (cutBare none false before' rest)

theorem Passes.append (h : Passes piece) (h' : Passes piece') : Passes (piece ++ piece') := by
  intro before rest
  obtain ⟨between, hpiece⟩ := h before (piece' ++ rest)
  obtain ⟨behind, hpiece'⟩ := h' between rest
  exact ⟨behind, by rw [List.append_assoc, hpiece, hpiece', prepend_append]⟩

/-- A text that is gone over is one piece. -/
theorem Passes.cutBare_eq (h : Passes piece) (before : Option Char) :
    cutBare none false before piece = [piece] := by
  obtain ⟨before', hrun⟩ := h before []
  rw [List.append_nil] at hrun
  rw [hrun, cutBare, prepend_cons, List.append_nil]

/-- A character that is no quote mark is gone over, unless it is an equals sign that is no part of a
comparison. -/
theorem cutBare_cons (hquote : (c == '"' || c == '\'') = false)
    (hcut : (c == '=' && !isCompound before rest.head?) = false) :
    cutBare none false before (c :: rest) = prepend [c] (cutBare none false (some c) rest) := by
  simp only [cutBare, hquote, hcut, Bool.false_eq_true, if_false]
  rfl

theorem passes_singleton (hquote : (c == '"' || c == '\'') = false) (hsign : (c == '=') = false) :
    Passes [c] := fun _ _ =>
  ⟨some c, cutBare_cons hquote (by rw [hsign, Bool.false_and])⟩

/-- The scan behind plain text knows its last character. -/
theorem cutBare_plain (h : ∀ c ∈ piece, Plain c) (before : Option Char) (rest : List Char) :
    cutBare none false before (piece ++ rest) =
      prepend piece (cutBare none false (piece.getLast?.or before) rest) := by
  induction piece generalizing before with
  | nil => rfl
  | cons c piece ih =>
    obtain ⟨hc, hpiece⟩ := List.forall_mem_cons.mp h
    simp only [Plain, marks, List.mem_cons, not_or] at hc
    have hquote : (c == '"' || c == '\'') = false := by simp [hc.1, hc.2.1]
    have hsign : (c == '=') = false := by simp [hc.2.2.1]
    have hlast : (c :: piece).getLast?.or before = piece.getLast?.or (some c) := by
      rw [List.getLast?_cons]
      cases piece.getLast? <;> rfl
    rw [List.cons_append, cutBare_cons hquote (by rw [hsign, Bool.false_and]), ih hpiece, hlast]
    rfl

theorem passes_of_plain (h : ∀ c ∈ piece, Plain c) : Passes piece := fun before rest =>
  ⟨_, cutBare_plain h before rest⟩

/-- The equals sign of a comparison is no cut. -/
theorem passes_comparison (hquote : (c == '"' || c == '\'') = false)
    (hc : ∀ behind, isCompound (some c) behind = true) : Passes [c, '='] := by
  intro before rest
  have hbehind : isCompound before (some '=') = true := by simp [isCompound]
  refine ⟨some '=', ?_⟩
  change cutBare none false before (c :: '=' :: rest) = _
  rw [cutBare_cons hquote (by simp [hbehind]), cutBare_cons rfl (by simp [hc])]
  rfl

/-- No other sign than `=` is a cut. -/
theorem passes_sign {s : Sign} (hs : s ≠ .assign) : Passes s.symbol.toList := by
  cases s
  case assign => exact absurd rfl hs
  case eq | ne | le | ge => exact passes_comparison rfl fun _ => rfl
  case lt | gt => exact passes_singleton rfl rfl
  all_goals exact passes_of_plain (by simp [Sign.symbol, Plain, marks])

/-- In a quoted text, a backslash takes the next character with it. -/
theorem cutBare_escape (q c : Char) (before : Option Char) (rest : List Char) :
    cutBare (some q) false before ('\\' :: c :: rest) =
      prepend ['\\', c] (cutBare (some q) false (some c) rest) := by
  simp [cutBare, prepend]

theorem cutBare_close {q : Char} (hq : q ≠ '\\') (before : Option Char) (rest : List Char) :
    cutBare (some q) false before (q :: rest) =
      prepend [q] (cutBare none false (some q) rest) := by
  simp [cutBare, prepend, hq]

theorem cutBare_inside {q : Char} (hslash : c ≠ '\\') (hq : c ≠ q) (before : Option Char)
    (rest : List Char) : cutBare (some q) false before (c :: rest) =
      prepend [c] (cutBare (some q) false (some c) rest) := by
  simp [cutBare, prepend, hslash, hq]

/-- **The scan and the reader of tokens find the same end of a quoted text.** -/
theorem cutBare_quoted {q : Char} (hq : q ≠ '\\') {n : Nat}
    (hclosed : quotedLength q rest = (true, n)) (before : Option Char) (behind : List Char) :
    cutBare (some q) false before (rest.take n ++ behind) =
      prepend (rest.take n) (cutBare none false (some q) behind) := by
  induction rest using quotedLength.induct q generalizing n before with
  | case1 => simp [quotedLength] at hclosed
  | case2 => simp [quotedLength] at hclosed
  | case3 c rest hline => simp [quotedLength, hline] at hclosed
  | case4 c rest hline closed k hlength ih =>
    simp only [quotedLength, hline, hlength, Bool.false_eq_true, if_false, Prod.mk.injEq] at hclosed
    obtain ⟨rfl, rfl⟩ := hclosed
    rw [List.take_succ_cons, List.take_succ_cons, List.cons_append, List.cons_append,
      cutBare_escape, ih hlength]
    rfl
  | case5 c rest hlast hescape hc =>
    rw [quotedLength, if_pos hc] at hclosed
    · obtain rfl := beq_iff_eq.mp hc
      obtain rfl := (Prod.mk.inj hclosed).2
      rw [List.take_succ_cons, List.take_zero, List.singleton_append, cutBare_close hq]
    · exact hlast
    · exact hescape
  | case6 c rest hlast hescape hc closed k hlength ih =>
    rw [quotedLength, if_neg hc, hlength] at hclosed
    · obtain ⟨rfl, rfl⟩ := Prod.mk.inj hclosed
      have hslash : c ≠ '\\' := by
        rintro rfl
        cases rest with
        | nil => exact hlast rfl rfl
        | cons d rest => exact hescape d rest rfl rfl
      have hne : c ≠ q := fun h => hc (beq_iff_eq.mpr h)
      rw [List.take_succ_cons, List.cons_append, cutBare_inside hslash hne, ih hlength]
      rfl
    · exact hlast
    · exact hescape

theorem passes_quoted {q : Char} {n : Nat} (hq : q = '"' ∨ q = '\'')
    (hclosed : quotedLength q rest = (true, n)) : Passes (q :: rest.take n) := by
  intro before behind
  have hslash : q ≠ '\\' := by
    rcases hq with rfl | rfl <;> decide
  have hquote : (q == '"' || q == '\'') = true := by
    rcases hq with rfl | rfl <;> rfl
  have hopen : cutBare none false before (q :: (rest.take n ++ behind)) =
      prepend [q] (cutBare (some q) false (some q) (rest.take n ++ behind)) := by
    simp only [cutBare, hquote, if_true]
    rfl
  refine ⟨some q, ?_⟩
  rw [List.cons_append, hopen, cutBare_quoted hslash hclosed]
  rfl

/-- No other lexeme than the token `=` is a cut. -/
theorem passes_of_shape {lexeme : Lexeme} (h : Shape lexeme piece)
    (hlexeme : lexeme ≠ .token (.sign .assign)) : Passes piece := by
  cases h with
  | plain h => exact passes_of_plain h
  | mark s => exact passes_sign fun hs => hlexeme (by rw [hs])
  | quoted s hq hclosed => exact passes_quoted hq hclosed

end Text

/-! ## Texts in lexemes -/

namespace Token

open Lexeme

variable {offset : Nat} {s : List Char} {tokens : List (Token × Span)}

/-- The tokens of a text in front of which a lexeme is read. -/
theorem lexFrom_cons_eq_ok {c : Char} {rest : List Char} {lexeme : Lexeme} {n : Nat}
    (hfirst : first c rest = (lexeme, n)) (hlex : lexFrom offset (c :: rest) = .ok tokens) :
    ∃ stop behind, lexFrom stop (rest.drop n) = .ok behind ∧
      ((lexeme = .blank ∧ tokens = behind) ∨
        ∃ t span, lexeme = .token t ∧ tokens = (t, span) :: behind) := by
  rw [lexFrom, hfirst] at hlex
  cases lexeme with
  | blank => exact ⟨_, _, hlex, .inl ⟨rfl, rfl⟩⟩
  | bad => exact absurd hlex (by simp)
  | token t =>
    simp only at hlex
    generalize hrun : lexFrom _ (rest.drop n) = run at hlex
    cases run with
    | error fault => exact absurd hlex (by simp [Except.map])
    | ok behind => exact ⟨_, behind, hrun, .inr ⟨t, _, rfl, (Except.ok.inj hlex).symm⟩⟩

/-- What holds of every lexeme of a text and is kept when texts are put together holds of the text. -/
theorem holds_of_lexFrom {P : List Char → Prop} {Q : Token → Prop} (hnil : P [])
    (happend : ∀ {piece rest}, P piece → P rest → P (piece ++ rest))
    (hshape : ∀ {lexeme piece}, Shape lexeme piece → (∀ t, lexeme = .token t → Q t) → P piece)
    (hlex : lexFrom offset s = .ok tokens) (hall : ∀ t ∈ tokens.map Prod.fst, Q t) : P s := by
  induction hlength : s.length using Nat.strong_induction_on generalizing offset s tokens with
  | h length ih =>
    cases s with
    | nil => exact hnil
    | cons c rest =>
      cases hfirst : first c rest with
      | mk lexeme n =>
        obtain ⟨stop, behind, hbehind, hcases⟩ := lexFrom_cons_eq_ok hfirst hlex
        have hlook (h : lexeme ≠ .bad) : Shape lexeme (c :: rest.take n) := by
          have hfront : Shape (first c rest).1 (c :: rest.take (first c rest).2) :=
            shape_first (by rwa [hfirst])
          rwa [hfirst] at hfront
        have hshorter : (rest.drop n).length < length := by
          rw [← hlength, List.length_drop, List.length_cons]
          omega
        rw [← List.take_append_drop n rest, ← List.cons_append]
        rcases hcases with ⟨rfl, rfl⟩ | ⟨t, span, rfl, rfl⟩
        · have hpiece := hshape (hlook Lexeme.noConfusion) fun t ht => Lexeme.noConfusion ht
          exact happend hpiece (ih _ hshorter hbehind hall rfl)
        · obtain ⟨ht, hbehindAll⟩ := List.forall_mem_cons.mp hall
          have hpiece := hshape (hlook Lexeme.noConfusion) fun t' ht' => by
            rwa [← Lexeme.token.inj ht']
          exact happend hpiece (ih _ hshorter hbehind hbehindAll rfl)

/-- **The scan goes over a text without the token `=`.** -/
theorem passes_of_lex (hlex : lex s = .ok tokens)
    (hassign : ∀ t ∈ tokens.map Prod.fst, t ≠ .sign .assign) : Text.Passes s :=
  holds_of_lexFrom (Q := fun t => t ≠ .sign .assign) (Text.passes_of_plain (by simp))
    Text.Passes.append (fun hshape hQ => Text.passes_of_shape hshape fun heq => hQ _ heq rfl)
    hlex hassign

/-- A token of targets: a name, a comma or a parenthesis. -/
def InTargets (t : Token) : Prop :=
  (∃ n, t = .name n) ∨ t ∈ [.sign .comma, .sign .parenOpen, .sign .parenClose]

theorem plain_of_lex (hlex : lex s = .ok tokens)
    (htokens : ∀ t ∈ tokens.map Prod.fst, InTargets t) : ∀ c ∈ s, Plain c := by
  refine holds_of_lexFrom (P := fun text => ∀ c ∈ text, Plain c) (Q := InTargets) (by simp)
    (fun h h' => List.forall_mem_append.mpr ⟨h, h'⟩) (fun hshape hQ => ?_) hlex htokens
  cases hshape with
  | plain h => exact h
  | mark s =>
    have hs : s ∈ [Sign.comma, .parenOpen, .parenClose] := by simpa [InTargets] using hQ _ rfl
    simp only [List.mem_cons, List.not_mem_nil, or_false] at hs
    rcases hs with rfl | rfl | rfl <;> simp [Sign.symbol, Plain, marks]
  | quoted s hq hclosed => exact absurd (hQ _ rfl) (by simp [InTargets])

end Token

/-! ## What the readers take -/

namespace Automaton

variable {σ α : Type} {m : Automaton σ α} {s : List Char} {a : α}

/-- Every token of a text that is read is taken in some state. -/
theorem exists_step_of_run : ∀ {tokens : List (Token × Span)} {state last : σ},
    m.run state tokens = .ok last →
      ∀ t ∈ tokens.map Prod.fst, ∃ state next, m.step state t = some next
  | [], _, _, _, t, ht => absurd ht List.not_mem_nil
  | (t, span) :: tokens, state, last, hrun, t', ht' => by
    rw [run] at hrun
    split at hrun
    · rename_i next hnext
      rcases List.mem_cons.mp ht' with rfl | ht'
      · exact ⟨state, next, hnext⟩
      · exact exists_step_of_run hrun t' ht'
    · exact absurd hrun (by simp)

theorem exists_lex_of_read (h : m.read s = .ok a) : ∃ tokens, Token.lex s = .ok tokens ∧
    ∃ last, m.run m.start tokens = .ok last ∧ m.finish last = some a := by
  rw [read] at h
  split at h
  · exact absurd h (by simp)
  · rename_i tokens hlex
    rw [readTokens] at h
    refine ⟨tokens, hlex, ?_⟩
    split at h
    · exact absurd h (by simp)
    · rename_i last hrun
      split at h
      · rename_i b hfinish
        exact ⟨last, hrun, hfinish.trans (congrArg some (Except.ok.inj h))⟩
      · exact absurd h (by simp)

theorem finish_start_of_read_nil (h : m.read [] = .ok a) : m.finish m.start = some a := by
  obtain ⟨tokens, hlex, last, hrun, hfinish⟩ := exists_lex_of_read h
  rw [Token.lex, Token.lexFrom] at hlex
  obtain rfl := Except.ok.inj hlex
  rw [run] at hrun
  rwa [Except.ok.inj hrun]

end Automaton

theorem TargetState.inTargets_of_step {s s' : TargetState} {t : Token} (h : s.step t = some s') :
    t.InTargets := by
  unfold TargetState.step at h
  split at h
  case h_8 => exact absurd h (by simp)
  all_goals first
    | exact .inl ⟨_, rfl⟩
    | exact .inr (by simp)

theorem ExprState.step_assign (s : ExprState) : s.step (.sign .assign) = none := by
  cases s <;> rfl

namespace Text

open Lexeme

variable {targets value left right : List Char} {names : List String} {e : Expr}

/-- Targets are written without quote marks and without the characters of comparisons. -/
theorem plain_of_targets (h : targetsReader.read targets = .ok names) :
    targets ≠ [] ∧ ∀ c ∈ targets, Plain c := by
  obtain ⟨tokens, hlex, last, hrun, hfinish⟩ := Automaton.exists_lex_of_read h
  constructor
  · rintro rfl
    exact absurd (Automaton.finish_start_of_read_nil h)
      (by simp [targetsReader, TargetState.finish])
  · refine Token.plain_of_lex hlex fun t ht => ?_
    obtain ⟨state, next, hnext⟩ := Automaton.exists_step_of_run hrun t ht
    exact TargetState.inTargets_of_step hnext

/-- An equals sign in front is the token `==` or the token `=`. -/
theorem exists_first_equals (rest : List Char) :
    ∃ s n, first '=' rest = (.token (.sign s), n) ∧ (s = .eq ∨ s = .assign) := by
  have hfirst : first '=' rest = ofMark '=' rest.head? := rfl
  rw [hfirst]
  cases hnext : rest.head? == some '=' with
  | true => exact ⟨.eq, 1, by simp [ofMark, hnext], .inl rfl⟩
  | false => exact ⟨.assign, 0, by simp [ofMark, hnext], .inr rfl⟩

/-- An expression has no equals sign for the scan, and does not begin with one. -/
theorem passes_of_expr (h : Expr.reader.read value = .ok e) :
    Passes value ∧ value ≠ [] ∧ value.head? ≠ some '=' := by
  obtain ⟨tokens, hlex, last, hrun, -⟩ := Automaton.exists_lex_of_read h
  refine ⟨Token.passes_of_lex hlex fun t ht => ?_, ?_, fun hhead => ?_⟩
  · rintro rfl
    obtain ⟨state, next, hnext⟩ := Automaton.exists_step_of_run hrun _ ht
    exact absurd ((ExprState.step_assign state).symm.trans hnext) (by simp)
  · rintro rfl
    exact absurd (Automaton.finish_start_of_read_nil h)
      (by simp [Expr.reader, ExprState.finish, ExprState.start])
  · obtain ⟨rest, rfl⟩ := List.head?_eq_some_iff.mp hhead
    obtain ⟨s, n, hfirst, hs⟩ := exists_first_equals rest
    obtain ⟨stop, behind, -, hcases⟩ := Token.lexFrom_cons_eq_ok hfirst hlex
    rcases hcases with ⟨hblank, -⟩ | ⟨t, span, ht, rfl⟩
    · exact absurd hblank (by simp)
    · obtain rfl := Lexeme.token.inj ht
      have hrefused : Expr.reader.step Expr.reader.start (.sign s) = none := by
        rcases hs with rfl | rfl <;> rfl
      rw [Automaton.run, hrefused] at hrun
      exact absurd hrun (by simp)

/-- A blank is none of the characters that the scan looks at. -/
theorem plain_of_isBlank {c : Char} (h : isBlank c = true) : Plain c :=
  plain_of (by decide) h

/-- **Targets and an expression are cut apart at the sign between them.** -/
theorem cutBare_assignment (htargets : targetsReader.read targets = .ok names)
    (hvalue : Expr.reader.read value = .ok e) (hleft : ∀ c ∈ left, isBlank c = true)
    (hright : ∀ c ∈ right, isBlank c = true) :
    cutBare none false none (targets ++ left ++ '=' :: (right ++ value)) =
      [targets ++ left, right ++ value] := by
  obtain ⟨hne, hplain⟩ := plain_of_targets htargets
  obtain ⟨hpasses, -, hhead⟩ := passes_of_expr hvalue
  have hplainLeft : ∀ c ∈ targets ++ left, Plain c :=
    List.forall_mem_append.mpr ⟨hplain, fun c hc => plain_of_isBlank (hleft c hc)⟩
  have hpassesRight : Passes (right ++ value) :=
    (passes_of_plain fun c hc => plain_of_isBlank (hright c hc)).append hpasses
  have hne' : targets ++ left ≠ [] := List.append_ne_nil_of_left_ne_nil hne left
  obtain ⟨before, hbefore⟩ := Option.isSome_iff_exists.mp (List.getLast?_isSome.mpr hne')
  have hfront : Plain before := hplainLeft before (List.mem_of_getLast? hbefore)
  have hbehind : (right ++ value).head? ≠ some '=' := by
    cases right with
    | nil => exact hhead
    | cons c right =>
      intro hc
      obtain rfl : c = '=' := Option.some.inj hc
      exact absurd (hright '=' List.mem_cons_self) (by decide)
  have hcompound : isCompound (some before) (right ++ value).head? = false := by
    simp only [Plain, marks, List.mem_cons, not_or] at hfront
    rw [isCompound, beq_eq_false_iff_ne.mpr hbehind]
    simp [hfront]
  have hcut : cutBare none false (some before) ('=' :: (right ++ value)) =
      [] :: cutBare none false (some '=') (right ++ value) := by
    have hquote : ('=' == '"' || '=' == '\'') = false := rfl
    simp only [cutBare, hquote, hcompound, Bool.false_eq_true, if_false, beq_self_eq_true,
      Bool.not_false, Bool.and_self, if_true]
  rw [cutBare_plain hplainLeft, hbefore, Option.some_or, hcut, hpassesRight.cutBare_eq, prepend_cons,
    List.append_nil]

/-- Nothing is trimmed from an assignment behind its keyword. -/
theorem trim_assignment {left right : List Char} (hne : targets ≠ []) (hne' : value ≠ [])
    (htargets : trim targets = targets) (hvalue : trim value = value) :
    trim (targets ++ left ++ '=' :: (right ++ value)) =
      targets ++ left ++ '=' :: (right ++ value) := by
  obtain ⟨hfirst, -⟩ := trim_eq_self_iff.mp htargets
  obtain ⟨-, hlast⟩ := trim_eq_self_iff.mp hvalue
  refine trim_eq_self_iff.mpr ⟨?_, ?_⟩
  · rwa [List.append_assoc, List.head?_append_of_ne_nil _ hne]
  · have hend : (targets ++ left ++ '=' :: (right ++ value)).getLast? = value.getLast? := by
      rw [← List.cons_append, ← List.append_assoc, List.getLast?_append_of_ne_nil _ hne']
    rwa [hend]

end Text

namespace Grammar

variable {targets value left right : List Char} {names : List String} {e : Expr}

/-- **An assignment is read as its targets and its expression.** -/
theorem match?_assignment (config : Config) (htargets : targetsReader.read targets = .ok names)
    (hvalue : Expr.reader.read value = .ok e) (hends : Text.trim targets = targets)
    (hends' : Text.trim value = value) (hleft : ∀ c ∈ left, Text.isBlank c = true)
    (hright : ∀ c ∈ right, Text.isBlank c = true) :
    Text.cutBare none false none (targets ++ left ++ '=' :: (right ++ value)) =
        [targets ++ left, right ++ value] ∧
      assignment.match? config ("let ".toList ++ (targets ++ left ++ '=' :: (right ++ value))) =
        .ok (some (.assignment names e)) := by
  have hcut := Text.cutBare_assignment htargets hvalue hleft hright
  refine ⟨hcut, ?_⟩
  obtain ⟨hne, -⟩ := Text.plain_of_targets htargets
  obtain ⟨-, hne', -⟩ := Text.passes_of_expr hvalue
  have hword (rest : List Char) :
      splitKeyword ("let ".toList ++ rest) = ("let", Text.trim rest) := rfl
  have hread : readAssignment (targets ++ left ++ '=' :: (right ++ value)) =
      .ok (.assignment names e) := by
    simp only [readAssignment, hcut, Text.trim_append_blanks hleft, Text.trim_blanks_append hright,
      hends, hends', List.isEmpty_eq_false_iff.mpr hne, List.isEmpty_eq_false_iff.mpr hne',
      Bool.or_self, Bool.false_eq_true, if_false, htargets, readHead, hvalue]
    rfl
  simp only [match?, hword, Text.trim_assignment hne hne' hends hends', beq_self_eq_true, if_true,
    hread]
  rfl

/-- Equals signs in quoted texts, behind escapes and next to marks of the other kind, and in
comparisons. -/
theorem match?_assignment_amidEquals :
    assignment.match? .default "let a, b=[x == '=\"\\'é=', y <= \"='\\\\\"]".toList =
      .ok (some (.assignment ["a", "b"] (.list
        [.binary .eq (.name "x") (.lit (.str "=\"'é=")),
          .binary .le (.name "y") (.lit (.str "='\\"))]))) := by
  have htargets : targetsReader.read "a, b".toList = .ok ["a", "b"] := by cbv
  have hvalue : Expr.reader.read "[x == '=\"\\'é=', y <= \"='\\\\\"]".toList = .ok (.list
      [.binary .eq (.name "x") (.lit (.str "=\"'é=")),
        .binary .le (.name "y") (.lit (.str "='\\"))]) := by cbv
  have hnone : ∀ c ∈ ([] : List Char), Text.isBlank c = true := fun _ hc =>
    absurd hc List.not_mem_nil
  exact (match?_assignment .default htargets hvalue (by decide) (by decide) hnone hnone).2

end Grammar

end Inlay
