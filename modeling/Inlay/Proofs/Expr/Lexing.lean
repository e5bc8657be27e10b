import Inlay.Proofs.Expr.Writing
import Mathlib

/-!
# Tokens read back

Tokens that are written with single blanks between them are read back, one after the other: a token ends
where a blank or the end of the text follows, and no token begins like a run of blanks.  Each may have any
spelling of its own, and its span is where this stands.

* `Lexeme.Spells`: a text in front of a blank is this token.
* `Token.SpelledAs`: the spellings of a token; `Token.SpelledAs.spells`.
* `Token.joined`, `Token.placedFrom`: spellings with blanks between them, and where each stands.
* `Token.lexFrom_joined`: spellings with blanks between them are read back.
* `Token.exists_lex_writtenAll`: so are the texts that tokens are written as.
-/

namespace Inlay

/-- At the end of the text, or in front of a blank. -/
def AtBreak (rest : List Char) : Prop :=
  rest = [] ∨ ∃ tail, rest = ' ' :: tail

/-- A run of characters that are no blanks ends there. -/
theorem AtBreak.takeWhile_append {rest : List Char} (h : AtBreak rest) {p : Char → Bool}
    (hblank : p ' ' = false) {run : List Char} (hrun : ∀ c ∈ run, p c = true) :
    (run ++ rest).takeWhile p = run := by
  rw [List.takeWhile_append_of_pos hrun]
  rcases h with rfl | ⟨tail, rfl⟩
  · rw [List.takeWhile_nil, List.append_nil]
  · rw [List.takeWhile_cons_of_neg (by simp [hblank]), List.append_nil]

namespace Lexeme

variable {c : Char} {tail rest : List Char} {mark : QuoteMark}

/-- A character that begins no run of blanks, whatever follows. -/
def StartsToken (c : Char) : Prop :=
  isSpace c = false ∧ c ≠ '\\'

instance (c : Char) : Decidable (StartsToken c) :=
  inferInstanceAs (Decidable (_ ∧ _))

/-- In front of a blank or of the end, the text is this token. -/
inductive Spells (t : Token) : List Char → Prop where
  | mk {c : Char} {tail : List Char} (starts : StartsToken c)
      (first_eq : ∀ rest, AtBreak rest → first c (tail ++ rest) = (.token t, tail.length)) :
      Spells t (c :: tail)

theorem StartsToken.startsBlank (h : StartsToken c) (rest : List Char) :
    startsBlank c rest = false := by
  rw [Lexeme.startsBlank, h.1, beq_eq_false_iff_ne.mpr h.2]
  rfl

/-- A class of characters without blanks and the backslash. -/
theorem startsToken_of {p : Char → Bool}
    (hp : ([' ', '\t', '\r', '\n', '\x0c', '\\'].all fun d => !p d) = true) (h : p c = true) :
    StartsToken c := by
  have hne : ∀ d ∈ [' ', '\t', '\r', '\n', '\x0c', '\\'], c ≠ d := by
    rintro d hd rfl
    exact absurd (List.all_eq_true.mp hp c hd) (by simp [h])
  simp only [List.forall_mem_cons] at hne
  obtain ⟨hspace, htab, hreturn, hline, hpage, hslash, -⟩ := hne
  exact ⟨by simp [isSpace, hspace, htab, hreturn, hline, hpage], hslash⟩

/-! ## Words -/

/-- A word: its first character begins names, and the others go on with them. -/
def isWord : List Char → Bool
  | [] => false
  | c :: tail => isNameStart c && tail.all isNamePart

/-- A word is the keyword with this spelling, or else a name. -/
theorem spells_word {word : String} (h : isWord word.toList = true) :
    Spells ((Sign.ofWord? word).elim (.name word) .sign) word.toList := by
  cases hword : word.toList with
  | nil =>
    rw [hword] at h
    exact absurd h Bool.false_ne_true
  | cons c tail =>
    rw [hword, isWord, Bool.and_eq_true, List.all_eq_true] at h
    obtain ⟨hc, htail⟩ := h
    have hstarts : StartsToken c := startsToken_of (by decide) hc
    have hofList : String.ofList (c :: tail) = word := by rw [← hword, String.ofList_toList]
    refine .mk hstarts fun rest hrest => ?_
    have hrun := hrest.takeWhile_append (p := isNamePart) (by decide) htail
    rw [← hofList, first, hstarts.startsBlank, if_neg Bool.false_ne_true, if_pos hc, hrun]

/-- The words that are no names are the spellings of the keywords. -/
theorem contains_keywords (n : String) : keywords.contains n = (Sign.ofWord? n).isSome := by
  have hall : keywords = Sign.keywords.flatMap Sign.spellings := rfl
  rw [Bool.eq_iff_iff, List.contains_iff_mem, hall, List.mem_flatMap, Sign.ofWord?, List.find?_isSome]
  simp only [List.contains_iff_mem]

theorem isName_iff {n : String} :
    isName n = true ↔ isWord n.toList = true ∧ Sign.ofWord? n = none := by
  rw [isName, contains_keywords, ← Option.isNone_iff_eq_none]
  cases n.toList with
  | nil => simp [isWord]
  | cons c tail => simp [isWord, isNameStart, isNamePart, and_assoc]

theorem spells_name {n : String} (h : isName n = true) : Spells (.name n) n.toList := by
  obtain ⟨hword, hnone⟩ := isName_iff.mp h
  have hspells := spells_word hword
  rwa [hnone] at hspells

/-- Every keyword is spelled like a name, in each of its spellings. -/
theorem spells_keyword {s : Sign} (hs : s ∈ Sign.keywords) {word : String} (hword : word ∈ s.spellings) :
    Spells (.sign s) word.toList := by
  have hall : ∀ s ∈ Sign.keywords, ∀ word ∈ s.spellings,
      isWord word.toList = true ∧ Sign.ofWord? word = some s := by decide
  obtain ⟨hchars, hsign⟩ := hall s hs word hword
  have hspells := spells_word hchars
  rwa [hsign] at hspells

/-- Every other sign is told by its one or two characters. -/
theorem spells_sign {s : Sign} {word : String} (hword : word ∈ s.spellings) :
    Spells (.sign s) word.toList := by
  by_cases hs : s ∈ Sign.keywords
  · exact spells_keyword hs hword
  · cases s
    case and | or | not | isIn | is | ifTest | elseBranch | asName | import_ | true_ | false_ | none_ =>
      exact absurd (by decide) hs
    all_goals
      obtain rfl := List.mem_singleton.mp hword
      refine .mk (by decide) fun rest hrest => ?_
      rcases hrest with rfl | ⟨tail, rfl⟩ <;> rfl

/-! ## Numbers -/

theorem digitsValue_digits (n : Nat) : Decimal.digitsValue (Decimal.digits n) = n :=
  Nat.ofDigitChars_toDigits (by decide) (by decide)

/-- No fraction follows a number in front of a blank. -/
theorem fractionLength_of_atBreak (h : AtBreak rest) : fractionLength rest = 0 := by
  rcases h with rfl | ⟨tail, rfl⟩ <;> rfl

theorem word?_toInt (n : Int64) : word? n.toInt = some n := by
  rw [word?, if_pos ⟨Int64.le_toInt n, Int64.toInt_le n⟩, Int64.ofInt_toInt]

/-- No name begins with a digit. -/
theorem isNameStart_of_isDigit (h : c.isDigit = true) : isNameStart c = false := by
  have hne : c ≠ '_' := by
    rintro rfl
    exact absurd h (by decide)
  have h9 : '9'.val.toNat = 57 := rfl
  have hA : 'A'.val.toNat = 65 := rfl
  have ha : 'a'.val.toNat = 97 := rfl
  simp only [Char.isDigit, Bool.and_eq_true, decide_eq_true_eq, UInt32.le_iff_toNat_le] at h
  simp only [isNameStart, Char.isAlpha, Char.isUpper, Char.isLower, Bool.or_eq_false_iff,
    Bool.and_eq_false_iff, decide_eq_false_iff_not, beq_eq_false_iff_ne, ge_iff_le,
    UInt32.le_iff_toNat_le]
  exact ⟨⟨by omega, by omega⟩, hne⟩

/-- A number is read from its digits, zeros in front of them included. -/
theorem spells_digits {n : Int64} {ds : List Char} (hne : ds ≠ []) (hdigits : ∀ c ∈ ds, c.isDigit = true)
    (hvalue : (Decimal.digitsValue ds : Int) = n.toInt) : Spells (.int n) ds := by
  obtain ⟨c, tail, rfl⟩ := List.exists_cons_of_ne_nil hne
  obtain ⟨hc, htail⟩ := List.forall_mem_cons.mp hdigits
  have hstarts : StartsToken c := startsToken_of (by decide) hc
  have hname := isNameStart_of_isDigit hc
  refine .mk hstarts fun rest hrest => ?_
  have hrun := hrest.takeWhile_append (p := Char.isDigit) (by decide) htail
  have hword : word? (Decimal.digitsValue (c :: tail) : Int) = some n := by
    rw [hvalue, word?_toInt]
  simp only [first, hstarts.startsBlank, hname, hc, hrun, List.drop_left,
    fractionLength_of_atBreak hrest, ofNumber, hword, Bool.false_eq_true, if_false, if_true,
    beq_self_eq_true, Nat.add_zero]

/-! ## Quoted texts -/

end Lexeme

namespace QuoteMark

variable {mark : QuoteMark} {c : Char}

/-- A backslash stands in front of these characters. -/
def Escapes (mark : QuoteMark) (c : Char) : Prop :=
  c = '\\' ∨ c = mark.char

theorem escape_cons_of_escapes (h : mark.Escapes c) (s : List Char) :
    mark.escape (c :: s) = '\\' :: c :: mark.escape s := by
  unfold Escapes at h
  rw [escape, List.flatMap_cons, if_pos h]
  rfl

theorem escape_cons_of_not_escapes (h : ¬ mark.Escapes c) (s : List Char) :
    mark.escape (c :: s) = c :: mark.escape s := by
  unfold Escapes at h
  rw [escape, List.flatMap_cons, if_neg h]
  rfl

/-- What stands behind a backslash is a backslash or one of the quote marks. -/
theorem Escapes.mem (h : mark.Escapes c) : c ∈ ['\\', '"', '\''] := by
  rcases h with rfl | rfl
  · decide
  · cases mark <;> decide

end QuoteMark

namespace Lexeme

variable {c : Char} {tail rest : List Char} {mark : QuoteMark}

/-- A mark behind a backslash does not end a quoted text. -/
theorem quotedLength_escape (s rest : List Char) :
    quotedLength mark.char (mark.escape s ++ mark.char :: rest) =
      (true, (mark.escape s).length + 1) := by
  induction s with
  | nil => cases mark <;> rfl
  | cons c s ih =>
    by_cases h : mark.Escapes c
    · have hline : (c == '\n') = false := by
        rcases List.mem_cons.mp h.mem with rfl | hc
        · decide
        · simp only [List.mem_cons, List.not_mem_nil, or_false] at hc
          rcases hc with rfl | rfl <;> decide
      rw [QuoteMark.escape_cons_of_escapes h]
      simp only [List.cons_append, quotedLength, hline, ih, List.length_cons]
      rfl
    · obtain ⟨hslash, hmark⟩ := not_or.mp h
      rw [QuoteMark.escape_cons_of_not_escapes h]
      rw [List.cons_append, quotedLength, ih]
      · simp [hmark]
      · exact fun hc => absurd hc hslash
      · exact fun _ _ hc => absurd hc hslash

theorem unescape_escape (s : List Char) : unescape (mark.escape s) = s := by
  induction s with
  | nil => rfl
  | cons c s ih =>
    by_cases h : mark.Escapes c
    · have hc := h.mem
      rw [QuoteMark.escape_cons_of_escapes h, unescape]
      simp only [List.mem_cons, List.not_mem_nil, or_false] at hc
      rcases hc with rfl | rfl | rfl <;> rw [ih] <;> rfl
    · rw [QuoteMark.escape_cons_of_not_escapes h, unescape, ih]
      exact fun _ _ hc => absurd hc (not_or.mp h).1

theorem spells_str (mark : QuoteMark) (s : String) :
    Spells (.str s) (mark.char :: (mark.escape s.toList ++ [mark.char])) := by
  have hstarts : StartsToken mark.char := by cases mark <;> decide
  have hname : isNameStart mark.char = false := by cases mark <;> decide
  have hdigit : mark.char.isDigit = false := by cases mark <;> decide
  have hquote : (mark.char == '"' || mark.char == '\'') = true := by cases mark <;> decide
  refine .mk hstarts fun rest _ => ?_
  rw [first, hstarts.startsBlank, hname, hdigit, hquote, List.append_assoc, List.singleton_append,
    quotedLength_escape]
  simp [unescape_escape, String.ofList_toList]

end Lexeme

/-! ## Tokens with blanks between them -/

open Lexeme

theorem Sign.symbol_mem_spellings (s : Sign) : s.symbol ∈ s.spellings := by
  cases s <;> decide

/-- **The spellings of a token**: those of a sign, a name itself, any digits that have the value of an
integer, and a text in marks of either kind, with backslashes in front of its backslashes and of the marks
of that kind.  Floats are left out. -/
inductive Token.SpelledAs : Token → List Char → Prop where
  | sign {s : Sign} {word : String} (h : word ∈ s.spellings) : SpelledAs (.sign s) word.toList
  | name {n : String} (h : isName n = true) : SpelledAs (.name n) n.toList
  | int {n : Int64} {ds : List Char} (hne : ds ≠ []) (hdigits : ∀ c ∈ ds, c.isDigit = true)
      (hvalue : (Decimal.digitsValue ds : Int) = n.toInt) : SpelledAs (.int n) ds
  | str (mark : QuoteMark) (s : String) :
      SpelledAs (.str s) (mark.char :: (mark.escape s.toList ++ [mark.char]))

/-- **A spelling of a token is this token.** -/
theorem Token.SpelledAs.spells {t : Token} {text : List Char} (h : t.SpelledAs text) :
    Spells t text := by
  cases h with
  | sign h => exact spells_sign h
  | name h => exact spells_name h
  | int hne hdigits hvalue => exact spells_digits hne hdigits hvalue
  | str mark s => exact spells_str mark s

/-- An integer without a sign is spelled as it is written. -/
theorem Token.spelledAs_writeInt {n : Int64} (h : 0 ≤ n.toInt) :
    SpelledAs (.int n) (Decimal.writeInt n.toInt) := by
  have hwritten : Decimal.writeInt n.toInt = Decimal.digits n.toInt.natAbs := by
    rw [Decimal.writeInt, if_neg (by omega)]
  rw [hwritten]
  refine .int (by simp [Decimal.digits]) (fun c hc => ?_) ?_
  · exact Nat.isDigit_of_mem_toDigits (by decide) (by decide) hc
  · rw [digitsValue_digits, Int.natAbs_of_nonneg h]

/-- What is written for a token is one of its spellings. -/
theorem Token.Writable.spelledAs {t : Token} (h : t.Writable) (mark : QuoteMark) :
    t.SpelledAs (t.written mark) := by
  cases t with
  | sign s => exact .sign s.symbol_mem_spellings
  | name n => exact .name h
  | int n => exact spelledAs_writeInt h
  | float x => exact h.elim
  | str s => exact .str mark s

/-- A single blank in front of a token is a whole run of blanks. -/
theorem Lexeme.StartsToken.first_blank {c : Char} (hc : StartsToken c) (rest : List Char) :
    first ' ' (c :: rest) = (.blank, 0) := by
  have hlength : blankLength (c :: rest) = 0 := by
    rw [blankLength, hc.1]
    · rfl
    all_goals intros; exact absurd ‹_› hc.2
  have hspace : blankLength (' ' :: c :: rest) = 1 := by
    simp [blankLength, hlength, isSpace]
  have hstarts : Lexeme.startsBlank ' ' (c :: rest) = true := rfl
  rw [first, if_pos hstarts, hspace]

theorem Lexeme.StartsToken.lexFrom_blank {c : Char} (hc : StartsToken c) (offset : Nat)
    (rest : List Char) :
      Token.lexFrom offset (' ' :: c :: rest) = Token.lexFrom (offset + 1) (c :: rest) := by
  rw [Token.lexFrom, hc.first_blank]
  rfl

/-- The token is the first one read, in front of a blank or of the end, and its span is that of its
text. -/
theorem Lexeme.Spells.lexFrom {t : Token} {text : List Char} (h : Spells t text)
    {rest : List Char} (hrest : AtBreak rest) (offset : Nat) :
      Token.lexFrom offset (text ++ rest) =
        (Token.lexFrom (offset + byteLength text) rest).map fun tokens =>
          (t, ⟨offset, offset + byteLength text⟩) :: tokens := by
  obtain ⟨-, hfirst⟩ := h
  simp only [List.cons_append]
  rw [Token.lexFrom, hfirst rest hrest]
  simp only [List.drop_left, List.take_left]

theorem Lexeme.Spells.exists_starts {t : Token} {text : List Char} (h : Spells t text)
    (rest : List Char) : ∃ c tail, text ++ rest = c :: tail ∧ StartsToken c := by
  obtain ⟨hc, -⟩ := h
  exact ⟨_, _, rfl, hc⟩

namespace Token

/-- Spellings with single blanks between them. -/
def joined (spelled : List (Token × List Char)) : List Char :=
  [' '].intercalate (spelled.map Prod.snd)

/-- The tokens with the places of their spellings, when these stand with single blanks between them and the
first one at a byte offset. -/
def placedFrom (offset : Nat) : List (Token × List Char) → List (Token × Span)
  | [] => []
  | (t, text) :: rest =>
    (t, ⟨offset, offset + byteLength text⟩) :: placedFrom (offset + byteLength text + 1) rest

/-- Every text of the row is a spelling of its token. -/
def AllSpelled (spelled : List (Token × List Char)) : Prop :=
  ∀ p ∈ spelled, p.1.SpelledAs p.2

theorem joined_cons_cons (t : Token) (text : List Char) (p : Token × List Char)
    (spelled : List (Token × List Char)) :
    joined ((t, text) :: p :: spelled) = text ++ ' ' :: joined (p :: spelled) :=
  rfl

/-- A row of spellings begins like a token. -/
theorem AllSpelled.exists_joined {p : Token × List Char} {spelled : List (Token × List Char)}
    (h : AllSpelled (p :: spelled)) : ∃ c rest, joined (p :: spelled) = c :: rest ∧ StartsToken c := by
  obtain ⟨t, text⟩ := p
  have hspells : Spells t text := (h _ (List.mem_cons_self ..)).spells
  cases spelled with
  | nil =>
    rw [joined, List.map_singleton, List.intercalate_singleton, ← List.append_nil text]
    exact hspells.exists_starts []
  | cons p spelled =>
    rw [joined_cons_cons]
    exact hspells.exists_starts _

/-- **Spellings with single blanks between them are read back**, wherever they stand. -/
theorem lexFrom_joined : ∀ {spelled : List (Token × List Char)}, AllSpelled spelled → ∀ offset,
    lexFrom offset (joined spelled) = .ok (placedFrom offset spelled)
  | [], _, offset => by rw [joined, List.map_nil, List.intercalate_nil, lexFrom, placedFrom]
  | [(t, text)], h, offset => by
    have hspells : Spells t text := (h _ (List.mem_cons_self ..)).spells
    have hlex := hspells.lexFrom (.inl rfl) offset
    rw [List.append_nil] at hlex
    rw [joined, List.map_singleton, List.intercalate_singleton, hlex, lexFrom]
    rfl
  | (t, text) :: p :: spelled, h, offset => by
    obtain ⟨hspelled, hrest⟩ := List.forall_mem_cons.mp h
    have hspells : Spells t text := hspelled.spells
    have hblank : AtBreak (' ' :: joined (p :: spelled)) := .inr ⟨_, rfl⟩
    obtain ⟨c, rest, hjoined, hc⟩ := AllSpelled.exists_joined hrest
    rw [joined_cons_cons, hspells.lexFrom hblank, hjoined, hc.lexFrom_blank, ← hjoined,
      lexFrom_joined hrest]
    rfl

theorem map_fst_placedFrom (offset : Nat) (spelled : List (Token × List Char)) :
    (placedFrom offset spelled).map Prod.fst = spelled.map Prod.fst := by
  induction spelled generalizing offset with
  | nil => rfl
  | cons p spelled ih =>
    rw [placedFrom, List.map_cons, List.map_cons, ih]

/-- **Tokens with single blanks between them are read back.** -/
theorem exists_lex_writtenAll (mark : QuoteMark) {tokens : List Token} (h : AllWritable tokens) :
    ∃ spanned, lex (writtenAll mark tokens) = .ok spanned ∧ spanned.map Prod.fst = tokens := by
  have hspelled : AllSpelled (tokens.map fun t => (t, t.written mark)) := by
    intro p hp
    obtain ⟨t, ht, rfl⟩ := List.mem_map.mp hp
    exact (h t ht).spelledAs mark
  have hwritten : joined (tokens.map fun t => (t, t.written mark)) = writtenAll mark tokens := by
    rw [joined, writtenAll, List.map_map]
    rfl
  refine ⟨_, hwritten ▸ lexFrom_joined hspelled 0, ?_⟩
  rw [map_fst_placedFrom, List.map_map]
  exact List.map_id' tokens

end Token

/-! ## Where spellings stand -/

/-- The span is that of a part of the text, in bytes. -/
def Span.Covers (span : Span) (text part : List Char) : Prop :=
  ∃ before behind, text = before ++ (part ++ behind) ∧
    span = ⟨byteLength before, byteLength before + byteLength part⟩

namespace Token

/-- The places of spellings are where these stand, behind any text. -/
theorem covers_placedFrom : ∀ (before : List Char) (spelled : List (Token × List Char)),
    List.Forall₂ (fun placed p => placed.1 = p.1 ∧ placed.2.Covers (before ++ joined spelled) p.2)
      (placedFrom (byteLength before) spelled) spelled
  | _, [] => .nil
  | before, [(t, text)] => by
    refine .cons ⟨rfl, before, [], ?_, rfl⟩ .nil
    rw [joined, List.map_singleton, List.intercalate_singleton, List.append_nil]
  | before, (t, text) :: p :: spelled => by
    have hrest := covers_placedFrom (before ++ (text ++ [' '])) (p :: spelled)
    have hjoined : before ++ (text ++ [' ']) ++ joined (p :: spelled) =
        before ++ joined ((t, text) :: p :: spelled) := by
      rw [joined_cons_cons, List.append_assoc, List.append_assoc]
      rfl
    have hoffset : byteLength (before ++ (text ++ [' '])) =
        byteLength before + byteLength text + 1 := by
      rw [byteLength_append, byteLength_append, Nat.add_assoc]
      rfl
    rw [hjoined, hoffset] at hrest
    exact .cons ⟨rfl, before, ' ' :: joined (p :: spelled), by rw [joined_cons_cons], rfl⟩ hrest

/-- **Lexing undoes spelling.**  Tokens in any spellings of theirs, with single blanks between them, are
read back one by one, and the span of each is that of its spelling. -/
theorem lex_joined {spelled : List (Token × List Char)} (h : AllSpelled spelled) :
    lex (joined spelled) = .ok (placedFrom 0 spelled) ∧
      List.Forall₂ (fun placed p => placed.1 = p.1 ∧ placed.2.Covers (joined spelled) p.2)
        (placedFrom 0 spelled) spelled :=
  ⟨lexFrom_joined h 0, covers_placedFrom [] spelled⟩

/-- A keyword in its other spelling, a name that begins like a keyword, a text with its own mark and a
backslash in it, and two slashes that are not one sign. -/
theorem lex_joined_slashes : ∃ spelled, AllSpelled spelled ∧
    joined spelled = "True notable 'it\\'s \\\\' / / 07".toList ∧
      lex (joined spelled) = .ok [(.sign .true_, ⟨0, 4⟩), (.name "notable", ⟨5, 12⟩),
        (.str "it's \\", ⟨13, 23⟩), (.sign .slash, ⟨24, 25⟩), (.sign .slash, ⟨26, 27⟩),
        (.int 7, ⟨28, 30⟩)] := by
  let spelled : List (Token × List Char) :=
    [(.sign .true_, "True".toList), (.name "notable", "notable".toList),
      (.str "it's \\", '\'' :: (QuoteMark.single.escape "it's \\".toList ++ ['\''])),
      (.sign .slash, "/".toList), (.sign .slash, "/".toList), (.int 7, ['0', '7'])]
  have htrue : SpelledAs (.sign .true_) "True".toList := .sign (by decide)
  have hname : SpelledAs (.name "notable") "notable".toList := .name (by decide +kernel)
  have hslash : SpelledAs (.sign .slash) "/".toList := .sign (by decide)
  have hseven : SpelledAs (.int 7) ['0', '7'] :=
    .int (List.cons_ne_nil _ _) (List.all_eq_true.mp rfl) rfl
  have hspelled : AllSpelled spelled := by
    simp only [AllSpelled, spelled, List.forall_mem_cons]
    exact ⟨htrue, hname, .str .single _, hslash, hslash, hseven, fun _ h => absurd h List.not_mem_nil⟩
  have hspans : (placedFrom 0 spelled).map Prod.snd =
      [⟨0, 4⟩, ⟨5, 12⟩, ⟨13, 23⟩, ⟨24, 25⟩, ⟨26, 27⟩, ⟨28, 30⟩] := by decide +kernel
  refine ⟨spelled, hspelled, by decide +kernel, (lex_joined hspelled).1.trans ?_⟩
  simpa [placedFrom, spelled] using hspans

end Token

end Inlay
