import Inlay.Json.Reader
import Inlay.Filter
import Inlay.Proofs.Json.Texts
import Inlay.Proofs.Expr.Lexing

/-!
# Reading the JSON texts of a value

The reader takes every JSON text of a value for this value, in front of whatever may follow a value.  It
follows the texts: each character of a string is one step, each item of a list and each entry of an object is
a value and what ends it.  Steps are bounded by the length of the text, nesting by a number that is given.

* `Json.SpellsChars.readText?`: a string is read as the characters that it stands for.
* `Json.readNumber?_writeInt`: an integer is read as itself.
* `Json.Spells.readAs`, `Json.Spells.read?`: a text of a value is read as this value.
* `Json.Spells.unique`: no text is a text of two values.
* `Filter.json_lossless`: the filter writes ASCII that is read as the value.
-/

namespace Inlay.Json

/-! ## Strings -/

theorem readUnit?_append {digits : List Char} {n : ℕ} (hlength : digits.length = 4)
    (hvalue : Text.hexNumber? digits = some n) (rest : List Char) :
    readUnit? (digits ++ rest) = some (n, rest) := by
  match digits, hlength with
  | [a, b, c, d], _ =>
    show (Text.hexNumber? [a, b, c, d]).map (·, rest) = _
    rw [hvalue, Option.map_some]

/-- A code unit that is no surrogate is the number of a character. -/
theorem readEscaped?_append {unit : ℕ} {digits : List Char} (hunit : unit < 0xd800 ∨ 0xdfff < unit)
    (hlength : digits.length = 4) (hvalue : Text.hexNumber? digits = some unit) (rest : List Char) :
    readEscaped? (digits ++ rest) = some (Char.ofNat unit, rest) := by
  simp only [readEscaped?, readUnit?_append hlength hvalue, Option.bind_eq_bind, Option.bind_some,
    if_pos hunit, Option.pure_def]

/-- Two surrogates are put together. -/
theorem readEscaped?_append_append {lead trail : ℕ} {digits digits' : List Char}
    (hlead : 0xd800 ≤ lead ∧ lead ≤ 0xdbff) (htrail : 0xdc00 ≤ trail ∧ trail ≤ 0xdfff)
    (hlength : digits.length = 4) (hvalue : Text.hexNumber? digits = some lead)
    (hlength' : digits'.length = 4) (hvalue' : Text.hexNumber? digits' = some trail) (rest : List Char) :
    readEscaped? (digits ++ '\\' :: 'u' :: (digits' ++ rest)) =
      some (Char.ofNat (0x10000 + (lead - 0xd800) * 0x400 + (trail - 0xdc00)), rest) := by
  have hsurrogate : ¬ (lead < 0xd800 ∨ 0xdfff < lead) := by omega
  have htrail' : ¬ (trail < 0xdc00 ∨ 0xdfff < trail) := by omega
  simp only [readEscaped?, readUnit?_append hlength hvalue, readUnit?_append hlength' hvalue',
    Option.bind_eq_bind, Option.bind_some, if_neg hsurrogate, if_neg (Nat.not_lt.mpr hlead.2),
    if_neg htrail', Option.pure_def]

/-- **The escapes of the code units of a character are read as this character.** -/
theorem readEscaped?_of_units {c : Char} {texts : List (List Char)}
    (h : List.Forall₂ SpellsUnit (codeUnits c) texts) :
    ∃ tail, texts.flatten = '\\' :: 'u' :: tail ∧
      ∀ rest, readEscaped? (tail ++ rest) = some (c, rest) := by
  have hc := toNat_range c
  rw [codeUnits] at h
  split at h
  · rename_i hlow
    obtain ⟨text, texts, @⟨digits, hlength, hvalue⟩, hnil, rfl⟩ := List.forall₂_cons_left_iff.mp h
    obtain rfl := List.forall₂_nil_left_iff.mp hnil
    refine ⟨digits, by simp, fun rest => ?_⟩
    rw [readEscaped?_append (by omega) hlength hvalue, Char.ofNat_toNat]
  · rename_i hhigh
    obtain ⟨text, texts, @⟨digits, hlength, hvalue⟩, hrest, rfl⟩ := List.forall₂_cons_left_iff.mp h
    obtain ⟨text', texts, @⟨digits', hlength', hvalue'⟩, hnil, rfl⟩ := List.forall₂_cons_left_iff.mp hrest
    obtain rfl := List.forall₂_nil_left_iff.mp hnil
    refine ⟨digits ++ '\\' :: 'u' :: digits', by simp, fun rest => ?_⟩
    have hsum : 0x10000 + (0xd800 + (c.toNat - 0x10000) / 0x400 - 0xd800) * 0x400 +
        (0xdc00 + (c.toNat - 0x10000) % 0x400 - 0xdc00) = c.toNat := by omega
    rw [List.append_assoc, List.cons_append, List.cons_append,
      readEscaped?_append_append (by omega) (by omega) hlength hvalue hlength' hvalue', hsum, Char.ofNat_toNat]

theorem shortEscape?_of_mem {e c : Char} (h : (e, c) ∈ shortEscapes) :
    shortEscape? e = some c ∧ e ≠ 'u' := by
  have hall : ∀ p ∈ shortEscapes, shortEscape? p.1 = some p.2 ∧ p.1 ≠ 'u' := by decide
  exact hall _ h

/-- **What stands for a character is one step of the reader.** -/
theorem SpellsChar.readText? {c : Char} {text : List Char} (h : SpellsChar c text) (fuel : ℕ)
    (rest : List Char) :
    readText? (fuel + 1) (text ++ rest) = (readText? fuel rest).map fun (s, rest) => (c :: s, rest) := by
  cases h with
  | plain hlow hquote hslash =>
    have hkept : (decide (c.toNat < 0x20) || c == '\\') = false := by simp [hslash]; omega
    rw [List.singleton_append, Json.readText?, hkept]
    · rfl
    all_goals simp_all
  | short h =>
    obtain ⟨hshort, hu⟩ := shortEscape?_of_mem h
    rw [List.cons_append, List.singleton_append, Json.readText?, hshort]
    · simp [Option.map_eq_bind]
    · simpa using hu
  | units h =>
    obtain ⟨tail, htail, hread⟩ := readEscaped?_of_units h
    rw [htail, List.cons_append, List.cons_append, Json.readText?, hread]
    simp [Option.map_eq_bind]

theorem SpellsChar.length_pos {c : Char} {text : List Char} (h : SpellsChar c text) : 0 < text.length := by
  cases h with
  | plain => exact Nat.one_pos
  | short => exact Nat.two_pos
  | units h =>
    obtain ⟨tail, htail, -⟩ := readEscaped?_of_units h
    rw [htail]
    exact Nat.succ_pos _

/-- **A string is read as the characters that it stands for.** -/
theorem SpellsChars.readText? {s inner : List Char} (h : SpellsChars s inner) {fuel : ℕ}
    (hfuel : inner.length < fuel) (rest : List Char) :
    readText? fuel (inner ++ '"' :: rest) = some (s, rest) := by
  induction h generalizing fuel with
  | nil =>
    obtain ⟨fuel, rfl⟩ := Nat.exists_eq_add_of_lt hfuel
    rfl
  | @cons c s text inner hc _ ih =>
    have hpos := hc.length_pos
    rw [List.length_append] at hfuel
    obtain ⟨fuel, rfl⟩ : ∃ n, fuel = n + 1 := ⟨fuel - 1, by omega⟩
    rw [List.append_assoc, hc.readText?, ih (by omega), Option.map_some]

theorem QuotedText.readText? (q : QuotedText) (rest : List Char) :
    readText? ((q.inner ++ '"' :: rest).length + 1) (q.inner ++ '"' :: rest) =
      some (q.string.toList, rest) := by
  refine q.spells.readText? ?_ rest
  rw [List.length_append]
  omega

/-! ## Integers -/

/-- What may follow a value: nothing, a comma, or the end of the list or object around it. -/
def AtEnd (rest : List Char) : Prop :=
  ∀ c ∈ rest.head?, c ∈ [',', ']', '}']

theorem atEnd_nil : AtEnd [] := by
  simp [AtEnd]

theorem atEnd_cons {c : Char} (h : c ∈ [',', ']', '}']) (rest : List Char) : AtEnd (c :: rest) := by
  simpa [AtEnd] using h

theorem AtEnd.stop {rest : List Char} (h : AtEnd rest) :
    rest.takeWhile Char.isDigit = [] ∧ rest.dropWhile Char.isDigit = rest := by
  cases rest with
  | nil => exact ⟨rfl, rfl⟩
  | cons c rest =>
    have hc : c.isDigit = false := by
      have hmem := h c rfl
      simp only [List.mem_cons, List.not_mem_nil, or_false] at hmem
      rcases hmem with rfl | rfl | rfl <;> rfl
    exact ⟨by rw [List.takeWhile_cons, hc]; rfl, by rw [List.dropWhile_cons, hc]; rfl⟩

theorem le_foldl_digits (ds : List Char) (n : ℕ) :
    n ≤ ds.foldl (fun n d => 10 * n + (d.toNat - '0'.toNat)) n := by
  induction ds generalizing n with
  | nil => exact Nat.le_refl _
  | cons d ds ih =>
    have hstep (k : ℕ) : n ≤ 10 * n + k := by omega
    exact Nat.le_trans (hstep _) (ih _)

/-- Digits are taken as long as their value fits. -/
theorem takeDigits_eq {ds : List Char} (hdigits : ∀ c ∈ ds, c.isDigit = true) {n : ℕ}
    (hfits : ds.foldl (fun n d => 10 * n + (d.toNat - '0'.toNat)) n ≤ mostSignificand) :
    takeDigits n ds = (ds.foldl (fun n d => 10 * n + (d.toNat - '0'.toNat)) n, []) := by
  induction ds generalizing n with
  | nil => rfl
  | cons d ds ih =>
    obtain ⟨hd, hds⟩ := List.forall_mem_cons.mp hdigits
    rw [List.foldl_cons] at hfits ⊢
    have hnext : 10 * n + (d.toNat - '0'.toNat) ≤ mostSignificand :=
      Nat.le_trans (le_foldl_digits ds _) hfits
    simp only [takeDigits, hd, hnext, decide_true, Bool.and_self, if_true]
    exact ih hds hfits

theorem isDigit_of_mem_digits {n : ℕ} {c : Char} (h : c ∈ Decimal.digits n) : c.isDigit = true :=
  Nat.isDigit_of_mem_toDigits (by decide) (by decide) h

theorem digits_ne_nil (n : ℕ) : Decimal.digits n ≠ [] := by
  simp [Decimal.digits]

/-- Only zero is written with a zero in front. -/
theorem eq_zero_of_head?_digits {n : ℕ} (h : (Decimal.digits n).head? = some '0') : n = 0 := by
  induction n using Nat.strongRecOn with
  | ind n ih =>
    rcases Nat.lt_or_ge n 10 with hlt | hge
    · rw [Decimal.digits, Nat.toDigits_of_lt_base hlt] at h
      have hall : ∀ n < 10, [Nat.digitChar n].head? = some '0' → n = 0 := by decide
      exact hall n hlt h
    · have hne : Nat.toDigits 10 (n / 10) ≠ [] := digits_ne_nil _
      rw [Decimal.digits, Nat.toDigits_of_base_le (by decide) hge, List.head?_append_of_ne_nil _ hne] at h
      have hzero := ih (n / 10) (by omega) h
      omega

theorem readUnsigned?_digits {n : ℕ} (hfits : n ≤ mostSignificand) (negative : Bool) {rest : List Char}
    (hrest : AtEnd rest) :
    readUnsigned? negative (Decimal.digits n ++ rest) = some (integer negative n, rest) := by
  have hall : ∀ c ∈ Decimal.digits n, c.isDigit = true := fun c => isDigit_of_mem_digits
  have hstop : rest.takeWhile Char.isDigit = [] ∧ rest.dropWhile Char.isDigit = rest := hrest.stop
  have hspan : (Decimal.digits n ++ rest).span Char.isDigit = (Decimal.digits n, rest) := by
    rw [List.span_eq_takeWhile_dropWhile, List.takeWhile_append_of_pos hall, List.dropWhile_append_of_pos hall,
      hstop.1, hstop.2, List.append_nil]
  have hempty : (Decimal.digits n).isEmpty = false := List.isEmpty_eq_false_iff.mpr (digits_ne_nil n)
  have hzero : ((Decimal.digits n).head? == some '0' && (Decimal.digits n).length != 1) = false := by
    by_cases h : (Decimal.digits n).head? = some '0'
    · rw [eq_zero_of_head?_digits h]
      rfl
    · rw [beq_false_of_ne h, Bool.false_and]
  have htake : takeDigits 0 (Decimal.digits n) = (n, []) := by
    have hvalue := Lexeme.digitsValue_digits n
    rw [Decimal.digitsValue] at hvalue
    rw [takeDigits_eq hall (hvalue.symm ▸ hfits), hvalue]
  rw [readUnsigned?, hspan]
  simp only [hempty, hzero, htake, Bool.or_self, Bool.false_eq_true, if_false]
  split
  · exact absurd (hrest '.' rfl) (by decide)
  · exact absurd (hrest 'e' rfl) (by decide)
  · exact absurd (hrest 'E' rfl) (by decide)
  · rfl

/-- The absolute value of a word with the sign of the word is this word. -/
theorem integer_natAbs (n : Int64) : integer (decide (n.toInt < 0)) n.toInt.natAbs = .int n := by
  have hword : (if decide (n.toInt < 0) then -(n.toInt.natAbs : ℤ) else n.toInt.natAbs) = n.toInt := by
    split <;> simp only [decide_eq_true_eq] at * <;> omega
  have hzero : (decide (n.toInt < 0) && n.toInt.natAbs == 0) = false := by
    simp only [Bool.and_eq_false_iff, decide_eq_false_iff_not, beq_eq_false_iff_ne]
    omega
  simp only [integer, hword, Lexeme.word?_toInt, hzero, Bool.false_eq_true, if_false]

/-- **An integer is read as itself.** -/
theorem readNumber?_writeInt (n : Int64) {rest : List Char} (hrest : AtEnd rest) :
    readNumber? (Decimal.writeInt n.toInt ++ rest) = some (.int n, rest) := by
  have hfits : n.toInt.natAbs ≤ mostSignificand := by
    have hleast : -9223372036854775808 ≤ n.toInt := n.le_toInt
    have hmost : n.toInt ≤ 9223372036854775807 := n.toInt_le
    have hbound : mostSignificand = 18446744073709551615 := rfl
    omega
  have hread := readUnsigned?_digits hfits (decide (n.toInt < 0)) hrest
  rw [integer_natAbs] at hread
  rw [Decimal.writeInt]
  split
  · rename_i hneg
    rw [decide_eq_true hneg] at hread
    exact hread
  · rename_i hneg
    rw [decide_eq_false hneg] at hread
    obtain ⟨c, tail, hdigits⟩ := List.exists_cons_of_ne_nil (digits_ne_nil n.toInt.natAbs)
    have hc : c.isDigit = true := isDigit_of_mem_digits (hdigits ▸ List.mem_cons_self ..)
    rw [hdigits, List.cons_append] at hread ⊢
    rwa [readNumber?]
    rintro rest' ⟨rfl, -⟩
    cases hc

/-! ## Values -/

/-- What a value may begin with: no blank, and not the end of a list. -/
def StartsValue (c : Char) : Prop :=
  c ∉ [' ', '\n', '\t', '\r', ']']

theorem skipBlanks_cons {c : Char} (hc : StartsValue c) (s : List Char) : skipBlanks (c :: s) = c :: s := by
  simp only [StartsValue, List.mem_cons, List.not_mem_nil, or_false, not_or] at hc
  obtain ⟨hspace, hline, htab, hreturn, -⟩ := hc
  rw [skipBlanks, List.dropWhile_cons_of_neg]
  simp [hspace, hline, htab, hreturn]

/-- The signs around and between values. -/
def signs : List Char :=
  ['"', ':', ',', '[', ']', '{', '}']

theorem skipBlanks_sign {c : Char} (hc : c ∈ signs) (s : List Char) : skipBlanks (c :: s) = c :: s := by
  simp only [signs, List.mem_cons, List.not_mem_nil, or_false] at hc
  rcases hc with rfl | rfl | rfl | rfl | rfl | rfl | rfl <;> rfl

/-- The first character of an integer is a digit, if it is not the sign. -/
theorem exists_writeInt (n : ℤ) :
    ∃ c tail, Decimal.writeInt n = c :: tail ∧ (c = '-' ∨ c.isDigit = true) := by
  rw [Decimal.writeInt]
  split
  · exact ⟨_, _, rfl, .inl rfl⟩
  · obtain ⟨c, tail, hdigits⟩ := List.exists_cons_of_ne_nil (digits_ne_nil n.natAbs)
    exact ⟨c, tail, hdigits, .inr (isDigit_of_mem_digits (hdigits ▸ List.mem_cons_self ..))⟩

theorem startsValue_of_number {c : Char} (h : c = '-' ∨ c.isDigit = true) : StartsValue c := by
  intro hc
  simp only [List.mem_cons, List.not_mem_nil, or_false] at hc
  rcases hc with rfl | rfl | rfl | rfl | rfl <;> revert h <;> decide

theorem Spells.exists_cons {depth : ℕ} {v : Value} {text : List Char} (h : Spells depth v text) :
    ∃ c tail, text = c :: tail ∧ StartsValue c := by
  cases h with
  | nothing => exact ⟨'n', "ull".toList, rfl, by simp [StartsValue]⟩
  | bool b =>
    cases b with
    | true => exact ⟨'t', "rue".toList, rfl, by simp [StartsValue]⟩
    | false => exact ⟨'f', "alse".toList, rfl, by simp [StartsValue]⟩
  | int n =>
    obtain ⟨c, tail, htext, hc⟩ := exists_writeInt n.toInt
    exact ⟨c, tail, htext, startsValue_of_number hc⟩
  | str q => exact ⟨_, _, rfl, by simp [StartsValue]⟩
  | list => exact ⟨_, _, rfl, by simp [StartsValue]⟩
  | map => exact ⟨_, _, rfl, by simp [StartsValue]⟩

/-- A text is read as a value, whatever follows the value, if the steps suffice. -/
def ReadAs (depth : ℕ) (v : Value) (text : List Char) : Prop :=
  ∀ {fuel rest}, 2 * text.length ≤ fuel → AtEnd rest →
    readValue? fuel depth (text ++ rest) = some (v, rest)

theorem readAs_int (depth : ℕ) (n : Int64) : ReadAs depth (.int n) (Decimal.writeInt n.toInt) := by
  intro fuel rest hfuel hrest
  obtain ⟨c, tail, htext, hc⟩ := exists_writeInt n.toInt
  have hread := readNumber?_writeInt n hrest
  rw [htext, List.length_cons] at hfuel
  obtain ⟨fuel, rfl⟩ : ∃ k, fuel = k + 1 := ⟨fuel - 1, by omega⟩
  rw [htext, List.cons_append] at hread ⊢
  rw [readValue?, skipBlanks_cons (startsValue_of_number hc), ← hread]
  split
  case h_7 => rfl
  all_goals
    rename_i h
    obtain ⟨rfl, -⟩ := List.cons.inj h
    exact absurd hc (by decide)

theorem readAs_str (depth : ℕ) (q : QuotedText) : ReadAs depth (.str q.string) q.text := by
  intro fuel rest hfuel _
  obtain ⟨fuel, rfl⟩ : ∃ k, fuel = k + 1 := ⟨fuel - 1, by simp [QuotedText.text] at hfuel; omega⟩
  have hskip := @skipBlanks_sign '"' (by decide)
  rw [QuotedText.text, List.cons_append, List.append_assoc, List.singleton_append, readValue?, hskip]
  simp only [q.readText?, Option.map_some, String.ofList_toList]

/-- Behind the first of several texts stands a comma. -/
theorem intercalate_map_cons {α : Type} (text : α → List Char) (a b : α) (l : List α) :
    [','].intercalate ((a :: b :: l).map text) = text a ++ ',' :: [','].intercalate ((b :: l).map text) := by
  rw [List.map_cons, List.map_cons, List.intercalate_cons_cons, List.append_assoc, List.singleton_append]

/-- **The items of a list are read one by one**, behind those that are read already. -/
theorem readItems?_of_readAs {depth : ℕ} {parts : List (Value × List Char)} (hne : parts ≠ [])
    (h : ∀ p ∈ parts, ReadAs depth p.1 p.2) {fuel : ℕ} {items : List Value} {rest : List Char}
    (hfuel : 2 * ([','].intercalate (parts.map (·.2))).length < fuel) :
    readItems? fuel depth items ([','].intercalate (parts.map (·.2)) ++ ']' :: rest) =
      some (.list (items.reverse ++ parts.map (·.1)), rest) := by
  have hcomma := @skipBlanks_sign ',' (by decide)
  have hend := @skipBlanks_sign ']' (by decide)
  induction parts generalizing fuel items with
  | nil => cases hne rfl
  | cons p parts ih =>
    obtain ⟨hp, hparts⟩ := List.forall_mem_cons.mp h
    obtain ⟨fuel, rfl⟩ : ∃ k, fuel = k + 1 := ⟨fuel - 1, by omega⟩
    cases parts with
    | nil =>
      rw [List.map_singleton, List.intercalate_singleton] at hfuel ⊢
      rw [readItems?, hp (by omega) (atEnd_cons (by decide) rest)]
      simp only [Option.bind_eq_bind, Option.bind_some, hend, List.reverse_cons]
      rfl
    | cons p' parts =>
      rw [intercalate_map_cons, List.length_append, List.length_cons] at hfuel
      rw [intercalate_map_cons, List.append_assoc, List.cons_append, readItems?,
        hp (by omega) (atEnd_cons (by decide) _)]
      simp only [Option.bind_eq_bind, Option.bind_some, hcomma]
      rw [ih (List.cons_ne_nil _ _) hparts (by omega), List.reverse_cons, List.append_assoc]
      rfl

theorem readAs_list {depth : ℕ} {parts : List (Value × List Char)}
    (hstarts : ∀ p ∈ parts, ∃ c tail, p.2 = c :: tail ∧ StartsValue c)
    (h : ∀ p ∈ parts, ReadAs (depth + 1) p.1 p.2) :
    ReadAs (depth + 2) (.list (parts.map (·.1))) ('[' :: ([','].intercalate (parts.map (·.2)) ++ [']'])) := by
  intro fuel rest hfuel _
  have hopen := @skipBlanks_sign '[' (by decide)
  have hdeep : ¬ depth + 2 ≤ 1 := by omega
  rw [List.length_cons, List.length_append, List.length_singleton] at hfuel
  obtain ⟨fuel, rfl⟩ : ∃ k, fuel = k + 1 := ⟨fuel - 1, by omega⟩
  rw [List.cons_append, List.append_assoc, List.singleton_append, readValue?, hopen]
  simp only [if_neg hdeep]
  cases parts with
  | nil => rfl
  | cons p parts =>
    have hread : readItems? fuel (depth + 1) [] (_ ++ ']' :: rest) = _ :=
      readItems?_of_readAs (List.cons_ne_nil p parts) h (by omega)
    obtain ⟨c, tail, htext, hc⟩ := hstarts p (List.mem_cons_self ..)
    obtain ⟨tail', htail⟩ :
        ∃ tail', [','].intercalate ((p :: parts).map (·.2)) ++ ']' :: rest = c :: tail' := by
      cases parts <;> simp [htext]
    rw [htail] at hread ⊢
    rw [skipBlanks_cons hc]
    split
    · rename_i h
      obtain ⟨rfl, -⟩ := List.cons.inj h
      exact absurd hc (by simp [StartsValue])
    · exact hread

/-- **The entries of an object are read one by one**, and stored in the map of those that are read already. -/
theorem readEntries?_of_readAs {depth : ℕ} {members : List Member} (hne : members ≠ [])
    (h : ∀ m ∈ members, ReadAs depth m.value m.text) {fuel : ℕ} {entries : Dict Value} {rest : List Char}
    (hfuel : 2 * ([','].intercalate (members.map Member.written)).length < fuel) :
    readEntries? fuel depth entries ([','].intercalate (members.map Member.written) ++ '}' :: rest) =
      some (.map ((members.map Member.entry).foldl (fun d (key, v) => Dict.insert key v d) entries), rest) := by
  have hquote := @skipBlanks_sign '"' (by decide)
  have hcolon := @skipBlanks_sign ':' (by decide)
  have hcomma := @skipBlanks_sign ',' (by decide)
  have hend := @skipBlanks_sign '}' (by decide)
  induction members generalizing fuel entries with
  | nil => cases hne rfl
  | cons m members ih =>
    obtain ⟨hm, hmembers⟩ := List.forall_mem_cons.mp h
    obtain ⟨fuel, rfl⟩ : ∃ k, fuel = k + 1 := ⟨fuel - 1, by omega⟩
    have hwritten (s : List Char) : m.written ++ s = '"' :: (m.key.inner ++ '"' :: ':' :: (m.text ++ s)) := by
      simp [Member.written, QuotedText.text]
    have hlength : m.text.length ≤ m.written.length := by
      simp [Member.written]
      omega
    cases members with
    | nil =>
      rw [List.map_singleton, List.intercalate_singleton] at hfuel ⊢
      rw [hwritten, readEntries?, hquote]
      simp only [m.key.readText?, Option.bind_eq_bind, Option.bind_some, hcolon]
      rw [hm (by omega) (atEnd_cons (by decide) rest)]
      simp only [Option.bind_some, hend, String.ofList_toList]
      rfl
    | cons m' members =>
      rw [intercalate_map_cons, List.length_append, List.length_cons] at hfuel
      rw [intercalate_map_cons, List.append_assoc, List.cons_append, hwritten, readEntries?, hquote]
      simp only [m.key.readText?, Option.bind_eq_bind, Option.bind_some, hcolon]
      rw [hm (by omega) (atEnd_cons (by decide) _)]
      simp only [Option.bind_some, hcomma, String.ofList_toList]
      rw [ih (List.cons_ne_nil _ _) hmembers (by omega)]
      rfl

theorem readAs_map {depth : ℕ} {members : List Member}
    (h : ∀ m ∈ members, ReadAs (depth + 1) m.value m.text) :
    ReadAs (depth + 2) (.map (Dict.ofList (members.map Member.entry)))
      ('{' :: ([','].intercalate (members.map Member.written) ++ ['}'])) := by
  intro fuel rest hfuel _
  have hopen := @skipBlanks_sign '{' (by decide)
  have hquote := @skipBlanks_sign '"' (by decide)
  have hdeep : ¬ depth + 2 ≤ 1 := by omega
  rw [List.length_cons, List.length_append, List.length_singleton] at hfuel
  obtain ⟨fuel, rfl⟩ : ∃ k, fuel = k + 1 := ⟨fuel - 1, by omega⟩
  rw [List.cons_append, List.append_assoc, List.singleton_append, readValue?, hopen]
  simp only [if_neg hdeep]
  cases members with
  | nil => rfl
  | cons m members =>
    have hread : readEntries? fuel (depth + 1) [] (_ ++ '}' :: rest) = _ :=
      readEntries?_of_readAs (List.cons_ne_nil m members) h (by omega)
    obtain ⟨tail, htail⟩ :
        ∃ tail, [','].intercalate ((m :: members).map Member.written) ++ '}' :: rest = '"' :: tail := by
      cases members <;> simp [Member.written, QuotedText.text]
    rw [htail] at hread ⊢
    rw [hquote]
    exact hread

/-- **A text of a value is read as this value**, in front of whatever may follow it. -/
theorem Spells.readAs {depth : ℕ} {v : Value} {text : List Char} (h : Spells depth v text) {bound : ℕ}
    (hbound : depth < bound) : ReadAs bound v text := by
  induction h generalizing bound with
  | nothing =>
    intro fuel rest hfuel _
    obtain ⟨fuel, rfl⟩ : ∃ k, fuel = k + 1 := ⟨fuel - 1, by simp at hfuel; omega⟩
    rfl
  | bool b =>
    intro fuel rest hfuel _
    cases b <;> obtain ⟨fuel, rfl⟩ : ∃ k, fuel = k + 1 := ⟨fuel - 1, by simp at hfuel; omega⟩ <;> rfl
  | int n => exact readAs_int bound n
  | str q => exact readAs_str bound q
  | list h ih =>
    obtain ⟨bound, rfl⟩ : ∃ k, bound = k + 2 := ⟨bound - 2, by omega⟩
    exact readAs_list (fun p hp => (h p hp).exists_cons) fun p hp => ih p hp (by omega)
  | map _ ih =>
    obtain ⟨bound, rfl⟩ : ∃ k, bound = k + 2 := ⟨bound - 2, by omega⟩
    exact readAs_map fun m hm => ih m hm (by omega)

/-- **A whole text of a value is read as this value.** -/
theorem Spells.read? {depth : ℕ} {v : Value} {text : List Char} (h : Spells depth v text) {bound : ℕ}
    (hbound : depth < bound) : read? bound text = some v := by
  have hread : readValue? (2 * text.length + 2) bound (text ++ []) = _ :=
    h.readAs hbound (by omega) atEnd_nil
  rw [List.append_nil] at hread
  simp only [Json.read?, hread, Option.bind_eq_bind, Option.bind_some]
  rfl

/-- **No text is a text of two values.** -/
theorem Spells.unique {depth depth' : ℕ} {v v' : Value} {text : List Char} (h : Spells depth v text)
    (h' : Spells depth' v' text) : v = v' := by
  have hread := h.read? (show depth < depth + depth' + 1 by omega)
  rw [h'.read? (by omega)] at hread
  exact (Option.some.inj hread).symm

end Inlay.Json

namespace Inlay.Filter

open Json Value

/-- **The JSON filter loses nothing.**  For a value without floats it writes ASCII only, and what it writes is
a JSON text of this value and of no other, in which functions are strings.  So the reader, with a bound above
the nesting of the value, reads the value. -/
theorem json_lossless {v : Value} (hkeyed : v.Keyed) (hfree : floatFree v = true) :
    (∀ c ∈ json v, c.toNat < 128) ∧ Spells (nesting v) (plain v) (json v) ∧
      (∀ depth w, Spells depth w (json v) → w = plain v) ∧
        ∀ bound, nesting v < bound → Json.read? bound (json v) = some (plain v) := by
  have hspells : Spells (nesting v) (plain v) (json v) :=
    (spells_serialize hkeyed hfree (Nat.le_refl _)).toAscii
  refine ⟨fun c hc => ?_, hspells, fun depth w hw => hw.unique hspells, fun bound => hspells.read?⟩
  simpa [isAscii] using isAscii_of_mem_toAscii hc

/-- A map with a list in it, a text outside of ASCII and a function, which comes back as its text. -/
theorem json_lossless_of_nested :
    json (.map [("a", .list [.int (-1), .str "\"\n\x01é😀"]), ("b", ofBuiltin 10 .len)]) =
        "\x7b\"a\":[-1,\"\\\"\\n\\u0001\\u00e9\\ud83d\\ude00\"],\"b\":\"<function len>\"\x7d".toList ∧
      Json.read? 3 (json (.map [("a", .list [.int (-1), .str "\"\n\x01é😀"]), ("b", ofBuiltin 10 .len)])) =
        some (.map [("a", .list [.int (-1), .str "\"\n\x01é😀"]), ("b", .str "<function len>")]) := by
  refine ⟨by decide +kernel, (json_lossless ?_ (by decide)).2.2.2 3 (by decide)⟩
  have hsorted : Dict.Sorted [("a", Value.list [.int (-1), .str "\"\n\x01é😀"]), ("b", ofBuiltin 10 .len)] := by
    unfold Dict.Sorted
    decide
  have hlist : Keyed (.list [.int (-1), .str "\"\n\x01é😀"]) :=
    .list (List.forall_mem_cons.mpr ⟨.int _, List.forall_mem_singleton.mpr (.str _)⟩)
  exact .map hsorted (List.forall_mem_cons.mpr ⟨hlist, List.forall_mem_singleton.mpr (.function _ _)⟩)

end Inlay.Filter
