import Inlay.Segment
import Inlay.Text.Search
import Mathlib

/-!
# Segments as they are written

A source is read into segments, and segments are written back into a source.  Plain text is written with
every begin mark in it doubled, and a statement between its marks with every end mark in it doubled.

* `escapePlain`, `escapeStatement`, `written`, `writtenAll`: segments as a source.
* `Canonical`: the rows of segments that a source may consist of.
* `place`: the segments with their lines and spans in the source that they are written as.
* `scanPlain_escapePlain`, `scanStatement_escapeStatement`: reading what was written for one segment.
-/

namespace Inlay

/-! ## Pairs of characters in a text -/

namespace Text

variable {a b : Char} {new : List Char}

/-- A text is read from its front, a pair of characters or one character at a time. -/
theorem induction_on_pairs (a b : Char) {P : List Char → Prop} (nil : P [])
    (pair : ∀ t, P t → P (a :: b :: t))
    (cons : ∀ c t, ¬ (c = a ∧ t.head? = some b) → P t → P (c :: t)) : ∀ t, P t
  | [] => nil
  | [c] => cons c [] (by simp) nil
  | c :: d :: t => by
    have hrest := induction_on_pairs a b nil pair cons (d :: t)
    by_cases h : c = a ∧ d = b
    · obtain ⟨rfl, rfl⟩ := h
      exact pair t (induction_on_pairs c d nil pair cons t)
    · exact cons c (d :: t) (by simpa using h) hrest

theorem replace_pair_nil (a b : Char) (new : List Char) : replace [a, b] new [] = [] :=
  replace_nil (List.cons_ne_nil _ _) new

theorem replace_pair (a b : Char) (new t : List Char) :
    replace [a, b] new (a :: b :: t) = new ++ replace [a, b] new t := by
  have h : [a, b].isPrefixOf (a :: b :: t) = true := by simp
  exact replace_of_isPrefixOf (List.cons_ne_nil _ _) new h

theorem replace_pair_cons {c : Char} {t : List Char} (h : ¬ (c = a ∧ t.head? = some b)) :
    replace [a, b] new (c :: t) = c :: replace [a, b] new t := by
  refine replace_cons_of_not_isPrefixOf (List.cons_ne_nil _ _) new ?_
  cases t with
  | nil => exact Bool.and_false _
  | cons d t =>
    rw [Bool.eq_false_iff]
    intro hpair
    simp only [List.isPrefixOf_cons_cons, Bool.and_eq_true, beq_iff_eq] at hpair
    exact h ⟨hpair.1.symm, by rw [List.head?_cons, hpair.2.1]⟩

/-- A pair is replaced by a text that begins alike, and so the text begins as before. -/
theorem head?_replace_pair (hnew : new.head? = some a) (t : List Char) :
    (replace [a, b] new t).head? = t.head? := by
  induction t using induction_on_pairs a b with
  | nil => rw [replace_pair_nil]
  | pair t _ => rw [replace_pair, List.head?_append, hnew, List.head?_cons, Option.some_or]
  | cons c t h _ => rw [replace_pair_cons h, List.head?_cons, List.head?_cons]

/-- A pair is replaced by a text that ends alike, and so the text ends as before. -/
theorem getLast?_replace_pair (hnew : new.getLast? = some b) (t : List Char) :
    (replace [a, b] new t).getLast? = t.getLast? := by
  induction t using induction_on_pairs a b with
  | nil => rw [replace_pair_nil]
  | pair t ih => simp [replace_pair, List.getLast?_append, List.getLast?_cons, ih, hnew]
  | cons c t h ih => rw [replace_pair_cons h, List.getLast?_cons, List.getLast?_cons, ih]

end Text

namespace Segment

/-! ## Segments as a source -/

/-- Plain text as it is written. -/
def escapePlain (text : List Char) : List Char :=
  Text.replace ['<', '%'] ['<', '%', '%'] text

/-- The text of a statement as it is written between the marks. -/
def escapeStatement (text : List Char) : List Char :=
  Text.replace ['%', '>'] ['%', '%', '>'] text

/-- A segment as it is written. -/
def written : Segment → List Char
  | plain text => escapePlain text
  | statement text _ _ => '<' :: '%' :: (escapeStatement text ++ ['%', '>'])

/-- The source that segments are written as. -/
def writtenAll (segments : List Segment) : List Char :=
  segments.flatMap written

def isPlain : Segment → Bool
  | plain _ => true
  | statement .. => false

/-- The text of a segment is one that stands between marks, or between statements. -/
def Readable : Segment → Prop
  | plain text => text ≠ []
  | statement text _ _ => text ≠ [] ∧ text.head? ≠ some '%' ∧ text.getLast? ≠ some '%'

/-- **The rows of segments that a source may consist of**: no plain text is empty, no two are side by
side, and no statement is empty or begins or ends with `%`. -/
structure Canonical (segments : List Segment) : Prop where
  readable : ∀ s ∈ segments, s.Readable
  apart : segments.IsChain fun s s' => ¬ (s.isPlain = true ∧ s'.isPlain = true)

instance : DecidablePred Readable
  | plain text => inferInstanceAs (Decidable (text ≠ []))
  | statement text _ _ =>
    inferInstanceAs (Decidable (text ≠ [] ∧ text.head? ≠ some '%' ∧ text.getLast? ≠ some '%'))

instance : DecidablePred Canonical := fun segments =>
  decidable_of_iff ((∀ s ∈ segments, s.Readable) ∧
      segments.IsChain fun s s' => ¬ (s.isPlain = true ∧ s'.isPlain = true))
    ⟨fun h => ⟨h.1, h.2⟩, fun h => ⟨h.readable, h.apart⟩⟩

/-- The line on which a text ends, counted from one. -/
def lineBehind (text : List Char) : Nat :=
  1 + text.count '\n'

/-- The segments behind a text, with the lines and spans at which they are written. -/
def placeBehind (text : List Char) : List Segment → List Segment
  | [] => []
  | plain t :: rest => plain t :: placeBehind (text ++ (plain t).written) rest
  | statement t line span :: rest =>
    let next := text ++ (statement t line span).written
    statement t (lineBehind text) ⟨byteLength text, byteLength next⟩ :: placeBehind next rest

/-- The segments with their lines and spans in the source that they are written as. -/
def place (segments : List Segment) : List Segment :=
  placeBehind [] segments

/-- No end mark stands in a text: every `%>` in it belongs to a `%%>`. -/
def Unclosed (text : List Char) : Prop :=
  ∀ u v, text = u ++ '%' :: '>' :: v → u.getLast? = some '%'

@[simp] theorem writtenAll_nil : writtenAll [] = [] := rfl

@[simp] theorem writtenAll_cons (s : Segment) (rest : List Segment) :
    writtenAll (s :: rest) = s.written ++ writtenAll rest :=
  List.flatMap_cons

theorem canonical_cons {s : Segment} {rest : List Segment} :
    Canonical (s :: rest) ↔ s.Readable ∧
      (∀ s' ∈ rest.head?, ¬ (s.isPlain = true ∧ s'.isPlain = true)) ∧ Canonical rest := by
  constructor
  · rintro ⟨hreadable, hapart⟩
    rw [List.forall_mem_cons] at hreadable
    rw [List.isChain_cons] at hapart
    exact ⟨hreadable.1, hapart.1, hreadable.2, hapart.2⟩
  · rintro ⟨hs, hnext, hreadable, hapart⟩
    exact ⟨List.forall_mem_cons.mpr ⟨hs, hreadable⟩, List.isChain_cons.mpr ⟨hnext, hapart⟩⟩

theorem canonical_nil : Canonical [] :=
  ⟨fun _ h => absurd h List.not_mem_nil, .nil⟩

/-! ## Reading what was written -/

theorem lineAfter_eq (line : Nat) (c : Char) : lineAfter line c = line + [c].count '\n' := by
  by_cases h : c = '\n' <;> simp [lineAfter, h]

/-- Plain text is read off what is written for it, up to a text that does not begin with `%`. -/
theorem scanPlain_escapePlain {rest : List Char} (hrest : rest.head? ≠ some '%') (text : List Char)
    (line offset : Nat) (run : List Char) :
    scanPlain line offset run (escapePlain text ++ rest) =
      scanPlain (line + (escapePlain text).count '\n') (offset + byteLength (escapePlain text))
        (text.reverse ++ run) rest := by
  induction text using Text.induction_on_pairs '<' '%' generalizing line offset run with
  | nil => rw [escapePlain, Text.replace_pair_nil]; rfl
  | pair t ih =>
    have hescape : escapePlain ('<' :: '%' :: t) = '<' :: '%' :: '%' :: escapePlain t :=
      Text.replace_pair _ _ _ t
    rw [hescape, List.cons_append, List.cons_append, List.cons_append, scanPlain, ih]
    congr 1
    · have hopen : '<'.utf8Size = 1 := rfl
      have hpercent : '%'.utf8Size = 1 := rfl
      rw [byteLength_cons, byteLength_cons, byteLength_cons, hopen, hpercent]
      omega
    · simp
  | cons c t h ih =>
    have hescape : escapePlain (c :: t) = c :: escapePlain t := Text.replace_pair_cons h
    have hhead : c = '<' → (escapePlain t ++ rest).head? ≠ some '%' := by
      rintro rfl hpercent
      rw [List.head?_append, escapePlain, Text.head?_replace_pair rfl] at hpercent
      cases t with
      | nil => exact hrest hpercent
      | cons d t => exact h ⟨rfl, hpercent⟩
    rw [hescape, List.cons_append, scanPlain, ih, lineAfter_eq]
    · congr 1
      · simp [List.count_cons, Nat.add_assoc, Nat.add_comm]
      · simp [Nat.add_assoc]
      · simp
    · rintro r rfl hr
      exact hhead rfl (by rw [hr]; rfl)
    · rintro r rfl hr
      exact hhead rfl (by rw [hr]; rfl)

/-- What is written for the text of a statement does not begin with an end mark, whatever stands behind
it; if the text ends with `%`, nothing may. -/
theorem escapeStatement_append_ne {text rest : List Char} (htext : text ≠ [])
    (hlast : text.getLast? = some '%' → rest = []) (r : List Char) :
    escapeStatement text ++ rest ≠ '%' :: '>' :: r := by
  intro heq
  induction text using Text.induction_on_pairs '%' '>' with
  | nil => exact htext rfl
  | pair t _ =>
    have hescape : escapeStatement ('%' :: '>' :: t) = '%' :: '%' :: '>' :: escapeStatement t :=
      Text.replace_pair _ _ _ t
    rw [hescape] at heq
    simp at heq
  | cons c t h _ =>
    have hescape : escapeStatement (c :: t) = c :: escapeStatement t := Text.replace_pair_cons h
    rw [hescape, List.cons_append, List.cons.injEq] at heq
    obtain ⟨rfl, heq⟩ := heq
    cases t with
    | nil =>
      rw [hlast rfl, escapeStatement, Text.replace_pair_nil] at heq
      exact absurd heq (List.cons_ne_nil _ _).symm
    | cons d t =>
      have hhead : (escapeStatement (d :: t)).head? = some d := Text.head?_replace_pair rfl _
      have hd := congrArg List.head? heq
      rw [List.head?_append, hhead, Option.some_or, List.head?_cons] at hd
      exact h ⟨rfl, hd⟩

/-- The text of a statement is read off what is written for it, up to any text, or up to the end of the
source if it ends with `%`. -/
theorem scanStatement_escapeStatement {rest : List Char} (text : List Char)
    (htext : text.getLast? = some '%' → rest = []) (first start line offset : Nat)
    (run : List Char) :
    scanStatement first start line offset run (escapeStatement text ++ rest) =
      scanStatement first start (line + (escapeStatement text).count '\n')
        (offset + byteLength (escapeStatement text)) (text.reverse ++ run) rest := by
  induction text using Text.induction_on_pairs '%' '>' generalizing line offset run with
  | nil => rw [escapeStatement, Text.replace_pair_nil]; rfl
  | pair t ih =>
    have hescape : escapeStatement ('%' :: '>' :: t) = '%' :: '%' :: '>' :: escapeStatement t :=
      Text.replace_pair _ _ _ t
    have ht : t.getLast? = some '%' → rest = [] := by
      intro hlast
      refine htext ?_
      rw [List.getLast?_cons, List.getLast?_cons, hlast]
      rfl
    rw [hescape, List.cons_append, List.cons_append, List.cons_append, scanStatement, ih ht]
    congr 1
    · have hclose : '>'.utf8Size = 1 := rfl
      have hpercent : '%'.utf8Size = 1 := rfl
      rw [byteLength_cons, byteLength_cons, byteLength_cons, hclose, hpercent]
      omega
    · simp
  | cons c t h ih =>
    have hescape : escapeStatement (c :: t) = c :: escapeStatement t := Text.replace_pair_cons h
    have ht : t.getLast? = some '%' → rest = [] := by
      intro hlast
      refine htext ?_
      rw [List.getLast?_cons, hlast]
      rfl
    have hnext : c = '%' → ∀ r, escapeStatement t ++ rest ≠ '>' :: r := by
      rintro rfl r heq
      exact escapeStatement_append_ne (List.cons_ne_nil _ _) htext r (by rw [hescape, ← heq]; rfl)
    have hafter : c = '%' → ∀ r, escapeStatement t ++ rest ≠ '%' :: '>' :: r := by
      rintro rfl r heq
      cases t with
      | nil =>
        rw [htext rfl, escapeStatement, Text.replace_pair_nil] at heq
        exact absurd heq (List.cons_ne_nil _ _).symm
      | cons d t => exact escapeStatement_append_ne (List.cons_ne_nil d t) ht r heq
    rw [hescape, List.cons_append, scanStatement, ih ht, lineAfter_eq]
    · congr 1
      · simp [List.count_cons, Nat.add_assoc, Nat.add_comm]
      · simp [Nat.add_assoc]
      · simp
    · exact fun r hc hr => hafter hc r hr
    · exact fun r hc hr => hnext hc r hr

end Segment

end Inlay
