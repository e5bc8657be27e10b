import Inlay.Proofs.Segment.Writing

/-!
# Sources and their segments

Every source is what some canonical row of segments is written as, up to a begin mark behind which
there is no end mark.  Reading it gives the row back, or the begin mark.

* `scanPlain_writtenAll`: a canonical row is read off what it is written as.
* `exists_writtenAll`: every source begins with a canonical row, and ends there or with a begin mark that
  is not closed.
* `scan_writtenAll`: reading and writing are inverse to each other.
-/

namespace Inlay.Segment

/-! ## Where plain text ends -/

/-- Plain text ends in front of this rest of a source: there is none, or it begins with a mark. -/
def EndsPlain (rest : List Char) : Prop :=
  rest = [] ∨ ∃ inner, rest = '<' :: '%' :: inner ∧ inner.head? ≠ some '%'

theorem EndsPlain.head?_ne {rest : List Char} (h : EndsPlain rest) : rest.head? ≠ some '%' := by
  rcases h with rfl | ⟨inner, rfl, -⟩
  · exact (Option.some_ne_none _).symm
  · simp

theorem scanPlain_mark {inner : List Char} (h : inner.head? ≠ some '%') (line offset : Nat)
    (run : List Char) :
    scanPlain line offset run ('<' :: '%' :: inner) =
      (scanStatement line offset line (offset + 2) [] inner).map (withPlain run) := by
  rw [scanPlain]
  rintro rest rfl
  exact h rfl

/-- Plain text in front of its end is a segment, unless it is empty. -/
theorem EndsPlain.scanPlain_eq {rest : List Char} (h : EndsPlain rest) (line offset : Nat)
    (run : List Char) :
    scanPlain line offset run rest = (scanPlain line offset [] rest).map (withPlain run) := by
  have hempty : withPlain [] = id := rfl
  rcases h with rfl | ⟨inner, rfl, hinner⟩
  · rw [scanPlain, scanPlain]
    rfl
  · rw [scanPlain_mark hinner, scanPlain_mark hinner, hempty]
    cases scanStatement line offset line (offset + 2) [] inner <;> rfl

theorem withPlain_reverse {text : List Char} (h : text ≠ []) (segments : List Segment) :
    withPlain text.reverse segments = plain text :: segments := by
  rw [withPlain, if_neg (by simpa using h), List.reverse_reverse]

/-! ## Rows of segments that are read -/

theorem lineBehind_append (text text' : List Char) :
    lineBehind (text ++ text') = lineBehind text + text'.count '\n' := by
  rw [lineBehind, lineBehind, List.count_append, Nat.add_assoc]

theorem Readable.head?_escapeStatement {text : List Char} {line : Nat} {span : Span}
    (h : (statement text line span).Readable) (rest : List Char) :
    (escapeStatement text ++ rest).head? ≠ some '%' := by
  obtain ⟨hne, hhead, -⟩ := h
  rw [List.head?_append, escapeStatement, Text.head?_replace_pair rfl]
  cases text with
  | nil => exact absurd rfl hne
  | cons c text => exact hhead

/-- What is written for segments ends plain text in front of it, if no plain text comes first. -/
theorem Canonical.endsPlain {segments : List Segment} (h : Canonical segments)
    (hfirst : ∀ s ∈ segments.head?, s.isPlain = false) {rest : List Char} (hrest : EndsPlain rest) :
    EndsPlain (writtenAll segments ++ rest) := by
  cases segments with
  | nil => exact hrest
  | cons s segments =>
    cases s with
    | plain text => exact absurd (hfirst _ rfl) (by simp [isPlain])
    | statement text line span =>
      have hs := (canonical_cons.mp h).1
      refine Or.inr ⟨escapeStatement text ++ (['%', '>'] ++ (writtenAll segments ++ rest)), ?_,
        hs.head?_escapeStatement _⟩
      simp [written]

/-- The end mark of a statement ends it. -/
theorem scanStatement_endMark (first start line offset : Nat) (run rest : List Char) :
    scanStatement first start line offset run ('%' :: '>' :: rest) =
      (scanPlain line (offset + 2) [] rest).map
        (statement run.reverse first ⟨start, offset + 2⟩ :: ·) := by
  rw [scanStatement]

/-- A statement is read off what is written for it. -/
theorem scanPlain_statement {text : List Char} {line : Nat} {span : Span}
    (h : (statement text line span).Readable) (before rest : List Char) :
    scanPlain (lineBehind before) (byteLength before) []
        ((statement text line span).written ++ rest) =
      (scanPlain (lineBehind (before ++ (statement text line span).written))
        (byteLength (before ++ (statement text line span).written)) [] rest).map
        (statement text (lineBehind before)
          ⟨byteLength before, byteLength (before ++ (statement text line span).written)⟩ :: ·) := by
  have hwritten : (statement text line span).written ++ rest =
      '<' :: '%' :: (escapeStatement text ++ '%' :: '>' :: rest) := by simp [written]
  have hlast : text.getLast? = some '%' → '%' :: '>' :: rest = [] := fun hlast => absurd hlast h.2.2
  have hline : lineBehind before + (escapeStatement text).count '\n' =
      lineBehind (before ++ (statement text line span).written) := by
    rw [lineBehind_append]
    simp [written]
  have hoffset : byteLength before + 2 + byteLength (escapeStatement text) + 2 =
      byteLength (before ++ (statement text line span).written) := by
    have hopen : '<'.utf8Size = 1 := rfl
    have hpercent : '%'.utf8Size = 1 := rfl
    have hclose : '>'.utf8Size = 1 := rfl
    simp only [written, byteLength_append, byteLength_cons, byteLength_nil, hopen, hpercent, hclose]
    omega
  have hempty : withPlain [] = id := rfl
  rw [hwritten, scanPlain_mark (h.head?_escapeStatement _), scanStatement_escapeStatement text hlast,
    scanStatement_endMark, hline, hoffset, hempty, List.append_nil, List.reverse_reverse]
  cases scanPlain (lineBehind (before ++ (statement text line span).written))
    (byteLength (before ++ (statement text line span).written)) [] rest <;> rfl

/-- **A canonical row of segments is read off what it is written as**, with its lines and spans,
and what stands behind it is read next. -/
theorem scanPlain_writtenAll {segments : List Segment} (h : Canonical segments) {rest : List Char}
    (hrest : EndsPlain rest) (before : List Char) :
    scanPlain (lineBehind before) (byteLength before) [] (writtenAll segments ++ rest) =
      (scanPlain (lineBehind (before ++ writtenAll segments))
        (byteLength (before ++ writtenAll segments)) [] rest).map
        (placeBehind before segments ++ ·) := by
  induction segments generalizing before with
  | nil =>
    rw [writtenAll_nil, List.append_nil, List.nil_append]
    cases scanPlain (lineBehind before) (byteLength before) [] rest <;> rfl
  | cons s segments ih =>
    obtain ⟨hs, hnext, hsegments⟩ := canonical_cons.mp h
    have hrow := ih hsegments (before ++ s.written)
    rw [writtenAll_cons, List.append_assoc, ← List.append_assoc before]
    cases s with
    | plain text =>
      have hfirst : ∀ s' ∈ segments.head?, s'.isPlain = false := by
        intro s' hs'
        exact Bool.eq_false_iff.mpr fun hplain => hnext s' hs' ⟨rfl, hplain⟩
      have hends := hsegments.endsPlain hfirst hrest
      have hplain := scanPlain_escapePlain hends.head?_ne text (lineBehind before)
        (byteLength before) []
      have htext : scanPlain (lineBehind before) (byteLength before) []
          ((plain text).written ++ (writtenAll segments ++ rest)) =
            (scanPlain (lineBehind (before ++ (plain text).written))
              (byteLength (before ++ (plain text).written)) []
              (writtenAll segments ++ rest)).map (plain text :: ·) := by
        rw [lineBehind_append, byteLength_append]
        refine hplain.trans ?_
        rw [hends.scanPlain_eq, List.append_nil]
        congr 1
        funext segments
        exact withPlain_reverse hs segments
      rw [htext, hrow, placeBehind]
      cases scanPlain (lineBehind (before ++ (plain text).written ++ writtenAll segments))
        (byteLength (before ++ (plain text).written ++ writtenAll segments)) [] rest <;> rfl
    | statement text line span =>
      rw [scanPlain_statement hs, hrow, placeBehind]
      cases scanPlain
        (lineBehind (before ++ (statement text line span).written ++ writtenAll segments))
        (byteLength (before ++ (statement text line span).written ++ writtenAll segments)) []
        rest <;> rfl

/-! ## Sources that are written -/

/-- Every source begins with plain text. -/
theorem exists_escapePlain (source : List Char) :
    ∃ text rest, source = escapePlain text ++ rest ∧ EndsPlain rest := by
  induction source using Text.induction_on_pairs '<' '%' with
  | nil => exact ⟨[], [], by rw [escapePlain, Text.replace_pair_nil]; rfl, Or.inl rfl⟩
  | pair source ih =>
    by_cases hhead : source.head? = some '%'
    · obtain ⟨text, rest, rfl, hrest⟩ := ih
      rw [List.head?_append, escapePlain, Text.head?_replace_pair rfl] at hhead
      cases text with
      | nil => exact absurd hhead hrest.head?_ne
      | cons c text =>
        obtain rfl : c = '%' := Option.some.inj hhead
        have hinner : escapePlain ('%' :: text) = '%' :: escapePlain text :=
          Text.replace_pair_cons fun h => absurd h.1 (by decide)
        have houter : escapePlain ('<' :: '%' :: text) = '<' :: '%' :: '%' :: escapePlain text :=
          Text.replace_pair _ _ _ text
        exact ⟨'<' :: '%' :: text, rest, by rw [hinner, houter]; rfl, hrest⟩
    · refine ⟨[], '<' :: '%' :: source, ?_, Or.inr ⟨source, rfl, hhead⟩⟩
      rw [escapePlain, Text.replace_pair_nil]
      rfl
  | cons c source h ih =>
    obtain ⟨text, rest, rfl, hrest⟩ := ih
    have hpair : ¬ (c = '<' ∧ text.head? = some '%') := by
      rintro ⟨rfl, htext⟩
      refine h ⟨rfl, ?_⟩
      rw [List.head?_append, escapePlain, Text.head?_replace_pair rfl, htext]
      rfl
    have hescape : escapePlain (c :: text) = c :: escapePlain text := Text.replace_pair_cons hpair
    exact ⟨c :: text, rest, by rw [hescape]; rfl, hrest⟩

/-- Every source begins with the text of a statement: up to its end mark, or up to the end. -/
theorem exists_escapeStatement (source : List Char) :
    (∃ text rest, source = escapeStatement text ++ '%' :: '>' :: rest ∧
      text.getLast? ≠ some '%') ∨ ∃ text, source = escapeStatement text := by
  induction hlength : source.length using Nat.strong_induction_on generalizing source with
  | _ n ih =>
    by_cases hdoubled : ∃ rest, source = '%' :: '%' :: '>' :: rest
    · obtain ⟨rest, rfl⟩ := hdoubled
      have hescape (text : List Char) :
          escapeStatement ('%' :: '>' :: text) = '%' :: '%' :: '>' :: escapeStatement text :=
        Text.replace_pair _ _ _ text
      have hshort : rest.length < n := by
        rw [← hlength]
        simp only [List.length_cons]
        omega
      rcases ih _ hshort rest rfl with ⟨text, rest, rfl, hlast⟩ | ⟨text, rfl⟩
      · refine Or.inl ⟨'%' :: '>' :: text, rest, by rw [hescape]; rfl, ?_⟩
        rw [List.getLast?_cons, List.getLast?_cons]
        cases hend : text.getLast? with
        | none => simp
        | some c => simpa [hend] using hlast
      · exact Or.inr ⟨'%' :: '>' :: text, (hescape text).symm⟩
    · cases source with
      | nil => exact Or.inr ⟨[], by rw [escapeStatement, Text.replace_pair_nil]⟩
      | cons c source =>
        by_cases hend : c = '%' ∧ source.head? = some '>'
        · obtain ⟨rfl, hsource⟩ := hend
          obtain ⟨rest, rfl⟩ := List.head?_eq_some_iff.mp hsource
          refine Or.inl ⟨[], rest, ?_, by simp⟩
          rw [escapeStatement, Text.replace_pair_nil]
          rfl
        · have hshort : source.length < n := by
            rw [← hlength]
            exact Nat.lt_succ_self _
          have hescape {text tail : List Char} (h : source = escapeStatement text ++ tail) :
              escapeStatement (c :: text) = c :: escapeStatement text := by
            refine Text.replace_pair_cons fun hpair => hend ⟨hpair.1, ?_⟩
            rw [h, List.head?_append, escapeStatement, Text.head?_replace_pair rfl, hpair.2]
            rfl
          rcases ih _ hshort source rfl with ⟨text, rest, hsource, hlast⟩ | ⟨text, hsource⟩
          · refine Or.inl ⟨c :: text, rest, by rw [hescape hsource, hsource]; rfl, ?_⟩
            cases text with
            | nil =>
              rintro hc
              obtain rfl : c = '%' := Option.some.inj hc
              refine hdoubled ⟨rest, ?_⟩
              rw [hsource, escapeStatement, Text.replace_pair_nil]
              rfl
            | cons d text => rwa [List.getLast?_cons_cons]
          · have hwhole : source = escapeStatement text ++ [] := by rw [hsource, List.append_nil]
            exact Or.inr ⟨c :: text, by rw [hescape hwhole, hsource]⟩

/-- What is written for the text of a statement has no end mark. -/
theorem unclosed_escapeStatement (text : List Char) : Unclosed (escapeStatement text) := by
  induction text using Text.induction_on_pairs '%' '>' with
  | nil =>
    intro u v h
    rw [escapeStatement, Text.replace_pair_nil] at h
    simp at h
  | pair t ih =>
    intro u v h
    have hescape : escapeStatement ('%' :: '>' :: t) = '%' :: '%' :: '>' :: escapeStatement t :=
      Text.replace_pair _ _ _ t
    rw [hescape] at h
    rcases u with _ | ⟨c, _ | ⟨d, _ | ⟨e, u⟩⟩⟩
    · simp at h
    · obtain rfl := (List.cons.inj h).1
      rfl
    · simp at h
    · simp only [List.cons_append, List.cons.injEq] at h
      rw [List.getLast?_cons, List.getLast?_cons, List.getLast?_cons, ih u v h.2.2.2]
      rfl
  | cons c t h ih =>
    intro u v heq
    have hescape : escapeStatement (c :: t) = c :: escapeStatement t := Text.replace_pair_cons h
    rw [hescape] at heq
    cases u with
    | nil =>
      obtain ⟨rfl, ht⟩ := List.cons.inj heq
      have hhead : (escapeStatement t).head? = t.head? := Text.head?_replace_pair rfl t
      exact absurd ⟨rfl, by rw [← hhead, ht]; rfl⟩ h
    | cons d u =>
      rw [List.getLast?_cons, ih u v (List.cons.inj heq).2]
      rfl

theorem writtenAll_withPlain (text : List Char) (segments : List Segment) :
    writtenAll (withPlain text.reverse segments) = escapePlain text ++ writtenAll segments := by
  by_cases h : text = []
  · subst h
    rw [escapePlain, Text.replace_pair_nil]
    rfl
  · rw [withPlain_reverse h, writtenAll_cons, written]

theorem Canonical.withPlain {segments : List Segment} (h : Canonical segments)
    (hfirst : ∀ s ∈ segments.head?, s.isPlain = false) (text : List Char) :
    Canonical (withPlain text.reverse segments) := by
  by_cases htext : text = []
  · subst htext
    exact h
  · rw [withPlain_reverse htext]
    refine canonical_cons.mpr ⟨htext, fun s hs hplain => ?_, h⟩
    rw [hfirst s hs] at hplain
    exact Bool.false_ne_true hplain.2

/-- **Every source begins with a canonical row of segments**, and ends there or with a begin mark that is
not closed. -/
theorem exists_writtenAll (source : List Char) :
    ∃ segments rest, Canonical segments ∧ source = writtenAll segments ++ rest ∧
      (rest = [] ∨ ∃ text, rest = '<' :: '%' :: escapeStatement text ∧ text.head? ≠ some '%') := by
  induction hlength : source.length using Nat.strong_induction_on generalizing source with
  | _ n ih =>
    obtain ⟨plainText, rest, rfl, hrest⟩ := exists_escapePlain source
    have hhead (text : List Char) : (escapeStatement text).head? = text.head? :=
      Text.head?_replace_pair rfl text
    have hnone : ∀ s ∈ ([] : List Segment).head?, s.isPlain = false := fun _ h => by cases h
    rcases hrest with rfl | ⟨inner, rfl, hinner⟩
    · refine ⟨Segment.withPlain plainText.reverse [], [], canonical_nil.withPlain hnone plainText, ?_,
        Or.inl rfl⟩
      rw [writtenAll_withPlain, writtenAll_nil, List.append_nil, List.append_nil]
    · rcases exists_escapeStatement inner with ⟨text, rest, rfl, hlast⟩ | ⟨text, rfl⟩
      · have hne : text ≠ [] := by
          rintro rfl
          rw [escapeStatement, Text.replace_pair_nil] at hinner
          exact hinner rfl
        have htext : text.head? ≠ some '%' := by
          rw [List.head?_append, hhead] at hinner
          cases text with
          | nil => exact absurd rfl hne
          | cons c text => exact hinner
        have hshort : rest.length < n := by
          rw [← hlength]
          simp only [List.length_append, List.length_cons]
          omega
        obtain ⟨segments, tail, hsegments, rfl, htail⟩ := ih _ hshort rest rfl
        have hstatement : Canonical (statement text 0 ⟨0, 0⟩ :: segments) :=
          canonical_cons.mpr ⟨⟨hne, htext, hlast⟩, fun _ _ h => Bool.false_ne_true h.1, hsegments⟩
        have hfirst : ∀ s ∈ (statement text 0 ⟨0, 0⟩ :: segments).head?, s.isPlain = false := by
          rintro s hs
          obtain rfl := Option.some.inj hs
          rfl
        refine ⟨_, tail, hstatement.withPlain hfirst plainText, ?_, htail⟩
        rw [writtenAll_withPlain, writtenAll_cons, written]
        simp
      · refine ⟨Segment.withPlain plainText.reverse [], _, canonical_nil.withPlain hnone plainText,
          ?_, Or.inr ⟨text, rfl, by rwa [← hhead]⟩⟩
        rw [writtenAll_withPlain, writtenAll_nil, List.append_nil]

/-! ## Reading and writing -/

theorem scanPlain_unclosed {text : List Char} (h : text.head? ≠ some '%') (line offset : Nat) :
    scanPlain line offset [] ('<' :: '%' :: escapeStatement text) =
      .error (line, ⟨offset, offset + 2⟩) := by
  have hhead : (escapeStatement text).head? ≠ some '%' := by
    rwa [escapeStatement, Text.head?_replace_pair rfl]
  have hempty : text.getLast? = some '%' → ([] : List Char) = [] := fun _ => rfl
  have hend := scanStatement_escapeStatement text hempty line offset line (offset + 2) []
  rw [List.append_nil] at hend
  rw [scanPlain_mark hhead, hend, scanStatement]
  rfl

/-- Where segments stand does not matter for what they are written as. -/
theorem writtenAll_placeBehind (text : List Char) (segments : List Segment) :
    writtenAll (placeBehind text segments) = writtenAll segments := by
  induction segments generalizing text with
  | nil => rfl
  | cons s segments ih =>
    cases s with
    | plain t => rw [placeBehind, writtenAll_cons, writtenAll_cons, ih]
    | statement t line span =>
      rw [placeBehind, writtenAll_cons, writtenAll_cons, ih, written, written]

theorem placeBehind_placeBehind (text : List Char) (segments : List Segment) :
    placeBehind text (placeBehind text segments) = placeBehind text segments := by
  induction segments generalizing text with
  | nil => rfl
  | cons s segments ih =>
    cases s with
    | plain t => rw [placeBehind, placeBehind, ih]
    | statement t line span =>
      rw [placeBehind, placeBehind]
      exact congrArg (statement t _ _ :: ·) (ih _)

theorem Canonical.placeBehind {segments : List Segment} (h : Canonical segments)
    (text : List Char) : Canonical (placeBehind text segments) := by
  have hfirst (text : List Char) (segments : List Segment) :
      (Segment.placeBehind text segments).head?.map isPlain = segments.head?.map isPlain := by
    cases segments with
    | nil => rfl
    | cons s segments => cases s <;> rfl
  induction segments generalizing text with
  | nil => exact h
  | cons s segments ih =>
    obtain ⟨hs, hnext, hsegments⟩ := canonical_cons.mp h
    have hapart (next : List Char) : ∀ s' ∈ (Segment.placeBehind next segments).head?,
        ¬ (s.isPlain = true ∧ s'.isPlain = true) := by
      intro s' hs' hplain
      have hhead := hfirst next segments
      rw [hs', Option.map_some, hplain.2] at hhead
      obtain ⟨s'', hs'', hplain''⟩ := Option.map_eq_some_iff.mp hhead.symm
      exact hnext s'' hs'' ⟨hplain.1, hplain''⟩
    cases s with
    | plain t => exact canonical_cons.mpr ⟨hs, hapart _, ih hsegments _⟩
    | statement t line span => exact canonical_cons.mpr ⟨hs, hapart _, ih hsegments _⟩

theorem scan_of_canonical (file : String) {segments : List Segment} (h : Canonical segments) :
    scan file (writtenAll segments) = .ok (place segments) := by
  have hread := scanPlain_writtenAll h (Or.inl rfl) []
  rw [List.append_nil, scanPlain] at hread
  have hread : scanPlain 1 0 [] (writtenAll segments) = .ok (place segments) :=
    hread.trans (congrArg Except.ok (List.append_nil _))
  rw [scan, hread]

theorem scan_of_unclosed (file : String) {segments : List Segment} (h : Canonical segments)
    {text : List Char} (htext : text.head? ≠ some '%') :
    scan file (writtenAll segments ++ '<' :: '%' :: escapeStatement text) =
      .error (.malformed .missingEndMark ⟨file, lineBehind (writtenAll segments),
        ⟨byteLength (writtenAll segments), byteLength (writtenAll segments) + 2⟩⟩) := by
  have hhead : (escapeStatement text).head? ≠ some '%' := by
    rwa [escapeStatement, Text.head?_replace_pair rfl]
  have hread := scanPlain_writtenAll h (Or.inr ⟨_, rfl, hhead⟩) []
  rw [scanPlain_unclosed htext] at hread
  have hread : scanPlain 1 0 [] (writtenAll segments ++ '<' :: '%' :: escapeStatement text) =
      .error (lineBehind (writtenAll segments),
        ⟨byteLength (writtenAll segments), byteLength (writtenAll segments) + 2⟩) := hread
  rw [scan, hread]

/-- **What a source is read as** is a canonical row that is written as this source. -/
theorem canonical_of_scan {file : String} {source : List Char} {segments : List Segment}
    (h : scan file source = .ok segments) :
    Canonical segments ∧ writtenAll segments = source ∧ place segments = segments := by
  obtain ⟨row, rest, hrow, rfl, rfl | ⟨text, rfl, htext⟩⟩ := exists_writtenAll source
  · rw [List.append_nil, scan_of_canonical file hrow] at h
    obtain rfl := Except.ok.inj h
    rw [List.append_nil]
    exact ⟨hrow.placeBehind [], writtenAll_placeBehind [] row, placeBehind_placeBehind [] row⟩
  · rw [scan_of_unclosed file hrow htext] at h
    cases h

/-- **A source that is not read** has a begin mark without an end mark behind a canonical row. -/
theorem exists_unclosed_of_scan {file : String} {source : List Char}
    (h : ∀ segments, scan file source ≠ .ok segments) :
    ∃ segments inner, Canonical segments ∧
      source = writtenAll segments ++ '<' :: '%' :: inner ∧ inner.head? ≠ some '%' ∧
      Unclosed inner ∧ scan file source = .error (.malformed .missingEndMark
        ⟨file, lineBehind (writtenAll segments),
          ⟨byteLength (writtenAll segments), byteLength (writtenAll segments) + 2⟩⟩) := by
  obtain ⟨row, rest, hrow, rfl, rfl | ⟨text, rfl, htext⟩⟩ := exists_writtenAll source
  · rw [List.append_nil] at h
    exact absurd (scan_of_canonical file hrow) (h _)
  · refine ⟨row, escapeStatement text, hrow, rfl, ?_, unclosed_escapeStatement text,
      scan_of_unclosed file hrow htext⟩
    rwa [escapeStatement, Text.head?_replace_pair rfl]

/-- **Reading and writing are inverse to each other.**  A canonical row of segments is read off the source
that it is written as, with its lines and spans in it; whatever a source is read as, is a canonical row
that is written as this source; and any other source has a begin mark without an end mark behind a
canonical row, which is the error. -/
theorem scan_writtenAll (file : String) :
    (∀ segments, Canonical segments → scan file (writtenAll segments) = .ok (place segments)) ∧
      (∀ source segments, scan file source = .ok segments →
        Canonical segments ∧ writtenAll segments = source ∧ place segments = segments) ∧
      ∀ source, (∀ segments, scan file source ≠ .ok segments) →
        ∃ segments inner, Canonical segments ∧
          source = writtenAll segments ++ '<' :: '%' :: inner ∧ inner.head? ≠ some '%' ∧
          Unclosed inner ∧ scan file source = .error (.malformed .missingEndMark
            ⟨file, lineBehind (writtenAll segments),
              ⟨byteLength (writtenAll segments), byteLength (writtenAll segments) + 2⟩⟩) :=
  ⟨fun _ => scan_of_canonical file, fun _ _ => canonical_of_scan, fun _ => exists_unclosed_of_scan⟩

/-- Marks in plain text and in a statement, on two lines, and a statement that is not closed. -/
theorem scan_writtenAll_marks :
    scan "t.html" "é<%%\n<%\n= \"%%>\" %>>".toList = .ok [plain "é<%\n".toList,
        statement "\n= \"%>\" ".toList 2 ⟨6, 19⟩, plain ">".toList] ∧
      writtenAll [plain "é<%\n".toList, statement "\n= \"%>\" ".toList 2 ⟨6, 19⟩,
        plain ">".toList] = "é<%%\n<%\n= \"%%>\" %>>".toList ∧
      ∃ segments inner, "é<%%\n<%\n= %%>".toList = writtenAll segments ++ '<' :: '%' :: inner ∧
        Unclosed inner ∧ scan "t.html" "é<%%\n<%\n= %%>".toList = .error (.malformed .missingEndMark
          ⟨"t.html", lineBehind (writtenAll segments),
            ⟨byteLength (writtenAll segments), byteLength (writtenAll segments) + 2⟩⟩) := by
  have hcanonical : Canonical [plain "é<%\n".toList, statement "\n= \"%>\" ".toList 0 ⟨0, 0⟩,
      plain ">".toList] := by decide
  have hscan := (scan_writtenAll "t.html").1 _ hcanonical
  have hopen : ∀ segments, scan "t.html" "é<%%\n<%\n= %%>".toList ≠ .ok segments := by
    intro segments h
    have hfails : (scan "t.html" "é<%%\n<%\n= %%>".toList).isOk = false := by decide
    rw [h] at hfails
    exact Bool.noConfusion hfails
  obtain ⟨segments, inner, -, hsource, -, hinner, herror⟩ := (scan_writtenAll "t.html").2.2 _ hopen
  exact ⟨hscan, ((scan_writtenAll "t.html").2.1 _ _ hscan).2.1, segments, inner, hsource, hinner,
    herror⟩

end Inlay.Segment
