import Inlay.Proofs.Statement.Places
import Inlay.Report
import Mathlib.Data.List.DropRight

/-!
# What a report says of a place

An error that points into a source has a line, and this line is in its message.  The report of the error
counts lines anew, from the offset at which the error begins.  Both count the line feeds in front of the
error.  But a report has further line ends: a carriage return, unless a line feed follows it, a vertical
tab, a form feed and the characters U+0085, U+2028 and U+2029.  Each of them in front of the error puts
the report one line behind the message, and the report counts its columns from the last line end of
either kind.

* `Text.otherEnds`: the line ends of a text beside its line feeds.
* `Text.columnBehind`: the column behind a text whose lines end with line feeds.
* `Location.ofOffset_byteLength`: the location behind a text.
* `Document.report_of_parse`: the report of a source that does not parse, against the source.
-/

namespace Inlay

open Segment (lineBehind)

/-! ## Lines of a text -/

namespace Text

/-- A character that ends a line of a report and is no line feed.  A carriage return does so only if no
line feed follows it. -/
def isOtherEnd (c : Char) : Bool :=
  c ∈ ['\r', '\x0b', '\x0c', '\u0085', '\u2028', '\u2029']

/-- How many lines of a report end in a text otherwise than with a line feed.  A carriage return in front
of a line feed belongs to the line feed. -/
def otherEnds : List Char → Nat
  | [] => 0
  | c :: rest =>
    otherEnds rest + if isOtherEnd c ∧ ¬ (c = '\r' ∧ rest.head? = some '\n') then 1 else 0

/-- A character that a line of a report has before its end. -/
def isWithinLine (c : Char) : Bool :=
  c ≠ '\n' && !isOtherEnd c

/-- The column behind a text whose lines end with line feeds, counted from one. -/
def columnBehind (text : List Char) : Nat :=
  1 + (text.rtakeWhile (· ≠ '\n')).length

theorem endsLine_iff (c : Char) (rest : List Char) : endsLine c rest = true ↔
    c = '\n' ∨ isOtherEnd c = true ∧ ¬ (c = '\r' ∧ rest.head? = some '\n') := by
  by_cases hreturn : c = '\r'
  · subst hreturn
    simp [endsLine, isOtherEnd]
  · simp only [endsLine, isOtherEnd, beq_iff_eq, if_neg hreturn]
    simp [← Char.toNat_inj] at hreturn ⊢
    omega

theorem isWithinLine_of_endsLine {c : Char} {rest : List Char} (h : endsLine c rest = true) :
    isWithinLine c = false := by
  rcases (endsLine_iff c rest).mp h with rfl | ⟨hother, -⟩
  · rfl
  · rw [isWithinLine, hother, Bool.not_true, Bool.and_false]

/-- Only a carriage return in front of a line feed ends no line and is not within one. -/
theorem isWithinLine_of_not_endsLine {c : Char} {rest : List Char} (h : ¬ endsLine c rest = true)
    (hrest : ∀ d ∈ rest, isWithinLine d = true) : isWithinLine c = true := by
  rw [endsLine_iff, not_or, not_and, not_not] at h
  obtain ⟨hfeed, hother⟩ := h
  have hother : isOtherEnd c = false := by
    refine Bool.eq_false_iff.mpr fun h => ?_
    have hmem := List.mem_of_mem_head? (hother h).2
    exact absurd (hrest '\n' hmem) (by decide)
  simp [isWithinLine, hfeed, hother]

section

variable {p : Char → Bool} {rest : List Char}

theorem rtakeWhile_cons_of_forall (h : ∀ d ∈ rest, p d = true) (c : Char) :
    (c :: rest).rtakeWhile p = if p c then c :: rest else rest := by
  rw [List.rtakeWhile, List.reverse_cons,
    List.takeWhile_append_of_pos fun d hd => h d (List.mem_reverse.mp hd), List.reverse_append,
    List.reverse_reverse, List.takeWhile_cons]
  split <;> rfl

theorem rtakeWhile_cons_of_exists (h : ¬ ∀ d ∈ rest, p d = true) (c : Char) :
    (c :: rest).rtakeWhile p = rest.rtakeWhile p := by
  rw [List.rtakeWhile, List.rtakeWhile, List.reverse_cons, List.takeWhile_append, if_neg]
  intro hlength
  have hself := (List.takeWhile_prefix p).eq_of_length hlength
  exact h fun d hd => List.takeWhile_eq_self_iff.mp hself d (List.mem_reverse.mpr hd)

end

/-! ## Positions behind a text -/

section

variable {before behind : List Char} (hbehind : behind ≠ []) (hhead : behind.head? ≠ some '\n')
include hbehind hhead

/-- A line ends behind a character of the text in front of the rest of a source just if it does so in
front of the rest of the text. -/
theorem endsLine_append (c : Char) :
    (endsLine c (before ++ behind) && !(before ++ behind).isEmpty) = endsLine c before := by
  have hne : (before ++ behind).isEmpty = false := by simp [hbehind]
  rw [hne, Bool.not_false, Bool.and_true, Bool.eq_iff_iff, endsLine_iff, endsLine_iff]
  cases before with
  | nil => simp [hhead]
  | cons d before => rfl

/-- **The line behind a text**: one more for each line feed and for each other line end. -/
theorem fst_positionFrom_append (line column : Nat) :
    (positionFrom line column before.length (before ++ behind)).1 =
      line + before.count '\n' + otherEnds before := by
  induction before generalizing line column with
  | nil => rfl
  | cons c before ih =>
    rw [List.length_cons, List.cons_append, positionFrom, endsLine_append hbehind hhead, otherEnds,
      List.count_cons]
    by_cases hfeed : c = '\n'
    · subst hfeed
      have hends : endsLine '\n' before = true := (endsLine_iff ..).mpr (.inl rfl)
      have hother : ¬ (isOtherEnd '\n' = true ∧ ¬ ('\n' = '\r' ∧ before.head? = some '\n')) :=
        fun h => absurd h.1 (by decide)
      rw [if_pos hends, ih, if_neg hother, if_pos (beq_self_eq_true _)]
      omega
    · have hends := endsLine_iff c before
      rw [or_iff_right hfeed] at hends
      simp only [← hends, beq_iff_eq, if_neg hfeed]
      split <;> rw [ih] <;> omega

/-- **The column behind a text** that has no line end, and behind one that has. -/
theorem snd_positionFrom_append (line column : Nat) :
    (positionFrom line column before.length (before ++ behind)).2 =
      if ∀ c ∈ before, isWithinLine c = true then column + before.length
      else 1 + (before.rtakeWhile isWithinLine).length := by
  induction before generalizing line column with
  | nil => simp [positionFrom]
  | cons c before ih =>
    rw [List.length_cons, List.cons_append, positionFrom, endsLine_append hbehind hhead]
    by_cases hends : endsLine c before = true
    · have hwithin := isWithinLine_of_endsLine hends
      have hnot : ¬ ∀ d ∈ c :: before, isWithinLine d = true := fun h =>
        Bool.false_ne_true (hwithin.symm.trans (h c (List.mem_cons_self ..)))
      rw [if_pos hends, ih, if_neg hnot]
      split
      · rename_i hall
        rw [rtakeWhile_cons_of_forall hall, hwithin]
        rfl
      · rename_i hall
        rw [rtakeWhile_cons_of_exists hall]
    · rw [if_neg hends, ih]
      by_cases hall : ∀ d ∈ before, isWithinLine d = true
      · have hall' : ∀ d ∈ c :: before, isWithinLine d = true :=
          List.forall_mem_cons.mpr ⟨isWithinLine_of_not_endsLine hends hall, hall⟩
        rw [if_pos hall, if_pos hall', Nat.add_assoc, Nat.add_comm 1]
      · have hnot : ¬ ∀ d ∈ c :: before, isWithinLine d = true := fun h =>
          hall (List.forall_mem_cons.mp h).2
        rw [if_neg hall, if_neg hnot, rtakeWhile_cons_of_exists hall]

/-- **The line and the column behind a text**, in front of a rest that does not begin with a line feed. -/
theorem position_append : position before.length (before ++ behind) =
    (lineBehind before + otherEnds before, 1 + (before.rtakeWhile isWithinLine).length) := by
  refine Prod.ext (fst_positionFrom_append hbehind hhead 1 1) ?_
  rw [position, snd_positionFrom_append hbehind hhead]
  split
  · rename_i hall
    rw [List.rtakeWhile_eq_self_iff.mpr hall]
  · rfl

end

theorem charsBefore?_byteLength (before behind : List Char) :
    charsBefore? (byteLength before) (before ++ behind) = some before.length := by
  induction before with
  | nil =>
    rw [byteLength_nil, charsBefore?]
    rfl
  | cons c before ih =>
    obtain ⟨n, hn⟩ : ∃ n, byteLength (c :: before) = n + 1 :=
      Nat.exists_eq_add_one.mpr (Nat.add_pos_left c.utf8Size_pos _)
    have hle : ¬ n + 1 < c.utf8Size := by
      rw [← hn, byteLength_cons]
      omega
    have hrest : n + 1 - c.utf8Size = byteLength before := by
      rw [← hn, byteLength_cons, Nat.add_sub_cancel_left]
    rw [hn, List.cons_append, charsBefore?, if_neg hle, hrest, ih]
    rfl

/-! ## Lines that end with line feeds alone -/

theorem otherEnds_le_append (text text' : List Char) : otherEnds text' ≤ otherEnds (text ++ text') := by
  induction text with
  | nil => exact Nat.le_refl _
  | cons c text ih =>
    rw [List.cons_append, otherEnds]
    omega

/-- A text with an other line end in its last line, as line feeds count, has other line ends. -/
theorem otherEnds_pos {text : List Char} {c : Char} (hc : c ∈ text.rtakeWhile (· ≠ '\n'))
    (hother : isOtherEnd c = true) : 0 < otherEnds text := by
  obtain ⟨front, htext⟩ := List.rtakeWhile_suffix (· ≠ '\n') text
  obtain ⟨line, rest, hline⟩ := List.append_of_mem hc
  have hlone : ¬ (c = '\r' ∧ rest.head? = some '\n') := by
    rintro ⟨-, hhead⟩
    have hfeed : '\n' ∈ text.rtakeWhile (· ≠ '\n') := by
      rw [hline]
      exact List.mem_append_right _ (List.mem_cons_of_mem _ (List.mem_of_mem_head? hhead))
    exact absurd (List.mem_rtakeWhile_imp hfeed) (by decide)
  have hpos : 0 < otherEnds (c :: rest) := by
    rw [otherEnds, if_pos ⟨hother, hlone⟩]
    omega
  rw [← htext, hline, ← List.append_assoc]
  exact Nat.lt_of_lt_of_le hpos (otherEnds_le_append _ _)

/-- The columns are the same just if there is no other line end behind the last line feed. -/
theorem length_isWithinLine_iff (text : List Char) :
    1 + (text.rtakeWhile isWithinLine).length = columnBehind text ↔
      ∀ c ∈ text.rtakeWhile (· ≠ '\n'), isOtherEnd c = false := by
  have hline : text.rtakeWhile isWithinLine =
      (text.rtakeWhile (· ≠ '\n')).rtakeWhile (fun c => !isOtherEnd c) := by
    rw [List.rtakeWhile, List.rtakeWhile, List.rtakeWhile, List.reverse_reverse,
      List.takeWhile_takeWhile]
    congr 2
    funext c
    simp [isWithinLine, and_comm]
  rw [columnBehind, hline, Nat.add_left_cancel_iff]
  constructor
  · intro hlength c hc
    have hself := (List.rtakeWhile_suffix _ _).eq_of_length hlength
    exact (Bool.not_eq_true' _).mp (List.rtakeWhile_eq_self_iff.mp hself c hc)
  · intro hall
    rw [List.rtakeWhile_eq_self_iff.mpr fun c hc => (Bool.not_eq_true' _).mpr (hall c hc)]

end Text

/-- **The location behind a text**, in front of a rest that does not begin with a line feed. -/
theorem Location.ofOffset_byteLength (file : String) (before : List Char) {behind : List Char}
    (hbehind : behind ≠ []) (hhead : behind.head? ≠ some '\n') :
    Location.ofOffset file (byteLength before) (before ++ behind) =
      some ⟨file, lineBehind before + Text.otherEnds before,
        1 + (before.rtakeWhile Text.isWithinLine).length⟩ := by
  have hne : ¬ (before ++ behind).isEmpty = true := by simp [hbehind]
  rw [Location.ofOffset, if_neg hne, Text.charsBefore?_byteLength, Option.getD_some,
    Text.position_append hbehind hhead]

/-! ## Errors of the parser -/

namespace Error

/-- **What an error says of itself behind a text**: a source goes on with a begin mark there, which is the
place of the error; the message has the file and the line, and the report against the source a location. -/
structure Located (e : Error) (file source : String) (before : List Char) (location : Location) :
    Prop where
  begins : ∃ behind, source.toList = before ++ '<' :: behind
  place : ∃ span, e.place? = some ⟨file, lineBehind before, span⟩ ∧ span.start = byteLength before
  message : ∃ what more : String,
    e.message = s!"{what} in file {file} at line {lineBehind before}{more}"
  report : ∃ headline, e.report? source = some ⟨headline, some location⟩

/-- An error with a place has a headline, and its message names the file and the line of the place. -/
theorem named_of_place? {e : Error} {place : Place} (h : e.place? = some place) :
    (∃ headline, e.headline? = some headline) ∧ ∃ what more : String,
      e.message = s!"{what} in file {place.file} at line {place.line}{more}" := by
  cases e with
  | malformed why p =>
    obtain rfl := Option.some.inj h
    exact ⟨⟨_, rfl⟩, why.message, "", String.append_empty.symm⟩
  | unknownStatement statement p =>
    obtain rfl := Option.some.inj h
    exact ⟨⟨_, rfl⟩, s!"unknown statement {statement.quoted}", "", String.append_empty.symm⟩
  | blockConflict name first p =>
    obtain rfl := Option.some.inj h
    exact ⟨⟨_, rfl⟩, s!"block `{name}`", s!" conflicts with the block defined at line {first}", rfl⟩
  | _ => cases h

end Error

variable {config : Config} {file : String}

namespace Document

/-- **The error of a source that does not parse begins at a begin mark**, with the line of this mark. -/
theorem exists_mark_of_parse {source : List Char} {e : Error}
    (h : Document.parse config file source = .error e) : ∃ before behind span,
      source = before ++ '<' :: behind ∧ e.place? = some ⟨file, lineBehind before, span⟩ ∧
        span.start = byteLength before := by
  rcases Document.cites_of_parse h with h | ⟨segments, hsegments, earlier, text, line, span, later,
    rfl, hcites⟩
  · have hopen : ∀ segments, Segment.scan file source ≠ .ok segments := by
      intro segments hsegments
      rw [h] at hsegments
      cases hsegments
    obtain ⟨segments, inner, -, hsource, -, -, hscan⟩ := Segment.exists_unclosed_of_scan hopen
    obtain rfl := Except.error.inj (h.symm.trans hscan)
    exact ⟨_, _, _, hsource, rfl, rfl⟩
  · obtain ⟨before, written, ⟨⟨behind, hsource⟩, ⟨inner, hwritten, -⟩, -⟩, -, hplace⟩ :=
      Segment.exists_stands_of_scan hsegments
    rw [← hplace] at hcites
    refine ⟨before, '%' :: (inner ++ ['%', '>'] ++ behind), _, ?_, hcites.place?_eq, rfl⟩
    rw [hsource, hwritten, List.append_assoc]
    rfl

/-- **Where the error of a source that does not parse is said to be.**  There is always a report against
the source.  It names the file of the message, and a line and a column that count all line ends in front
of the error; they are those that line feeds alone give just if there is no other line end.  The column is
the same just if there is none behind the last line feed. -/
theorem report_of_parse {source : String} {e : Error}
    (h : Document.parse config file source.toList = .error e) :
    ∃ before location, e.Located file source before location ∧
      location = ⟨file, lineBehind before + Text.otherEnds before,
        1 + (before.rtakeWhile Text.isWithinLine).length⟩ ∧
      (location.line = lineBehind before ∧ location.column = Text.columnBehind before ↔
        Text.otherEnds before = 0) ∧
      (location.column = Text.columnBehind before ↔
        ∀ c ∈ before.rtakeWhile (· ≠ '\n'), Text.isOtherEnd c = false) := by
  obtain ⟨before, behind, span, hsource, hplace, hstart⟩ := exists_mark_of_parse h
  obtain ⟨⟨headline, hheadline⟩, hmessage⟩ := Error.named_of_place? hplace
  have hhead : ('<' :: behind).head? ≠ some '\n' := by simp
  have hlocation := Location.ofOffset_byteLength file before (List.cons_ne_nil _ _) hhead
  rw [← hstart, ← hsource] at hlocation
  have hreport : e.report? source = some ⟨headline, Location.ofOffset file span.start source.toList⟩ := by
    rw [Error.report?, hheadline, hplace]
    rfl
  rw [hlocation] at hreport
  have hcolumns := Text.length_isWithinLine_iff before
  refine ⟨before, _, ⟨⟨behind, hsource⟩, ⟨span, hplace, hstart⟩, hmessage, ⟨headline, hreport⟩⟩, rfl,
    ⟨fun hsame => Nat.add_left_cancel hsame.1, fun hends => ⟨by rw [hends, Nat.add_zero], ?_⟩⟩,
    hcolumns⟩
  refine hcolumns.mpr fun c hc => Bool.eq_false_iff.mpr fun hother => ?_
  exact absurd (Text.otherEnds_pos hc hother) (by omega)

/-- A source does not parse if something can be read off its error. -/
theorem exists_error_of_parse {α : Type} {source : List Char} (f : Error → α) {a : α}
    (h : (match Document.parse config file source with
      | .ok _ => none
      | .error e => some (f e)) = some a) :
    ∃ e, Document.parse config file source = .error e ∧ f e = a := by
  cases hparse : Document.parse config file source with
  | ok d =>
    rw [hparse] at h
    cases h
  | error e =>
    rw [hparse] at h
    exact ⟨e, rfl, Option.some.inj h⟩

/-- Characters of several bytes and carriage returns in front of line feeds change nothing; a form feed
on an earlier line changes the line, but not the column. -/
theorem report_of_parse_lines :
    ∃ e, Document.parse Config.default "t.html" "é\x0cé\r\né <% fi %>".toList = .error e ∧
      e.report? "é\x0cé\r\né <% fi %>" = some ⟨"unknown statement \"fi\"", some ⟨"t.html", 3, 3⟩⟩ ∧
      ∃ before location, e.Located "t.html" "é\x0cé\r\né <% fi %>" before location ∧
        location = ⟨"t.html", lineBehind before + Text.otherEnds before,
          1 + (before.rtakeWhile Text.isWithinLine).length⟩ ∧
        (location.line = lineBehind before ∧ location.column = Text.columnBehind before ↔
          Text.otherEnds before = 0) ∧
        (location.column = Text.columnBehind before ↔
          ∀ c ∈ before.rtakeWhile (· ≠ '\n'), Text.isOtherEnd c = false) := by
  obtain ⟨e, hparse, hreport⟩ : ∃ e,
      Document.parse Config.default "t.html" "é\x0cé\r\né <% fi %>".toList = .error e ∧
        e.report? "é\x0cé\r\né <% fi %>" =
          some ⟨"unknown statement \"fi\"", some ⟨"t.html", 3, 3⟩⟩ :=
    exists_error_of_parse _ (by decide +kernel)
  exact ⟨e, hparse, hreport, report_of_parse hparse⟩

/-- **A report and its error disagree behind a form feed**: the message says line 1, and the statement
is behind one character of it; the report says line 2, column 1. -/
theorem report_formFeed :
    ∃ e, Document.parse Config.default "t.html" "\x0c<% fi %>".toList = .error e ∧
      e.message = "unknown statement \"fi\" in file t.html at line 1" ∧
      e.place?.map Place.line = some 1 ∧ Text.columnBehind ['\x0c'] = 2 ∧
      e.report? "\x0c<% fi %>" =
        some ⟨"unknown statement \"fi\"", some ⟨"t.html", 2, 1⟩⟩ := by
  obtain ⟨e, hparse, hsays⟩ : ∃ e,
      Document.parse Config.default "t.html" "\x0c<% fi %>".toList = .error e ∧
        (e.message, e.place?.map Place.line, e.report? "\x0c<% fi %>") =
          ("unknown statement \"fi\" in file t.html at line 1", some 1,
            some ⟨"unknown statement \"fi\"", some ⟨"t.html", 2, 1⟩⟩) :=
    exists_error_of_parse (fun e => (e.message, e.place?.map Place.line, e.report? "\x0c<% fi %>"))
      (by decide +kernel)
  simp only [Prod.mk.injEq] at hsays
  obtain ⟨hmessage, hline, hreport⟩ := hsays
  exact ⟨e, hparse, hmessage, hline, by decide +kernel, hreport⟩

end Document

end Inlay
