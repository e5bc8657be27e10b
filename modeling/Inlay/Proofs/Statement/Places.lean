import Inlay.Proofs.Segment.RoundTrip
import Inlay.Proofs.Statement.Refusal

/-!
# Where a template does not parse

The lines and spans of its segments are those at which they are written in the source, and the text
in front of a statement is read as the segments in front of it.  So an error that is about a
statement points at all of it, from its begin mark through its end mark.

* `Place.behind`: the place of what is written behind some text.
* `Segment.Stands`: a statement of a source, and what is written for it.
* `Segment.exists_stands_of_scan`: the statements that a source is read as stand in it.
* `Error.PointsInto`: the error points at a statement of the source, or at a begin mark that is not
  closed.
* `Document.pointsInto_of_parse`: the error of a source that does not parse points into it.
-/

namespace Inlay

open Segment (Unclosed lineBehind)

variable {config : Config} {file : String} {source : List Char}

/-! ## Segments in their source -/

namespace Segment

theorem Canonical.of_append {segments more : List Segment} (h : Canonical (segments ++ more)) :
    Canonical segments :=
  ⟨fun s hs => h.readable s (List.mem_append_left _ hs), h.apart.left_of_append⟩

theorem writtenAll_append (segments more : List Segment) :
    writtenAll (segments ++ more) = writtenAll segments ++ writtenAll more :=
  List.flatMap_append

theorem placeBehind_append (text : List Char) (segments more : List Segment) :
    placeBehind text (segments ++ more) =
      placeBehind text segments ++ placeBehind (text ++ writtenAll segments) more := by
  induction segments generalizing text with
  | nil => simp [placeBehind]
  | cons s segments ih => cases s <;> simp [placeBehind, ih]

theorem length_placeBehind (text : List Char) (segments : List Segment) :
    (placeBehind text segments).length = segments.length := by
  induction segments generalizing text with
  | nil => rfl
  | cons s segments ih => cases s <;> simp [placeBehind, ih]

end Segment

/-- The place of what is written behind some text: the line on which the text ends, and the bytes
from there on. -/
def Place.behind (file : String) (before written : List Char) : Place :=
  ⟨file, lineBehind before, ⟨byteLength before, byteLength (before ++ written)⟩⟩

/-- **A statement of a source**, with its text and what is written for it: it goes from a begin mark
through the first end mark behind it that is not doubled, and the source is read with this statement
there, and what is in front of it as what stands in front of it. -/
structure Segment.Stands (file : String) (source before written text : List Char) : Prop where
  inside : ∃ behind, source = before ++ written ++ behind
  marked : ∃ inner, written = '<' :: '%' :: (inner ++ ['%', '>']) ∧ inner.head? ≠ some '%' ∧
    inner.getLast? ≠ some '%' ∧ Unclosed inner
  scanned : ∃ earlier later, Segment.scan file before = .ok earlier ∧
    Segment.scan file source = .ok
      (earlier ++ .statement text (Place.behind file before written).line
      (Place.behind file before written).span :: later)

/-- The statements that a source is read as stand in it, at their lines and spans. -/
theorem Segment.exists_stands_of_scan {earlier later : List Segment} {text : List Char} {line : Nat}
    {span : Span}
    (h : Segment.scan file source = .ok (earlier ++ .statement text line span :: later)) :
    ∃ before written, Stands file source before written text ∧ scan file before = .ok earlier ∧
      Place.behind file before written = ⟨file, line, span⟩ := by
  obtain ⟨hcanonical, hwritten, hplace⟩ := canonical_of_scan h
  rw [place, placeBehind_append, List.nil_append] at hplace
  obtain ⟨hearlier, hrest⟩ := List.append_inj hplace (length_placeBehind [] earlier)
  rw [placeBehind] at hrest
  obtain ⟨-, hline, hspan⟩ := Segment.statement.inj (List.cons.inj hrest).1
  have hbefore : scan file (writtenAll earlier) = .ok earlier := by
    rw [scan_of_canonical file hcanonical.of_append, place, hearlier]
  have hhere : Place.behind file (writtenAll earlier) (statement text line span).written =
      ⟨file, line, span⟩ := by rw [Place.behind, hline, hspan]
  refine ⟨writtenAll earlier, (statement text line span).written, ⟨?_, ?_, ?_⟩, hbefore, hhere⟩
  · refine ⟨writtenAll later, ?_⟩
    rw [← hwritten, writtenAll_append, writtenAll_cons, List.append_assoc]
  · obtain ⟨-, hhead, hlast⟩ := hcanonical.readable (.statement text line span) (by simp)
    refine ⟨escapeStatement text, rfl, ?_, ?_, unclosed_escapeStatement text⟩
    · rwa [escapeStatement, Text.head?_replace_pair rfl]
    · rwa [escapeStatement, Text.getLast?_replace_pair rfl]
  · exact ⟨earlier, later, hbefore, by rw [hhere]; exact h⟩

/-! ## What an error points at -/

/-- **The error points at the right place of a source**: at a begin mark behind which there is no
end mark, or at a statement of the source.  In a conflict of blocks this is a block statement, and
the line that is named is that of another one, in front of it, that has the same name. -/
inductive Error.PointsInto (config : Config) (file : String) (source : List Char) : Error → Prop
  | unclosed {before inner : List Char} (inside : source = before ++ '<' :: '%' :: inner)
      (head : inner.head? ≠ some '%') (unclosed : Unclosed inner)
      (scanned : ∃ segments, Segment.scan file before = .ok segments) :
      PointsInto config file source (.malformed .missingEndMark (.behind file before ['<', '%']))
  | malformed {why : SyntaxFault} {before written text : List Char} (hwhy : why ≠ .missingEndMark)
      (stands : Segment.Stands file source before written text) :
      PointsInto config file source (.malformed why (.behind file before written))
  | unknown {statement : String} {before written text : List Char}
      (stands : Segment.Stands file source before written text) :
      PointsInto config file source (.unknownStatement statement (.behind file before written))
  | conflict {name : String} {before written text before' written' text' : List Char}
      (stands : Segment.Stands file source before written text)
      (block : Nesting.classify config (.behind file before written) text = .ok (.block name))
      (earlier : Segment.Stands file before before' written' text')
      (block' : Nesting.classify config (.behind file before' written') text' = .ok (.block name)) :
      PointsInto config file source
        (.blockConflict name (lineBehind before') (.behind file before written))

/-- **The error of a source that does not parse points into the source**, at a statement or at a
begin mark that is not closed. -/
theorem Document.pointsInto_of_parse {e : Error}
    (h : Document.parse config file source = .error e) : e.PointsInto config file source := by
  rcases Document.cites_of_parse h with h | ⟨segments, hsegments, earlier, text, line, span, later,
    rfl, hcites⟩
  · have hopen : ∀ segments, Segment.scan file source ≠ .ok segments := by
      intro segments hsegments
      rw [h] at hsegments
      cases hsegments
    obtain ⟨segments, inner, hsegments, hsource, hhead, hinner, hscan⟩ :=
      Segment.exists_unclosed_of_scan hopen
    obtain rfl := Except.error.inj (h.symm.trans hscan)
    have hplace : Place.behind file (Segment.writtenAll segments) ['<', '%'] = ⟨file,
        lineBehind (Segment.writtenAll segments), ⟨byteLength (Segment.writtenAll segments),
          byteLength (Segment.writtenAll segments) + 2⟩⟩ := by
      rw [Place.behind, byteLength_append]
      rfl
    rw [← hplace]
    exact .unclosed hsource hhead hinner ⟨_, Segment.scan_of_canonical file hsegments⟩
  · obtain ⟨before, written, hstands, hbefore, hplace⟩ := Segment.exists_stands_of_scan hsegments
    rw [← hplace] at hcites
    cases e with
    | malformed why place =>
      obtain ⟨rfl, hwhy⟩ := hcites
      exact .malformed hwhy hstands
    | unknownStatement statement place =>
      obtain rfl := hcites
      exact .unknown hstands
    | blockConflict name first place =>
      obtain ⟨rfl, hblock, text', span', hearlier, hblock'⟩ := hcites
      obtain ⟨front, back, rfl⟩ := List.append_of_mem hearlier
      obtain ⟨before', written', hstands', -, hplace'⟩ := Segment.exists_stands_of_scan hbefore
      change Nesting.classify config ⟨file, first, span'⟩ text' = .ok (.block name) at hblock'
      rw [← hplace'] at hblock'
      obtain rfl : lineBehind before' = first := congrArg Place.line hplace'
      exact .conflict hstands hblock hstands' hblock'
    | _ => exact hcites.elim

/-- Marks that are doubled, characters of several bytes and statements on several lines: a begin
mark that is not closed, a statement that nothing is, and a block whose name is taken. -/
theorem Document.pointsInto_of_parse_lines :
    (∃ e, Document.parse Config.default "t.html" "é\n<%%<%= \"%%>".toList = .error e ∧
      e.place? = some ⟨"t.html", 2, ⟨6, 8⟩⟩ ∧
      e.PointsInto Config.default "t.html" "é\n<%%<%= \"%%>".toList) ∧
    (∃ e, Document.parse Config.default "t.html" "é<%\nwhat\n\"%%>\"%>\n".toList = .error e ∧
      e.place? = some ⟨"t.html", 1, ⟨2, 17⟩⟩ ∧
      e.PointsInto Config.default "t.html" "é<%\nwhat\n\"%%>\"%>\n".toList) ∧
    ∃ e, Document.parse Config.default "t.html"
        "é<% block\na %>\n<% end %>\n<% block a\n%>".toList = .error e ∧
      e.place? = some ⟨"t.html", 4, ⟨26, 39⟩⟩ ∧
      e.PointsInto Config.default "t.html"
        "é<% block\na %>\n<% end %>\n<% block a\n%>".toList := by
  have hfails {source : List Char} {place : Place}
      (h : (match Document.parse Config.default "t.html" source with
        | .ok _ => none
        | .error e => e.place?) = some place) :
      ∃ e, Document.parse Config.default "t.html" source = .error e ∧ e.place? = some place ∧
        e.PointsInto Config.default "t.html" source := by
    cases hparse : Document.parse Config.default "t.html" source with
    | ok d =>
      rw [hparse] at h
      cases h
    | error e =>
      rw [hparse] at h
      exact ⟨e, rfl, h, Document.pointsInto_of_parse hparse⟩
  exact ⟨hfails (by decide +kernel), hfails (by decide +kernel), hfails (by decide +kernel)⟩

end Inlay
