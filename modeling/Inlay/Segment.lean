import Inlay.Error

/-!
# Segments

The source of a template is plain text with statements between the marks `<%` and `%>`. A doubled
mark stands for the mark itself: `<%%` in plain text for `<%`, and `%%>` in a statement for `%>`.

* `Segment`: a run of plain text or a statement, with where it stands.
* `Segment.scan`: the segments of a source. A begin mark without an end mark is an error at the
  begin mark.
-/

namespace Inlay

/-- A part of a source. Doubled marks are already resolved. -/
inductive Segment where
  | plain (text : List Char)
  /-- A statement with the line of its begin mark, counted from one, and the span of both marks and
  all between them. -/
  | statement (text : List Char) (line : Nat) (span : Span)
  deriving DecidableEq, Repr

namespace Segment

/-- The segments with a run of plain text in front of them, unless it is empty; the run has its
last character first. -/
def withPlain (run : List Char) (segments : List Segment) : List Segment :=
  if run.isEmpty then segments else plain run.reverse :: segments

/-- The line behind a character. -/
def lineAfter (line : Nat) (c : Char) : Nat :=
  if c == '\n' then line + 1 else line

mutual

/-- The segments of the rest of a source, `offset` and `line` saying where it begins, and `run`
being the plain text in front of it. -/
def scanPlain (line offset : Nat) (run : List Char) : List Char →
    Except (Nat × Span) (List Segment)
  | [] => .ok (withPlain run [])
  | '<' :: '%' :: '%' :: rest => scanPlain line (offset + 3) ('%' :: '<' :: run) rest
  | '<' :: '%' :: rest =>
    (scanStatement line offset line (offset + 2) [] rest).map (withPlain run)
  | c :: rest => scanPlain (lineAfter line c) (offset + c.utf8Size) (c :: run) rest

/-- The segments of the rest of a source that begins inside the statement whose begin mark stands
at `start` on line `first`. -/
def scanStatement (first start line offset : Nat) (run : List Char) : List Char →
    Except (Nat × Span) (List Segment)
  | [] => .error (first, ⟨start, start + 2⟩)
  | '%' :: '%' :: '>' :: rest =>
    scanStatement first start line (offset + 3) ('>' :: '%' :: run) rest
  | '%' :: '>' :: rest =>
    (scanPlain line (offset + 2) [] rest).map fun segments =>
      statement run.reverse first ⟨start, offset + 2⟩ :: segments
  | c :: rest =>
    scanStatement first start (lineAfter line c) (offset + c.utf8Size) (c :: run) rest

end

/-- The segments of a source. -/
def scan (file : String) (source : List Char) : Except Error (List Segment) :=
  match scanPlain 1 0 [] source with
  | .ok segments => .ok segments
  | .error (line, span) => .error (.malformed .missingEndMark ⟨file, line, span⟩)

end Segment

end Inlay
