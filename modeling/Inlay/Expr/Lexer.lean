import Inlay.Word
import Inlay.Expr.Token
import Inlay.Decimal.Read

/-!
# Reading tokens

A text is cut into lexemes from the left, each as long as possible: runs of blanks, which are
dropped, and tokens. A blank run may hold line continuations, a backslash in front of a line end;
inside a run any other backslash ends the run and is dropped with it.

* `Lexeme.first`: the lexeme at the front of a text and its length.
* `Token.lex`: the tokens of a text with their spans, or the first part of it that no token has.
-/

namespace Inlay

/-- What stands at the front of a text. -/
inductive Lexeme where
  | blank
  | token (t : Token)
  /-- No token has this text. -/
  | bad

/-- A part of a text that is no token. -/
structure LexFault where
  text : String
  span : Span

namespace Lexeme

def isSpace (c : Char) : Bool :=
  c == ' ' || c == '\t' || c == '\r' || c == '\n' || c == '\x0c'

def isNameStart (c : Char) : Bool :=
  c.isAlpha || c == '_'

def isNamePart (c : Char) : Bool :=
  c.isAlphanum || c == '_'

/-- How much of a text continues a run of blanks. A carriage return that a backslash does not join
to a line end begins a run of its own. -/
def blankLength : List Char → Nat
  | [] => 0
  | '\\' :: '\n' :: rest => blankLength rest + 2
  | '\\' :: '\r' :: '\n' :: rest => blankLength rest + 3
  | '\\' :: _ => 1
  | c :: rest => if isSpace c then blankLength rest + 1 else 0

/-- How much of a text, behind an opening quote, belongs to the quoted text, its closing quote
included; if it has no end, how much of it is reported. -/
def quotedLength (quote : Char) : List Char → Bool × Nat
  | [] => (false, 0)
  | ['\\'] => (false, 0)
  | '\\' :: c :: rest =>
    if c == '\n' then (false, 0)
    else let (closed, n) := quotedLength quote rest; (closed, n + 2)
  | c :: rest =>
    if c == quote then (true, 1)
    else let (closed, n) := quotedLength quote rest; (closed, n + 1)

/-- A quoted text with its escapes resolved; an unknown escape stands for itself. -/
def unescape : List Char → List Char
  | '\\' :: c :: rest =>
    if c == 'n' then '\n' :: unescape rest
    else if c == 't' then '\t' :: unescape rest
    else if c == 'r' then '\r' :: unescape rest
    else if c == '0' then '\x00' :: unescape rest
    else if c == '\\' || c == '"' || c == '\'' then c :: unescape rest
    else '\\' :: c :: unescape rest
  | c :: rest => c :: unescape rest
  | [] => []

/-- How much of a text, behind the whole part of a number, is its fraction, and how much of that is
the exponent. A point without a digit behind it is no fraction. -/
def fractionLength : List Char → Nat
  | '.' :: rest =>
    let digits := (rest.takeWhile Char.isDigit).length
    if digits = 0 then 0 else digits + 1 + exponentLength (rest.drop digits)
  | _ => 0
where
  /-- How much of a text is an exponent. -/
  exponentLength : List Char → Nat
    | [] => 0
    | c :: rest =>
      if c == 'e' || c == 'E' then
        let sign := match rest with
          | '+' :: _ | '-' :: _ => 1
          | _ => 0
        let digits := ((rest.drop sign).takeWhile Char.isDigit).length
        if digits = 0 then 0 else 1 + sign + digits
      else 0

/-- The number with a text. -/
def ofNumber (whole : List Char) (isWhole : Bool) (s : List Char) : Lexeme :=
  if isWhole then
    match word? (Decimal.digitsValue whole) with
    | some n => .token (.int n)
    | none => .bad
  else
    match Decimal.readFloat? s with
    | some x => .token (.float x)
    | none => .bad

/-- The operator or bracket at the front of a text, and how much of the text behind its first
character it takes. -/
def ofMark (c : Char) (next : Option Char) : Lexeme × Nat :=
  let one (s : Sign) : Lexeme × Nat := (.token (.sign s), 0)
  let two (s : Sign) : Lexeme × Nat := (.token (.sign s), 1)
  match c with
  | '=' => if next == some '=' then two .eq else one .assign
  | '!' => if next == some '=' then two .ne else (.bad, 0)
  | '<' => if next == some '=' then two .le else one .lt
  | '>' => if next == some '=' then two .ge else one .gt
  | '/' => if next == some '/' then two .doubleSlash else one .slash
  | '+' => one .plus
  | '-' => one .minus
  | '*' => one .star
  | '%' => one .percent
  | '(' => one .parenOpen
  | ')' => one .parenClose
  | '[' => one .bracketOpen
  | ']' => one .bracketClose
  | '{' => one .braceOpen
  | '}' => one .braceClose
  | ',' => one .comma
  | ':' => one .colon
  | '.' => one .dot
  | _ => (.bad, 0)

/-- Does a blank run begin here? -/
def startsBlank (c : Char) (rest : List Char) : Bool :=
  isSpace c || (c == '\\' && (['\n'].isPrefixOf rest || ['\r', '\n'].isPrefixOf rest))

/-- The lexeme at the front of the text `c :: rest`, and how much of `rest` belongs to it. -/
def first (c : Char) (rest : List Char) : Lexeme × Nat :=
  if startsBlank c rest then (.blank, blankLength (c :: rest) - 1)
  else if isNameStart c then
    let tail := rest.takeWhile isNamePart
    let word := String.ofList (c :: tail)
    (.token ((Sign.ofWord? word).elim (.name word) .sign), tail.length)
  else if c.isDigit then
    let tail := rest.takeWhile Char.isDigit
    let fraction := fractionLength (rest.drop tail.length)
    let n := tail.length + fraction
    (ofNumber (c :: tail) (fraction == 0) (c :: rest.take n), n)
  else if c == '"' || c == '\'' then
    let (closed, n) := quotedLength c rest
    if closed then (.token (.str (String.ofList (unescape (rest.take (n - 1))))), n) else (.bad, n)
  else ofMark c rest.head?

end Lexeme

namespace Token

/-- The tokens of a text that begins at a byte offset. -/
def lexFrom (offset : Nat) : List Char → Except LexFault (List (Token × Span))
  | [] => .ok []
  | c :: rest =>
    let (lexeme, n) := Lexeme.first c rest
    let stop := offset + byteLength (c :: rest.take n)
    match lexeme with
    | .blank => lexFrom stop (rest.drop n)
    | .token t => (lexFrom stop (rest.drop n)).map fun tokens => (t, ⟨offset, stop⟩) :: tokens
    | .bad => .error ⟨String.ofList (c :: rest.take n), ⟨offset, stop⟩⟩
termination_by s => s.length
decreasing_by all_goals simp only [List.length_drop, List.length_cons]; omega

/-- The tokens of a text with their spans. -/
def lex (s : List Char) : Except LexFault (List (Token × Span)) :=
  lexFrom 0 s

end Token

end Inlay
