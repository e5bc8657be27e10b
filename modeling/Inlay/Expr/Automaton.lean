import Inlay.Expr.Lexer

/-!
# Reading token by token

A reader that takes one token after the other, remembers what it needs in a state, and refuses a
token that no text in its language has at this place. Nothing is read twice, so where a reader
stops does not depend on the tokens behind.

* `Automaton`: the readers.
* `Automaton.run`: the states along a list of tokens.
* `Automaton.read`: a text read whole, or the fault in it.
-/

namespace Inlay

/-- Why a text is not in the language of a reader. -/
inductive ReadFault where
  /-- A part of the text is no token. -/
  | badText (text : String)
  | unexpected (t : Token)
  | unexpectedEnd

/-- What a message says of the fault. -/
def ReadFault.message : ReadFault → String
  | badText text => s!"unexpected {text.quoted}"
  | unexpected t => s!"unexpected {t.describe}"
  | unexpectedEnd => "unexpected end of expression"

/-- A deterministic reader of tokens that yields an `α`. -/
structure Automaton (σ α : Type) where
  start : σ
  /-- The state behind a token; none if the token cannot stand here. -/
  step : σ → Token → Option σ
  /-- What has been read, if the text may end here. -/
  finish : σ → Option α

namespace Automaton

variable {σ α β : Type}

/-- The states along a list of tokens: the last one, or the first token refused. -/
def run (m : Automaton σ α) : σ → List (Token × Span) → Except (Token × Span) σ
  | s, [] => .ok s
  | s, (t, span) :: rest =>
    match m.step s t with
    | some next => m.run next rest
    | none => .error (t, span)

/-- Where a text that ends at `stop` is cut short: behind it, and back to the end of its last
token. -/
def endSpan (stop : Nat) (tokens : List (Token × Span)) : Span :=
  ⟨stop, (tokens.getLast?.map fun (_, span) => span.stop).getD stop⟩

/-- A list of tokens read whole; `stop` is where the text ends. -/
def readTokens (m : Automaton σ α) (stop : Nat) (tokens : List (Token × Span)) :
    Except (ReadFault × Span) α :=
  match m.run m.start tokens with
  | .error (t, span) => .error (.unexpected t, span)
  | .ok s =>
    match m.finish s with
    | some a => .ok a
    | none => .error (.unexpectedEnd, endSpan stop tokens)

/-- A text read whole. -/
def read (m : Automaton σ α) (s : List Char) : Except (ReadFault × Span) α :=
  match Token.lex s with
  | .error fault => .error (.badText fault.text, fault.span)
  | .ok tokens => m.readTokens (byteLength s) tokens

/-- The reader with another result. -/
def map (f : α → β) (m : Automaton σ α) : Automaton σ β where
  start := m.start
  step := m.step
  finish s := (m.finish s).map f

end Automaton

end Inlay
