import Inlay.Expr.Parser

/-!
# Expressions as they are written

An expression is written token by token, with single blanks between the tokens.  Each place in an
expression asks for a level, and what stands there is put in parentheses only if its own level is lower:
the operands of a binary operator ask for the level of the operator on the left and for the next one on
the right, which makes the operators of one level associate to the left.

* `Token.written`: a token as a text; `Token.Writable`: the tokens that are read back from it.
* `Operator.tightness`, `Expr.level`: how tightly operators bind, and how tightly expressions hold
  together; `Operator.tightness_eq` says that the reader has the operators on the same levels.
* `Expr.tokens`, `Expr.written`: an expression as tokens and as a text.
* `Expr.isWritable`: the expressions that have a text of their own.
-/

namespace Inlay

/-! ## Tokens -/

/-- The two marks that quoted texts stand between. -/
inductive QuoteMark where
  | double
  | single
  deriving DecidableEq, Repr

def QuoteMark.char : QuoteMark → Char
  | double => '"'
  | single => '\''

/-- A text as it stands between two quote marks: with a backslash in front of each backslash and of each
mark of this kind. -/
def QuoteMark.escape (mark : QuoteMark) (s : List Char) : List Char :=
  s.flatMap fun c => if c = '\\' ∨ c = mark.char then ['\\', c] else [c]

/-- A token as a text, with this mark around quoted texts.  Of the spellings of a sign it is the one that
messages use. -/
def Token.written (mark : QuoteMark) : Token → List Char
  | sign s => s.symbol.toList
  | name n => n.toList
  | int n => Decimal.writeInt n.toInt
  | float x => floatLayout.write x
  | str s => mark.char :: (mark.escape s.toList ++ [mark.char])

/-- The words that are no names. -/
def keywords : List String :=
  ["and", "or", "not", "in", "is", "if", "else", "as", "import", "true", "True", "false", "False", "none",
    "None"]

/-- The text is a name: letters, digits and underscores, with no digit in front, and no keyword. -/
def isName (n : String) : Bool :=
  match n.toList with
  | [] => false
  | c :: rest =>
    (c.isAlpha || c == '_') && rest.all (fun d => d.isAlphanum || d == '_') && !keywords.contains n

/-- The tokens that are read back from their texts.  What is written for a float need not be a token. -/
def Token.Writable : Token → Prop
  | sign _ | str _ => True
  | name n => isName n = true
  | int n => 0 ≤ n.toInt
  | float _ => False

/-! ## Levels -/

/-- How tightly a binary operator binds: comparisons are on level four, sums on level five and products
on level six. -/
def Operator.tightness : Operator → Nat
  | eq | ne | lt | le | gt | ge | isIn | notIn | is | isNot => 4
  | add | sub => 5
  | mul | div | floorDiv | mod => 6

/-- How tightly an expression holds together: conditionals are on level zero, `or`, `and` and `not` on the
next three, unary minus is on level seven, and names, literals, brackets, members, indices and calls are on
level eight. -/
def Expr.level : Expr → Nat
  | .cond .. => 0
  | .or .. => 1
  | .and .. => 2
  | .not _ => 3
  | .binary op _ _ => op.tightness
  | .neg _ => 7
  | _ => 8

/-- The reader has the operators on the levels that they are written on. -/
theorem Operator.tightness_eq (op : Operator) : op.tightness = op.level := by
  cases op <;> rfl

theorem Expr.level_binary (op : Operator) (a b : Expr) : (binary op a b).level = op.level :=
  op.tightness_eq

theorem Operator.level_cases (op : Operator) : 4 ≤ op.level ∧ op.level ≤ 6 := by
  cases op <;> decide

/-- The signs of a binary operator, which is written in one word or in two. -/
def Operator.signs : Operator → List Sign
  | add => [.plus]
  | sub => [.minus]
  | mul => [.star]
  | div => [.slash]
  | floorDiv => [.doubleSlash]
  | mod => [.percent]
  | eq => [.eq]
  | ne => [.ne]
  | lt => [.lt]
  | le => [.le]
  | gt => [.gt]
  | ge => [.ge]
  | isIn => [.isIn]
  | notIn => [.not, .isIn]
  | is => [.is]
  | isNot => [.is, .not]

/-! ## Expressions -/

/-- The token of a literal. Lists, maps and functions are no literals. -/
def Value.literalToken : Value → Token
  | .bool true => .sign .true_
  | .bool false => .sign .false_
  | .int n => .int n
  | .float x => .float x
  | .str s => .str s
  | _ => .sign .none_

/-- The value is nothing, a truth value, an integer without a sign or a text. -/
def Value.isPlainLiteral : Value → Bool
  | .nothing | .bool _ | .str _ => true
  | .int n => 0 ≤ n.toInt
  | _ => false

/-- The tokens of an expression in a place that asks for a level. -/
def Expr.enclosed (level : Nat) (e : Expr) (tokens : List Token) : List Token :=
  if level ≤ e.level then tokens else .sign .parenOpen :: (tokens ++ [.sign .parenClose])

mutual

/-- **The tokens of an expression.** -/
def Expr.tokens : Expr → List Token
  | .lit v => [v.literalToken]
  | .name n => [.name n]
  | .list items => .sign .bracketOpen :: (tokensAll items ++ [.sign .bracketClose])
  | .map entries => .sign .braceOpen :: (tokensEntries entries ++ [.sign .braceClose])
  | .member e n => e.enclosed 8 e.tokens ++ [.sign .dot, .name n]
  | .index e i =>
    e.enclosed 8 e.tokens ++ .sign .bracketOpen :: (i.tokens ++ [.sign .bracketClose])
  | .call f args =>
    f.enclosed 8 f.tokens ++ .sign .parenOpen :: (tokensAll args ++ [.sign .parenClose])
  | .neg e => .sign .minus :: e.enclosed 7 e.tokens
  | .not e => .sign .not :: e.enclosed 3 e.tokens
  | .binary op a b => a.enclosed op.tightness a.tokens ++
      (op.signs.map Token.sign ++ b.enclosed (op.tightness + 1) b.tokens)
  | .and a b => a.enclosed 2 a.tokens ++ .sign .and :: b.enclosed 3 b.tokens
  | .or a b => a.enclosed 1 a.tokens ++ .sign .or :: b.enclosed 2 b.tokens
  | .cond test a b => a.enclosed 1 a.tokens ++ .sign .ifTest ::
      (test.enclosed 1 test.tokens ++ .sign .elseBranch :: b.tokens)

/-- The tokens of expressions with commas between them. -/
def Expr.tokensAll : List Expr → List Token
  | [] => []
  | [e] => e.tokens
  | e :: rest => e.tokens ++ .sign .comma :: tokensAll rest

/-- The tokens of entries with commas between them. -/
def Expr.tokensEntries : List (Expr × Expr) → List Token
  | [] => []
  | [(k, e)] => k.tokens ++ .sign .colon :: e.tokens
  | (k, e) :: rest => k.tokens ++ .sign .colon :: (e.tokens ++ .sign .comma :: tokensEntries rest)

end

theorem Expr.tokens_binary (op : Operator) (a b : Expr) : (binary op a b).tokens =
    a.enclosed op.level a.tokens ++
      (op.signs.map Token.sign ++ b.enclosed (op.level + 1) b.tokens) := by
  rw [tokens, op.tightness_eq]

theorem Expr.tokensAll_cons_cons (e e' : Expr) (rest : List Expr) :
    Expr.tokensAll (e :: e' :: rest) = e.tokens ++ .sign .comma :: Expr.tokensAll (e' :: rest) := by
  rw [Expr.tokensAll]
  exact List.cons_ne_nil _ _

theorem Expr.tokensEntries_cons_cons (k e : Expr) (entry : Expr × Expr)
    (rest : List (Expr × Expr)) :
    Expr.tokensEntries ((k, e) :: entry :: rest) = (k.tokens ++ .sign .colon :: e.tokens) ++
      .sign .comma :: Expr.tokensEntries (entry :: rest) := by
  rw [Expr.tokensEntries, List.append_assoc, List.cons_append]
  exact List.cons_ne_nil _ _

/-- Texts of tokens with single blanks between them. -/
def Token.writtenAll (mark : QuoteMark) (tokens : List Token) : List Char :=
  [' '].intercalate (tokens.map (Token.written mark))

/-- **An expression as a text.** -/
def Expr.written (mark : QuoteMark) (e : Expr) : List Char :=
  Token.writtenAll mark e.tokens

mutual

/-- The literals in the expression are plain, and its names are names. -/
def Expr.isWritable : Expr → Bool
  | .lit v => v.isPlainLiteral
  | .name n => isName n
  | .list items => areWritable items
  | .map entries => areWritableEntries entries
  | .member e n => e.isWritable && isName n
  | .neg e | .not e => e.isWritable
  | .index a b | .binary _ a b | .and a b | .or a b => a.isWritable && b.isWritable
  | .call f args => f.isWritable && areWritable args
  | .cond test a b => test.isWritable && (a.isWritable && b.isWritable)

def Expr.areWritable : List Expr → Bool
  | [] => true
  | e :: rest => e.isWritable && areWritable rest

def Expr.areWritableEntries : List (Expr × Expr) → Bool
  | [] => true
  | (k, e) :: rest => k.isWritable && (e.isWritable && areWritableEntries rest)

end

/-! ## The tokens of a writable expression -/

theorem Value.writable_literalToken {v : Value} (h : v.isPlainLiteral = true) :
    v.literalToken.Writable := by
  cases v with
  | bool b => cases b <;> trivial
  | int n =>
    have hn : 0 ≤ n.toInt := of_decide_eq_true h
    exact hn
  | nothing | str => trivial
  | float | list | map | function => exact absurd h Bool.false_ne_true

/-- All of these tokens are read back from their texts. -/
def Token.AllWritable (tokens : List Token) : Prop :=
  ∀ t ∈ tokens, t.Writable

namespace Token

@[simp] theorem allWritable_nil : AllWritable [] :=
  fun _ h => absurd h List.not_mem_nil

@[simp] theorem allWritable_cons {t : Token} {tokens : List Token} :
    AllWritable (t :: tokens) ↔ t.Writable ∧ AllWritable tokens :=
  List.forall_mem_cons

@[simp] theorem allWritable_append {tokens tokens' : List Token} :
    AllWritable (tokens ++ tokens') ↔ AllWritable tokens ∧ AllWritable tokens' :=
  List.forall_mem_append

@[simp] theorem writable_sign (s : Sign) : (sign s).Writable :=
  trivial

@[simp] theorem writable_name {n : String} : (name n).Writable ↔ isName n = true :=
  Iff.rfl

theorem allWritable_signs (signs : List Sign) : AllWritable (signs.map sign) := by
  intro t ht
  obtain ⟨s, -, rfl⟩ := List.mem_map.mp ht
  exact writable_sign s

end Token

theorem Expr.allWritable_enclosed {e : Expr} {tokens : List Token}
    (h : Token.AllWritable tokens) (level : Nat) :
    Token.AllWritable (e.enclosed level tokens) := by
  rw [enclosed]
  split
  · exact h
  · simpa using h

mutual

/-- **All tokens of a writable expression are read back from their texts.** -/
theorem Expr.allWritable_tokens : ∀ e : Expr, e.isWritable = true → Token.AllWritable e.tokens
  | .lit v => fun h => by
    rw [Expr.isWritable] at h
    rw [Expr.tokens]
    simpa using Value.writable_literalToken h
  | .name n => fun h => by
    rw [Expr.isWritable] at h
    rw [Expr.tokens]
    simpa using h
  | .list items => fun h => by
    rw [Expr.isWritable] at h
    simpa [Expr.tokens] using Expr.allWritable_tokensAll items h
  | .map entries => fun h => by
    rw [Expr.isWritable] at h
    simpa [Expr.tokens] using Expr.allWritable_tokensEntries entries h
  | .member e n => fun h => by
    rw [Expr.isWritable, Bool.and_eq_true] at h
    rw [Expr.tokens]
    simpa using ⟨Expr.allWritable_enclosed (Expr.allWritable_tokens e h.1) 8, h.2⟩
  | .index a b => fun h => by
    rw [Expr.isWritable, Bool.and_eq_true] at h
    rw [Expr.tokens]
    simpa using ⟨Expr.allWritable_enclosed (Expr.allWritable_tokens a h.1) 8,
      Expr.allWritable_tokens b h.2⟩
  | .call f args => fun h => by
    rw [Expr.isWritable, Bool.and_eq_true] at h
    rw [Expr.tokens]
    simpa using ⟨Expr.allWritable_enclosed (Expr.allWritable_tokens f h.1) 8,
      Expr.allWritable_tokensAll args h.2⟩
  | .neg e => fun h => by
    rw [Expr.isWritable] at h
    rw [Expr.tokens]
    simpa using Expr.allWritable_enclosed (Expr.allWritable_tokens e h) 7
  | .not e => fun h => by
    rw [Expr.isWritable] at h
    rw [Expr.tokens]
    simpa using Expr.allWritable_enclosed (Expr.allWritable_tokens e h) 3
  | .binary op a b => fun h => by
    rw [Expr.isWritable, Bool.and_eq_true] at h
    rw [Expr.tokens]
    simpa using ⟨Expr.allWritable_enclosed (Expr.allWritable_tokens a h.1) op.tightness,
      Token.allWritable_signs op.signs,
      Expr.allWritable_enclosed (Expr.allWritable_tokens b h.2) (op.tightness + 1)⟩
  | .and a b => fun h => by
    rw [Expr.isWritable, Bool.and_eq_true] at h
    rw [Expr.tokens]
    simpa using ⟨Expr.allWritable_enclosed (Expr.allWritable_tokens a h.1) 2,
      Expr.allWritable_enclosed (Expr.allWritable_tokens b h.2) 3⟩
  | .or a b => fun h => by
    rw [Expr.isWritable, Bool.and_eq_true] at h
    rw [Expr.tokens]
    simpa using ⟨Expr.allWritable_enclosed (Expr.allWritable_tokens a h.1) 1,
      Expr.allWritable_enclosed (Expr.allWritable_tokens b h.2) 2⟩
  | .cond test a b => fun h => by
    rw [Expr.isWritable, Bool.and_eq_true, Bool.and_eq_true] at h
    rw [Expr.tokens]
    simpa using ⟨Expr.allWritable_enclosed (Expr.allWritable_tokens a h.2.1) 1,
      Expr.allWritable_enclosed (Expr.allWritable_tokens test h.1) 1,
      Expr.allWritable_tokens b h.2.2⟩

theorem Expr.allWritable_tokensAll : ∀ es : List Expr, Expr.areWritable es = true →
    Token.AllWritable (Expr.tokensAll es)
  | [] => fun _ => by simp [Expr.tokensAll]
  | [e] => fun h => by
    rw [Expr.areWritable, Bool.and_eq_true] at h
    rw [Expr.tokensAll]
    exact Expr.allWritable_tokens e h.1
  | e :: e' :: rest => fun h => by
    rw [Expr.areWritable, Bool.and_eq_true] at h
    simpa [Expr.tokensAll] using
      ⟨Expr.allWritable_tokens e h.1, Expr.allWritable_tokensAll (e' :: rest) h.2⟩

theorem Expr.allWritable_tokensEntries : ∀ entries : List (Expr × Expr),
    Expr.areWritableEntries entries = true → Token.AllWritable (Expr.tokensEntries entries)
  | [] => fun _ => by simp [Expr.tokensEntries]
  | [(k, e)] => fun h => by
    rw [Expr.areWritableEntries, Bool.and_eq_true, Bool.and_eq_true] at h
    simpa [Expr.tokensEntries] using
      ⟨Expr.allWritable_tokens k h.1, Expr.allWritable_tokens e h.2.1⟩
  | (k, e) :: entry :: rest => fun h => by
    rw [Expr.areWritableEntries, Bool.and_eq_true, Bool.and_eq_true] at h
    simpa [Expr.tokensEntries] using ⟨Expr.allWritable_tokens k h.1,
      Expr.allWritable_tokens e h.2.1, Expr.allWritable_tokensEntries (entry :: rest) h.2.2⟩

end

end Inlay
