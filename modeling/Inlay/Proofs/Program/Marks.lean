import Inlay.Proofs.Program.Outline

/-!
# Properties of the statements of a program

A property of statements holds in a program if it holds of every statement that begins in its
outline.  Said in this way it does not matter how deep a statement is nested, nor whether it is read
off the steps or off the tree.

* `Marked`: the property holds of all statements of an outline.
* `StatementKind.exprs`, `Expr.mentions`: the expressions of a statement, and the names in an
  expression.
-/

namespace Inlay

/-- A property holds of all statements that begin in an outline. -/
def Marked (P : StatementKind → Prop) (ms : List Mark) : Prop :=
  ∀ kind, .start kind ∈ ms → P kind

section

variable {P : StatementKind → Prop}

@[simp] theorem marked_nil : Marked P [] :=
  fun _ h => absurd h List.not_mem_nil

@[simp] theorem marked_append {ms ms' : List Mark} :
    Marked P (ms ++ ms') ↔ Marked P ms ∧ Marked P ms' := by
  constructor
  · intro h
    exact ⟨fun kind hkind => h kind (List.mem_append_left _ hkind),
      fun kind hkind => h kind (List.mem_append_right _ hkind)⟩
  · rintro ⟨h, h'⟩ kind hkind
    exact (List.mem_append.mp hkind).elim (h kind) (h' kind)

@[simp] theorem marked_nest {kind : StatementKind} {inner : List Mark} :
    Marked P (nest kind inner) ↔ P kind ∧ Marked P inner := by
  constructor
  · intro h
    refine ⟨h kind (List.mem_cons_self ..), fun kind' hkind' => h kind' ?_⟩
    exact List.mem_cons_of_mem _ (List.mem_append_left _ hkind')
  · rintro ⟨hkind, h⟩ kind' hkind'
    rcases List.mem_cons.mp hkind' with heq | hkind'
    · obtain rfl := Mark.start.inj heq
      exact hkind
    · rcases List.mem_append.mp hkind' with hkind' | hkind'
      · exact h kind' hkind'
      · exact absurd (List.mem_singleton.mp hkind') Mark.noConfusion

theorem marked_iff {ms : List Mark} :
    Marked P ms ↔ ∀ m ∈ ms, match m with
      | .start kind => P kind
      | .stop | .branchless => True := by
  constructor
  · intro h m hm
    cases m with
    | start kind => exact h kind hm
    | stop | branchless => exact trivial
  · exact fun h kind hkind => h _ hkind

instance [DecidablePred P] (ms : List Mark) : Decidable (Marked P ms) :=
  have (m : Mark) : Decidable (match m with
      | .start kind => P kind
      | .stop | .branchless => True) :=
    match m with
    | .start kind => inferInstanceAs (Decidable (P kind))
    | .stop | .branchless => .isTrue trivial
  decidable_of_iff _ marked_iff.symm

end

/-! ## Expressions and names -/

/-- The expressions of a statement. -/
def StatementKind.exprs : StatementKind → List Expr
  | .output _ e | .inclusion e | .inheritance e | .assignment _ e => [e]
  | .opening (.ifTest test) | .opening (.whileTest test) => [test]
  | .opening (.forEach head _) => [head.iter]
  | .opening (.withBinding head _) => [head.expr]
  | .clause (.elifTest test) => [test]
  | .inline (.raise (some head)) => head.message.toList
  | .inline (.assertion head) => head.test :: head.message.toList
  | _ => []

/-- A name in an expression: for its value, or as what is called. -/
inductive Mention where
  | value (name : String)
  | callee (name : String)
  deriving DecidableEq

mutual

/-- The names in an expression. -/
def Expr.mentions : Expr → List Mention
  | .lit _ => []
  | .name n => [.value n]
  | .list items => mentionsAll items
  | .map entries => mentionsEntries entries
  | .member e _ | .neg e | .not e => e.mentions
  | .call (.name n) args => .callee n :: mentionsAll args
  | .call f args => f.mentions ++ mentionsAll args
  | .index a b | .binary _ a b | .and a b | .or a b => a.mentions ++ b.mentions
  | .cond test a b => test.mentions ++ (a.mentions ++ b.mentions)

/-- The names in expressions. -/
def Expr.mentionsAll : List Expr → List Mention
  | [] => []
  | e :: rest => e.mentions ++ mentionsAll rest

/-- The names in the entries of a map. -/
def Expr.mentionsEntries : List (Expr × Expr) → List Mention
  | [] => []
  | (k, e) :: rest => k.mentions ++ (e.mentions ++ mentionsEntries rest)

end

/-- The names in what is called. -/
def Expr.calleeMentions : Expr → List Mention
  | .name n => [.callee n]
  | f => f.mentions

theorem Expr.mentions_call (f : Expr) (args : List Expr) :
    (call f args).mentions = f.calleeMentions ++ mentionsAll args := by
  cases f <;> rfl

end Inlay
