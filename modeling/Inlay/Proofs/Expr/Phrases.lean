import Inlay.Proofs.Expr.Recognition
import Inlay.Proofs.Expr.RoundTrip

/-!
# Phrases of expressions

The grammar of expressions, said without their reader.  A phrase of a level is what may stand in a
place that asks for this level: the operands of an operator of level `k` are a phrase of level `k`
on the left and one of level `k + 1` on the right, and whatever holds together more tightly may
stand there too.  Items and entries have commas between them, and perhaps one behind the last.

The reader gets through each phrase, whatever waits in front of it and asks for no more than its
level.  What it then holds is not yet what the phrase stands for, since the operators at its right
end still wait.  But completing them down to the level of the phrase gives one operand, and this is
all that the reader does before it looks at the next sign.

* `Phrase`: the grammar, and `Expr.language`, the expressions in it.
* `Phrase.Passes`: the reader gets through, with one lemma for each rule and `Phrase.passes` for
  all.
* `Phrase.mem_completions`: an expression is read to its end.
-/

namespace Inlay

/-- What a phrase is: an operand, which nothing can come apart from, or something that holds
together at least as tightly as a level asks for, or items or entries with commas between them. -/
inductive PhraseKind where
  | operand
  | expr (level : Nat)
  | items
  | entries

/-- **The grammar of expressions.**  Literals, names, brackets, members, indices and calls are
operands, unary minus is on level seven, the products, sums and comparisons are on levels six to
four, `not`, `and` and `or` on the next three, and conditionals on level zero. -/
inductive Phrase : PhraseKind → List Token → Prop
  | int (n : Int64) : Phrase .operand [.int n]
  | float (x : Float) : Phrase .operand [.float x]
  | str (s : String) : Phrase .operand [.str s]
  | constant {s : Sign} (h : s ∈ [.true_, .false_, .none_]) : Phrase .operand [.sign s]
  | name (n : String) : Phrase .operand [.name n]
  | paren {e : List Token} (he : Phrase (.expr 0) e) :
      Phrase .operand (.sign .parenOpen :: (e ++ [.sign .parenClose]))
  | list {es : List Token} (hes : Phrase .items es) :
      Phrase .operand (.sign .bracketOpen :: (es ++ [.sign .bracketClose]))
  | map {es : List Token} (hes : Phrase .entries es) :
      Phrase .operand (.sign .braceOpen :: (es ++ [.sign .braceClose]))
  | member {e : List Token} (he : Phrase .operand e) (n : String) :
      Phrase .operand (e ++ [.sign .dot, .name n])
  | index {e i : List Token} (he : Phrase .operand e) (hi : Phrase (.expr 0) i) :
      Phrase .operand (e ++ .sign .bracketOpen :: (i ++ [.sign .bracketClose]))
  | call {f es : List Token} (hf : Phrase .operand f) (hes : Phrase .items es) :
      Phrase .operand (f ++ .sign .parenOpen :: (es ++ [.sign .parenClose]))
  | ofOperand {e : List Token} (he : Phrase .operand e) : Phrase (.expr 7) e
  | neg {e : List Token} (he : Phrase (.expr 7) e) : Phrase (.expr 7) (.sign .minus :: e)
  | product {op : Operator} (h : op ∈ [.mul, .div, .floorDiv, .mod]) {a b : List Token}
      (ha : Phrase (.expr 6) a) (hb : Phrase (.expr 7) b) :
      Phrase (.expr 6) (a ++ (op.signs.map Token.sign ++ b))
  | sum {op : Operator} (h : op ∈ [.add, .sub]) {a b : List Token} (ha : Phrase (.expr 5) a)
      (hb : Phrase (.expr 6) b) : Phrase (.expr 5) (a ++ (op.signs.map Token.sign ++ b))
  | comparison {op : Operator} (h : op ∈ [.eq, .ne, .lt, .le, .gt, .ge, .isIn, .notIn, .is, .isNot])
      {a b : List Token} (ha : Phrase (.expr 4) a) (hb : Phrase (.expr 5) b) :
      Phrase (.expr 4) (a ++ (op.signs.map Token.sign ++ b))
  | not {e : List Token} (he : Phrase (.expr 3) e) : Phrase (.expr 3) (.sign .not :: e)
  | and {a b : List Token} (ha : Phrase (.expr 2) a) (hb : Phrase (.expr 3) b) :
      Phrase (.expr 2) (a ++ .sign .and :: b)
  | or {a b : List Token} (ha : Phrase (.expr 1) a) (hb : Phrase (.expr 2) b) :
      Phrase (.expr 1) (a ++ .sign .or :: b)
  | cond {a test b : List Token} (ha : Phrase (.expr 1) a) (ht : Phrase (.expr 1) test)
      (hb : Phrase (.expr 0) b) :
      Phrase (.expr 0) (a ++ .sign .ifTest :: (test ++ .sign .elseBranch :: b))
  | looser {level : Nat} {e : List Token} (he : Phrase (.expr (level + 1)) e) :
    Phrase (.expr level) e
  | noItem : Phrase .items []
  | lastItem {e : List Token} (he : Phrase (.expr 0) e) : Phrase .items e
  | item {e es : List Token} (he : Phrase (.expr 0) e) (hes : Phrase .items es) :
      Phrase .items (e ++ .sign .comma :: es)
  | noEntry : Phrase .entries []
  | lastEntry {k e : List Token} (hk : Phrase (.expr 0) k) (he : Phrase (.expr 0) e) :
      Phrase .entries (k ++ .sign .colon :: e)
  | entry {k e es : List Token} (hk : Phrase (.expr 0) k) (he : Phrase (.expr 0) e)
      (hes : Phrase .entries es) : Phrase .entries (k ++ .sign .colon :: (e ++ .sign .comma :: es))

/-- A binary operator between operands of its level and of the next one. -/
theorem Phrase.binary (op : Operator) {a b : List Token} (ha : Phrase (.expr op.level) a)
    (hb : Phrase (.expr (op.level + 1)) b) :
    Phrase (.expr op.level) (a ++ (op.signs.map Token.sign ++ b)) := by
  cases op with
  | mul | div | floorDiv | mod => exact .product (by decide) ha hb
  | add | sub => exact .sum (by decide) ha hb
  | eq | ne | lt | le | gt | ge | isIn | notIn | is | isNot => exact .comparison (by decide) ha hb

/-- The expressions, as tokens. -/
def Expr.language : Language Token :=
  {tokens | Phrase (.expr 0) tokens}

namespace Phrase

open ExprState

/-! ## What the reader holds behind a phrase -/

/-- The reader gets through the tokens, to something that comes to one operand when the operators
are completed down to the level. -/
def Holds (around : List Pending) (level : Nat) (tokens : List Token) : Prop :=
  ∃ held e, (operand around).steps tokens = some (behind held) ∧
    ∀ k ≤ level, reduceHeld k held = reduce k e around

/-- **The reader gets through a phrase**: through an operand in any place, through an expression in
every place that asks for no more than its level, and through items and entries along with what
closes them. -/
def Passes : PhraseKind → List Token → Prop
  | .operand, tokens => ∀ around, ∃ e, (operand around).steps tokens = some (operator e around)
  | .expr level, tokens => ∀ around, floor around ≤ level → Holds around level tokens
  | .items, tokens => ∀ {place stop done}, ItemPlace place stop done → ∀ before around,
      ∃ e, (operand (place before :: around)).steps (tokens ++ [.sign stop]) =
        some (operator e around)
  | .entries, tokens => ∀ before around,
      ∃ e, (operand (.key before :: around)).steps (tokens ++ [.sign .braceClose]) =
        some (operator e around)

variable {around : List Pending} {level : Nat} {a b e f i k test es : List Token}

/-- An operator of a level from one to six finds the operand in front of it completed. -/
theorem Holds.left (h : Holds around level a) (hfloor : floor around ≤ level)
    (hlevel : level ∈ [1, 2, 4, 5, 6]) : ∃ held x, (operand around).steps a = some (behind held) ∧
      reduceHeld level held = (x, around) := by
  obtain ⟨held, x, hsteps, hheld⟩ := h
  exact ⟨held, x, hsteps, (hheld level (Nat.le_refl _)).trans (reduce_of_floor_le hfloor hlevel x)⟩

namespace Passes

/-- In a place between brackets everything up to the bracket is completed. -/
theorem inside (he : Passes (.expr 0) e) (pending : Pending) (around : List Pending)
    (hfloor : floor (pending :: around) = 0)
    (hreduce : ∀ x, reduce 0 x (pending :: around) = (x, pending :: around)) :
    ∃ held x, (operand (pending :: around)).steps e = some (behind held) ∧
      reduceHeld 0 held = (x, pending :: around) := by
  obtain ⟨held, x, hsteps, hheld⟩ := he _ (Nat.le_of_eq hfloor)
  exact ⟨held, x, hsteps, (hheld 0 (Nat.le_refl _)).trans (hreduce x)⟩

/-! ## Operands -/

theorem constant {s : Sign} (h : s ∈ [.true_, .false_, .none_]) : Passes .operand [.sign s] := by
  simp only [List.mem_cons, List.not_mem_nil, or_false] at h
  rcases h with rfl | rfl | rfl <;> exact fun _ => ⟨_, rfl⟩

theorem paren (he : Passes (.expr 0) e) :
    Passes .operand (.sign .parenOpen :: (e ++ [.sign .parenClose])) := by
  intro around
  obtain ⟨held, x, hsteps, hheld⟩ := he.inside .paren around rfl fun _ => rfl
  have hopen : (operand around).step (.sign .parenOpen) = some (operand (.paren :: around)) := rfl
  have hclose := step_parenClose hheld
  refine ⟨x, ?_⟩
  simp only [steps_cons, steps_append, steps_nil, hopen, hsteps, hclose, Option.bind_eq_bind,
    Option.bind_some]

theorem list (hes : Passes .items es) :
    Passes .operand (.sign .bracketOpen :: (es ++ [.sign .bracketClose])) :=
  fun around => hes .list [] around

theorem map (hes : Passes .entries es) :
    Passes .operand (.sign .braceOpen :: (es ++ [.sign .braceClose])) :=
  fun around => hes [] around

theorem member (he : Passes .operand e) (n : String) :
    Passes .operand (e ++ [.sign .dot, .name n]) := by
  intro around
  obtain ⟨x, hx⟩ := he around
  refine ⟨.member x n, ?_⟩
  rw [steps_append, hx]
  rfl

theorem index (he : Passes .operand e) (hi : Passes (.expr 0) i) :
    Passes .operand (e ++ .sign .bracketOpen :: (i ++ [.sign .bracketClose])) := by
  intro around
  obtain ⟨x, hx⟩ := he around
  obtain ⟨held, y, hsteps, hheld⟩ := hi.inside (.index x) around rfl fun _ => rfl
  have hopen :
      (operator x around).step (.sign .bracketOpen) = some (operand (.index x :: around)) := rfl
  have hclose := step_bracketClose hheld
  refine ⟨.index x y, ?_⟩
  simp only [steps_cons, steps_append, steps_nil, hx, hopen, hsteps, hclose, Option.bind_eq_bind,
    Option.bind_some]

theorem call (hf : Passes .operand f) (hes : Passes .items es) :
    Passes .operand (f ++ .sign .parenOpen :: (es ++ [.sign .parenClose])) := by
  intro around
  obtain ⟨x, hx⟩ := hf around
  obtain ⟨y, hy⟩ := hes (.args x) [] around
  refine ⟨y, ?_⟩
  rw [steps_append, hx]
  exact hy

/-! ## Expressions -/

theorem ofOperand (he : Passes .operand e) : Passes (.expr 7) e := by
  intro around _
  obtain ⟨x, hx⟩ := he around
  exact ⟨(x, around), x, hx, fun _ _ => rfl⟩

theorem neg (he : Passes (.expr 7) e) : Passes (.expr 7) (.sign .minus :: e) := by
  intro around _
  obtain ⟨held, x, hsteps, hheld⟩ := he (.neg :: around) (Nat.le_refl 7)
  exact ⟨held, .neg x, hsteps, hheld⟩

theorem not (he : Passes (.expr 3) e) : Passes (.expr 3) (.sign .not :: e) := by
  intro around (hfloor : floor around ≤ 3)
  obtain ⟨held, x, hsteps, hheld⟩ := he (.not :: around) (Nat.le_refl 3)
  have hopen : (operand around).step (.sign .not) = some (operand (.not :: around)) := by
    rw [step, stepOperand, if_pos (allowsNot_of_floor_le hfloor)]
  refine ⟨held, .not x, ?_, fun k hk => (hheld k hk).trans ?_⟩
  · rw [steps_cons, hopen]
    exact hsteps
  · rw [reduce, if_pos hk]

theorem binary {op : Operator} (hop : op.level = level) (ha : Passes (.expr level) a)
    (hb : Passes (.expr (level + 1)) b) :
    Passes (.expr level) (a ++ (op.signs.map Token.sign ++ b)) := by
  subst hop
  intro around hfloor
  have hop : op.level ∈ [1, 2, 4, 5, 6] := by cases op <;> decide
  obtain ⟨left, x, hleft, hx⟩ := (ha around hfloor).left hfloor hop
  obtain ⟨held, y, hright, hheld⟩ := hb (.binary op x :: around) (Nat.le_refl _)
  refine ⟨held, .binary op x y, ?_, fun k hk => (hheld k (Nat.le_succ_of_le hk)).trans ?_⟩
  · rw [steps_append, hleft, Option.bind_eq_bind, Option.bind_some, steps_signs_append hx hright]
  · rw [reduce, if_pos hk]

theorem and (ha : Passes (.expr 2) a) (hb : Passes (.expr 3) b) :
    Passes (.expr 2) (a ++ .sign .and :: b) := by
  intro around (hfloor : floor around ≤ 2)
  obtain ⟨left, x, hleft, hx⟩ := (ha around hfloor).left hfloor (by decide)
  obtain ⟨held, y, hright, hheld⟩ := hb (.and x :: around) (Nat.le_refl 3)
  refine ⟨held, .and x y, ?_, fun k hk => (hheld k (Nat.le_succ_of_le hk)).trans ?_⟩
  · rw [steps_append, hleft, Option.bind_eq_bind, Option.bind_some, steps_cons, step_and hx]
    exact hright
  · rw [reduce, if_pos hk]

theorem or (ha : Passes (.expr 1) a) (hb : Passes (.expr 2) b) :
    Passes (.expr 1) (a ++ .sign .or :: b) := by
  intro around (hfloor : floor around ≤ 1)
  obtain ⟨left, x, hleft, hx⟩ := (ha around hfloor).left hfloor (by decide)
  obtain ⟨held, y, hright, hheld⟩ := hb (.or x :: around) (Nat.le_refl 2)
  refine ⟨held, .or x y, ?_, fun k hk => (hheld k (Nat.le_succ_of_le hk)).trans ?_⟩
  · rw [steps_append, hleft, Option.bind_eq_bind, Option.bind_some, steps_cons, step_or hx]
    exact hright
  · rw [reduce, if_pos hk]

theorem cond (ha : Passes (.expr 1) a) (ht : Passes (.expr 1) test) (hb : Passes (.expr 0) b) :
    Passes (.expr 0) (a ++ .sign .ifTest :: (test ++ .sign .elseBranch :: b)) := by
  intro around (hfloor : floor around ≤ 0)
  have hle : floor around ≤ 1 := Nat.le_succ_of_le hfloor
  obtain ⟨left, x, hleft, hx⟩ := (ha around hle).left hle (by decide)
  have hif := step_ifTest hx (allowsConditional_of_floor_eq_zero (Nat.le_zero.mp hfloor))
  have htest : floor (.test x :: around) ≤ 1 := Nat.le_refl 1
  obtain ⟨middle, y, hmiddle, hy⟩ := (ht (.test x :: around) htest).left htest (by decide)
  have helse := step_elseBranch hy
  obtain ⟨held, z, hright, hheld⟩ := hb (.otherwise x y :: around) (Nat.le_refl 0)
  refine ⟨held, .cond y x z, ?_, fun k hk => (hheld k hk).trans ?_⟩
  · simp only [steps_append, steps_cons, hleft, hif, hmiddle, helse, hright, Option.bind_eq_bind,
      Option.bind_some]
  · rw [reduce, if_pos (Nat.le_zero.mp hk)]

theorem looser (he : Passes (.expr (level + 1)) e) : Passes (.expr level) e := by
  intro around hfloor
  obtain ⟨held, x, hsteps, hheld⟩ := he around (Nat.le_succ_of_le hfloor)
  exact ⟨held, x, hsteps, fun k hk => hheld k (Nat.le_succ_of_le hk)⟩

/-! ## Items and entries -/

theorem noItem : Passes .items [] :=
  fun hplace before around => ⟨_, by rw [List.nil_append, steps_cons, hplace.step_empty]; rfl⟩

theorem lastItem (he : Passes (.expr 0) e) : Passes .items e := by
  intro place stop done hplace before around
  obtain ⟨held, x, hsteps, hheld⟩ := he.inside _ _ (hplace.floor_eq before around)
    fun x => hplace.reduce_eq x before around
  refine ⟨done (x :: before).reverse, ?_⟩
  rw [steps_append, hsteps, Option.bind_eq_bind, Option.bind_some, steps_cons,
    hplace.step_stop hheld]
  rfl

theorem item (he : Passes (.expr 0) e) (hes : Passes .items es) :
    Passes .items (e ++ .sign .comma :: es) := by
  intro place stop done hplace before around
  obtain ⟨held, x, hsteps, hheld⟩ := he.inside _ _ (hplace.floor_eq before around)
    fun x => hplace.reduce_eq x before around
  obtain ⟨y, hy⟩ := hes hplace (x :: before) around
  refine ⟨y, ?_⟩
  rw [List.append_assoc, steps_append, hsteps, Option.bind_eq_bind, Option.bind_some,
    List.cons_append, steps_cons, hplace.step_comma hheld]
  exact hy

/-- A key and its colon. -/
theorem steps_key (hk : Passes (.expr 0) k) (before : List (Expr × Expr)) (around : List Pending) :
    ∃ key, ∀ rest, (operand (.key before :: around)).steps (k ++ .sign .colon :: rest) =
      (operand (.entry before key :: around)).steps rest := by
  obtain ⟨held, key, hsteps, hheld⟩ := hk.inside (.key before) around rfl fun _ => rfl
  refine ⟨key, fun rest => ?_⟩
  rw [steps_append, hsteps, Option.bind_eq_bind, Option.bind_some, steps_cons, step_colon hheld]
  rfl

theorem lastEntry (hk : Passes (.expr 0) k) (he : Passes (.expr 0) e) :
    Passes .entries (k ++ .sign .colon :: e) := by
  intro before around
  obtain ⟨key, hkey⟩ := hk.steps_key before around
  obtain ⟨held, x, hsteps, hheld⟩ := he.inside (.entry before key) around rfl fun _ => rfl
  refine ⟨.map ((key, x) :: before).reverse, ?_⟩
  rw [List.append_assoc, List.cons_append, hkey, steps_append, hsteps, Option.bind_eq_bind,
    Option.bind_some, steps_cons, step_braceClose hheld]
  rfl

theorem entry (hk : Passes (.expr 0) k) (he : Passes (.expr 0) e) (hes : Passes .entries es) :
    Passes .entries (k ++ .sign .colon :: (e ++ .sign .comma :: es)) := by
  intro before around
  obtain ⟨key, hkey⟩ := hk.steps_key before around
  obtain ⟨held, x, hsteps, hheld⟩ := he.inside (.entry before key) around rfl fun _ => rfl
  obtain ⟨y, hy⟩ := hes ((key, x) :: before) around
  refine ⟨y, ?_⟩
  rw [List.append_assoc, List.cons_append, hkey, List.append_assoc, steps_append, hsteps,
    Option.bind_eq_bind, Option.bind_some, List.cons_append, steps_cons, step_comma_entry hheld]
  exact hy

end Passes

/-- **The reader gets through every phrase.** -/
theorem passes {kind : PhraseKind} {tokens : List Token} (h : Phrase kind tokens) :
    Passes kind tokens := by
  induction h with
  | int | float | str | name => exact fun _ => ⟨_, rfl⟩
  | constant h => exact .constant h
  | paren _ he => exact he.paren
  | list _ hes => exact .list hes
  | map _ hes => exact .map hes
  | member _ n he => exact he.member n
  | index _ _ he hi => exact he.index hi
  | call _ _ hf hes => exact hf.call hes
  | ofOperand _ he => exact he.ofOperand
  | neg _ he => exact he.neg
  | @product op h a b _ _ ha hb =>
    have hop : op.level = 6 := by revert h; cases op <;> decide
    exact .binary hop ha hb
  | @sum op h a b _ _ ha hb =>
    have hop : op.level = 5 := by revert h; cases op <;> decide
    exact .binary hop ha hb
  | @comparison op h a b _ _ ha hb =>
    have hop : op.level = 4 := by revert h; cases op <;> decide
    exact .binary hop ha hb
  | not _ he => exact he.not
  | and _ _ ha hb => exact ha.and hb
  | or _ _ ha hb => exact ha.or hb
  | cond _ _ _ ha ht hb => exact ha.cond ht hb
  | looser _ he => exact he.looser
  | noItem => exact Passes.noItem
  | lastItem _ he => exact he.lastItem
  | item _ _ he hes => exact he.item hes
  | noEntry => exact fun _ _ => ⟨_, rfl⟩
  | lastEntry _ _ hk he => exact hk.lastEntry he
  | entry _ _ _ hk he hes => exact hk.entry he hes

/-- **An expression is read to its end.** -/
theorem mem_completions {tokens : List Token} (h : tokens ∈ Expr.language) :
    tokens ∈ Expr.reader.completions Expr.reader.start := by
  obtain ⟨held, x, hsteps, hheld⟩ := passes h [] (Nat.le_refl 0)
  refine ⟨behind held, hsteps, ?_⟩
  have hreduce : reduce 0 held.1 held.2 = (x, []) := hheld 0 (Nat.le_refl 0)
  have hfinish : Expr.reader.finish (behind held) = some x := by
    simp only [Expr.reader, behind, finish, hreduce]
  rw [hfinish]
  rfl

end Phrase

end Inlay
