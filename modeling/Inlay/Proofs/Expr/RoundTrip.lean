import Inlay.Proofs.Expr.Lexing

/-!
# Expressions read back

The reader comes back to every expression that it is shown in writing.  What it holds behind an expression
is not yet this expression: the operators at its right end still wait for what may follow.  So the lemmas
say what the reader holds, `Expr.spine`, and that completing the waiting operators, down to a level that
the expression has, gives the expression itself.

* `Expr.spine`: what the reader holds behind an expression.
* `ExprState.reduce_spine`: completing it gives the expression.
* `Expr.Reads`: the reader gets there, wherever the level of the expression is enough.
* `Expr.read_written`: an expression is read back from its text.
-/

namespace Inlay

namespace ExprState

variable {around : List Pending}

/-! ## Steps along tokens -/

/-- The state behind a list of tokens. -/
def steps (s : ExprState) (tokens : List Token) : Option ExprState :=
  tokens.foldlM step s

@[simp] theorem steps_nil (s : ExprState) : s.steps [] = some s :=
  rfl

@[simp] theorem steps_cons (s : ExprState) (t : Token) (tokens : List Token) :
    s.steps (t :: tokens) = s.step t >>= fun next => next.steps tokens := by
  rw [steps, List.foldlM_cons]
  rfl

@[simp] theorem steps_append (s : ExprState) (tokens tokens' : List Token) :
    s.steps (tokens ++ tokens') = s.steps tokens >>= fun next => next.steps tokens' := by
  rw [steps, List.foldlM_append]
  rfl

/-- Behind an operand, with what waits around it. -/
def behind (held : Expr × List Pending) : ExprState :=
  operator held.1 held.2

/-- A sign behind an operand. -/
@[simp] theorem step_behind_sign (held : Expr × List Pending) (s : Sign) :
    (behind held).step (.sign s) = stepSign held.1 held.2 s :=
  rfl

end ExprState

/-! ## What the reader holds behind an expression -/

/-- **What the reader holds behind an expression**: its last operand, with the operators in front of that
operand that wait for it. -/
def Expr.spine : Expr → List Pending → Expr × List Pending
  | .neg e, around =>
    if 7 ≤ e.level then e.spine (.neg :: around) else (e, .neg :: around)
  | .not e, around =>
    if 3 ≤ e.level then e.spine (.not :: around) else (e, .not :: around)
  | .binary op a b, around =>
    if op.level + 1 ≤ b.level then b.spine (.binary op a :: around) else (b, .binary op a :: around)
  | .and a b, around =>
    if 3 ≤ b.level then b.spine (.and a :: around) else (b, .and a :: around)
  | .or a b, around =>
    if 2 ≤ b.level then b.spine (.or a :: around) else (b, .or a :: around)
  | .cond test a b, around => b.spine (.otherwise a test :: around)
  | e, around => (e, around)

/-- What the reader holds behind an expression in a place that asks for a level. -/
def Expr.spineAt (level : Nat) (e : Expr) (around : List Pending) : Expr × List Pending :=
  if level ≤ e.level then e.spine around else (e, around)

namespace ExprState

variable {k level : Nat} {around : List Pending} {e : Expr}

/-- Completes the waiting operators of what the reader holds. -/
def reduceHeld (k : Nat) (held : Expr × List Pending) : Expr × List Pending :=
  reduce k held.1 held.2

theorem reduceHeld_spineAt_of (hk : k ≤ level)
    (h : k ≤ e.level → reduceHeld k (e.spine around) = reduce k e around) :
    reduceHeld k (e.spineAt level around) = reduce k e around := by
  rw [Expr.spineAt]
  split
  · rename_i hlevel
    exact h (Nat.le_trans hk hlevel)
  · rfl

/-- **Completing what the reader holds behind an expression gives this expression**, down to its level. -/
theorem reduceHeld_spine : ∀ (e : Expr) (around : List Pending), k ≤ e.level →
    reduceHeld k (e.spine around) = reduce k e around
  | .neg e, around => fun (hk : k ≤ 7) => by
    rw [Expr.spine, ← Expr.spineAt, reduceHeld_spineAt_of hk (reduceHeld_spine e _), reduce]
  | .not e, around => fun (hk : k ≤ 3) => by
    rw [Expr.spine, ← Expr.spineAt, reduceHeld_spineAt_of hk (reduceHeld_spine e _), reduce,
      if_pos hk]
  | .binary op a b, around => fun hk => by
    rw [Expr.level_binary] at hk
    rw [Expr.spine, ← Expr.spineAt,
      reduceHeld_spineAt_of (Nat.le_succ_of_le hk) (reduceHeld_spine b _), reduce, if_pos hk]
  | .and a b, around => fun (hk : k ≤ 2) => by
    rw [Expr.spine, ← Expr.spineAt,
      reduceHeld_spineAt_of (Nat.le_succ_of_le hk) (reduceHeld_spine b _), reduce, if_pos hk]
  | .or a b, around => fun (hk : k ≤ 1) => by
    rw [Expr.spine, ← Expr.spineAt,
      reduceHeld_spineAt_of (Nat.le_succ_of_le hk) (reduceHeld_spine b _), reduce, if_pos hk]
  | .cond test a b, around => fun hk => by
    have hzero : k = 0 := Nat.le_zero.mp hk
    rw [Expr.spine, reduceHeld_spine b _ (hzero ▸ Nat.zero_le _), reduce, if_pos hzero]
  | .lit _, _ | .name _, _ | .list _, _ | .map _, _ | .member .., _ | .index .., _ | .call .., _ =>
    fun _ => rfl

theorem reduceHeld_spineAt (hk : k ≤ level) (e : Expr) (around : List Pending) :
    reduceHeld k (e.spineAt level around) = reduce k e around :=
  reduceHeld_spineAt_of hk (reduceHeld_spine e around)

/-! ## The level that a place asks for -/

/-- The level that what waits around an operand asks for. -/
def floor : List Pending → Nat
  | .neg :: _ => 7
  | .binary op _ :: _ => op.level + 1
  | .not :: _ | .and _ :: _ => 3
  | .or _ :: _ => 2
  | .test _ :: _ => 1
  | _ => 0

/-- An operator of the level that the place asks for completes nothing in front of its operand. -/
theorem reduce_of_floor_le (h : floor around ≤ k) (hk : k ∈ [1, 2, 4, 5, 6]) (e : Expr) :
    reduce k e around = (e, around) := by
  have hk' : k ≠ 0 ∧ k ≠ 3 ∧ k ≤ 6 := by
    simp only [List.mem_cons, List.not_mem_nil, or_false] at hk
    omega
  rcases around with - | ⟨pending, around⟩
  · rfl
  · cases pending <;> simp only [floor] at h <;> simp only [reduce]
    case neg => omega
    case otherwise => rw [if_neg hk'.1]
    case binary | not | and | or => rw [if_neg (by omega)]

theorem allowsNot_of_floor_le (h : floor around ≤ 3) : allowsNot around = true := by
  rcases around with - | ⟨pending, around⟩
  · rfl
  · cases pending with
    | neg => exact absurd h (by simp [floor])
    | binary op a =>
      have hop := op.level_cases
      have hle : op.level + 1 ≤ 3 := h
      omega
    | _ => rfl

theorem allowsConditional_of_floor_eq_zero (h : floor around = 0) :
    allowsConditional around = true := by
  rcases around with - | ⟨pending, around⟩
  · rfl
  · cases pending with
    | test a => exact absurd h Nat.one_ne_zero
    | _ => rfl

/-! ## Signs behind an expression -/

variable {held : Expr × List Pending} {a b f i key : Expr} {items : List Expr}
  {entries : List (Expr × Expr)}

theorem reduce_fst_snd (k : Nat) (held : Expr × List Pending) :
    reduce k held.1 held.2 = reduceHeld k held :=
  rfl

attribute [local simp] stepSign reduce_fst_snd

theorem step_and (h : reduceHeld 2 held = (a, around)) :
    (behind held).step (.sign .and) = some (operand (.and a :: around)) := by
  simp [h]

theorem step_or (h : reduceHeld 1 held = (a, around)) :
    (behind held).step (.sign .or) = some (operand (.or a :: around)) := by
  simp [h]

theorem step_not (h : reduceHeld 4 held = (a, around)) :
    (behind held).step (.sign .not) = some (afterNot a around) := by
  simp [h]

theorem step_is (h : reduceHeld 4 held = (a, around)) :
    (behind held).step (.sign .is) = some (afterIs a around) := by
  simp [h]

theorem stepSign_of_operator {s : Sign} {op : Operator} (hop : operator? s = some op) (e : Expr)
    (around : List Pending) : stepSign e around s =
      some (operand (.binary op (reduce op.level e around).1 :: (reduce op.level e around).2)) := by
  have hstep : stepSign e around s = (operator? s).map fun op =>
      operand (.binary op (reduce op.level e around).1 :: (reduce op.level e around).2) := by
    cases s <;> first | rfl | exact absurd hop nofun
  rw [hstep, hop, Option.map_some]

theorem step_operator {s : Sign} {op : Operator} (hop : operator? s = some op)
    (h : reduceHeld op.level held = (a, around)) :
    (behind held).step (.sign s) = some (operand (.binary op a :: around)) := by
  rw [step_behind_sign, stepSign_of_operator hop, reduce_fst_snd, h]

theorem step_ifTest (h : reduceHeld 1 held = (a, around)) (haround : allowsConditional around = true) :
    (behind held).step (.sign .ifTest) = some (operand (.test a :: around)) := by
  simp [h, haround]

theorem step_elseBranch (h : reduceHeld 1 held = (b, .test a :: around)) :
    (behind held).step (.sign .elseBranch) = some (operand (.otherwise a b :: around)) := by
  simp [h]

theorem step_parenClose (h : reduceHeld 0 held = (e, .paren :: around)) :
    (behind held).step (.sign .parenClose) = some (operator e around) := by
  simp [h]

theorem step_bracketClose (h : reduceHeld 0 held = (i, .index e :: around)) :
    (behind held).step (.sign .bracketClose) = some (operator (.index e i) around) := by
  simp [h]

theorem step_colon (h : reduceHeld 0 held = (key, .key entries :: around)) :
    (behind held).step (.sign .colon) = some (operand (.entry entries key :: around)) := by
  simp [h]

theorem step_comma_entry (h : reduceHeld 0 held = (e, .entry entries key :: around)) :
    (behind held).step (.sign .comma) = some (operand (.key ((key, e) :: entries) :: around)) := by
  simp [h]

theorem step_braceClose (h : reduceHeld 0 held = (e, .entry entries key :: around)) :
    (behind held).step (.sign .braceClose) =
      some (operator (.map ((key, e) :: entries).reverse) around) := by
  simp [h]

/-- Behind `is` an operand is read as behind any operator: `not` begins none there. -/
theorem steps_afterIs {tokens : List Token}
    (h : (operand (.binary .is a :: around)).steps tokens = some (behind held)) :
    (afterIs a around).steps tokens = some (behind held) := by
  cases tokens with
  | nil => exact absurd h (by simp [behind])
  | cons t tokens =>
    have hstep : t ≠ .sign .not → (afterIs a around).step t = stepOperand (.binary .is a :: around) t := by
      intro ht
      rw [step]
      exact ht
    by_cases ht : t = .sign .not
    · subst ht
      exact absurd h (by simp [step, stepOperand, allowsNot])
    · rw [steps_cons, hstep ht]
      exact h

/-- What is read behind an operator is read behind the words it is written in. -/
theorem steps_signs_append {op : Operator} {right : Expr × List Pending} {tokens : List Token}
    (h : reduceHeld op.level held = (a, around))
    (htokens : (operand (.binary op a :: around)).steps tokens = some (behind right)) :
    (behind held).steps (op.signs.map .sign ++ tokens) = some (behind right) := by
  have hone {s : Sign} (hop : operator? s = some op) :
      (behind held).steps (.sign s :: tokens) = some (behind right) := by
    rw [steps_cons, step_operator hop h]
    exact htokens
  cases op
  case notIn =>
    have hnot := step_not h
    simp only [Operator.signs, List.map_cons, List.map_nil, List.cons_append, List.nil_append,
      steps_cons, hnot]
    exact htokens
  case isNot =>
    have his := step_is h
    simp only [Operator.signs, List.map_cons, List.map_nil, List.cons_append, List.nil_append,
      steps_cons, his]
    exact htokens
  case is =>
    have his := step_is h
    simp only [Operator.signs, List.map_cons, List.map_nil, List.cons_append, List.nil_append,
      steps_cons, his]
    exact steps_afterIs htokens
  all_goals exact hone rfl

/-- A place for items with commas between them: the brackets of a list, or the parentheses of a call. -/
structure ItemPlace (place : List Expr → Pending) (stop : Sign) (done : List Expr → Expr) : Prop where
  floor_eq (items : List Expr) (around : List Pending) : floor (place items :: around) = 0
  reduce_eq (e : Expr) (items : List Expr) (around : List Pending) :
    reduce 0 e (place items :: around) = (e, place items :: around)
  step_comma {held : Expr × List Pending} {e : Expr} {items : List Expr} {around : List Pending} :
    reduceHeld 0 held = (e, place items :: around) →
    (behind held).step (.sign .comma) = some (operand (place (e :: items) :: around))
  step_stop {held : Expr × List Pending} {e : Expr} {items : List Expr} {around : List Pending} :
    reduceHeld 0 held = (e, place items :: around) →
    (behind held).step (.sign stop) = some (operator (done (e :: items).reverse) around)
  step_empty (items : List Expr) (around : List Pending) :
    (operand (place items :: around)).step (.sign stop) = some (operator (done items.reverse) around)

theorem ItemPlace.list : ItemPlace .list .bracketClose .list where
  floor_eq _ _ := rfl
  reduce_eq _ _ _ := rfl
  step_comma h := by simp [h]
  step_stop h := by simp [h]
  step_empty _ _ := rfl

theorem ItemPlace.args (f : Expr) : ItemPlace (.args f) .parenClose (.call f) where
  floor_eq _ _ := rfl
  reduce_eq _ _ _ := rfl
  step_comma h := by simp [h]
  step_stop h := by simp [h]
  step_empty _ _ := rfl

end ExprState

/-! ## One constructor after the other -/

open ExprState

/-- The reader gets through the tokens of the expression, wherever its level is enough. -/
def Expr.Reads (e : Expr) : Prop :=
  ∀ {around}, floor around ≤ e.level →
    (operand around).steps e.tokens = some (behind (e.spine around))

namespace Expr

/-- Members, indices and calls leave nothing waiting in what they are of. -/
theorem spineAt_eight (e : Expr) (around : List Pending) : e.spineAt 8 around = (e, around) := by
  rw [spineAt]
  split
  · rename_i h
    cases e with
    | binary op a b =>
      have hop := op.level_cases
      rw [level_binary] at h
      omega
    | neg | not | and | or | cond => exact absurd h (by simp [level])
    | _ => rfl
  · rfl

namespace Reads

variable {e a b f i test : Expr} {around : List Pending} {level : Nat}

/-- In a place that asks for a level it is there with what it has been put in. -/
theorem enclosed (h : e.Reads) (hfloor : floor around ≤ level) :
    (operand around).steps (e.enclosed level e.tokens) = some (behind (e.spineAt level around)) := by
  rw [Expr.enclosed, Expr.spineAt]
  split
  · rename_i hlevel
    exact h (Nat.le_trans hfloor hlevel)
  · have hinner : (operand (.paren :: around)).steps e.tokens =
        some (behind (e.spine (.paren :: around))) := h (Nat.zero_le _)
    have hclose := step_parenClose (reduceHeld_spine e (.paren :: around) (Nat.zero_le _))
    have hopen : (operand around).step (.sign .parenOpen) = some (operand (.paren :: around)) := rfl
    simp only [steps_cons, steps_append, steps_nil, hopen, hinner, hclose, Option.bind_eq_bind,
      Option.bind_some]
    rfl

theorem lit {v : Value} (h : v.isPlainLiteral = true) : (Expr.lit v).Reads := by
  intro around _
  cases v with
  | bool b => cases b <;> rfl
  | nothing | str | int => rfl
  | float | list | map | function => exact absurd h Bool.false_ne_true

theorem name (n : String) : (Expr.name n).Reads :=
  fun _ => rfl

theorem member (h : e.Reads) (n : String) : (e.member n).Reads := by
  intro around (hfloor : floor around ≤ 8)
  have hoperand := h.enclosed hfloor
  rw [spineAt_eight] at hoperand
  rw [Expr.tokens, steps_append, hoperand]
  rfl

theorem index (he : e.Reads) (hi : i.Reads) : (e.index i).Reads := by
  intro around (hfloor : floor around ≤ 8)
  have hoperand := he.enclosed hfloor
  have hindex : (operand (.index e :: around)).steps i.tokens =
      some (behind (i.spine (.index e :: around))) := hi (Nat.zero_le _)
  have hclose := step_bracketClose (reduceHeld_spine i (.index e :: around) (Nat.zero_le _))
  rw [spineAt_eight] at hoperand
  have hopen : (behind (e, around)).step (.sign .bracketOpen) =
      some (operand (.index e :: around)) := rfl
  simp only [Expr.tokens, steps_append, steps_cons, steps_nil, hoperand, hopen, hindex, hclose,
    Option.bind_eq_bind, Option.bind_some]
  rfl

theorem neg (h : e.Reads) : e.neg.Reads := by
  intro around _
  have hoperand : (operand (.neg :: around)).steps (e.enclosed 7 e.tokens) = _ :=
    h.enclosed (Nat.le_refl _)
  rw [Expr.tokens, steps_cons]
  exact hoperand

theorem not (h : e.Reads) : e.not.Reads := by
  intro around (hfloor : floor around ≤ 3)
  have hoperand : (operand (.not :: around)).steps (e.enclosed 3 e.tokens) = _ :=
    h.enclosed (Nat.le_refl _)
  rw [Expr.tokens, steps_cons, step, stepOperand, if_pos (allowsNot_of_floor_le hfloor)]
  exact hoperand

/-- The left operand of an operator has been completed when its sign comes. -/
theorem reduceHeld_left (hfloor : floor around ≤ level) (hlevel : level ∈ [1, 2, 4, 5, 6]) (a : Expr) :
    reduceHeld level (a.spineAt level around) = (a, around) := by
  rw [reduceHeld_spineAt (Nat.le_refl _), reduce_of_floor_le hfloor hlevel]

theorem binary (op : Operator) (ha : a.Reads) (hb : b.Reads) : (Expr.binary op a b).Reads := by
  intro around hfloor
  rw [level_binary] at hfloor
  have hop : op.level ∈ [1, 2, 4, 5, 6] := by cases op <;> decide
  have hright : (operand (.binary op a :: around)).steps (b.enclosed (op.level + 1) b.tokens) = _ :=
    hb.enclosed (Nat.le_refl _)
  have hsigns := steps_signs_append (reduceHeld_left hfloor hop a) hright
  rw [tokens_binary, steps_append, ha.enclosed hfloor, Option.bind_eq_bind, Option.bind_some, hsigns]
  rfl

theorem and (ha : a.Reads) (hb : b.Reads) : (a.and b).Reads := by
  intro around (hfloor : floor around ≤ 2)
  have hright : (operand (.and a :: around)).steps (b.enclosed 3 b.tokens) = _ :=
    hb.enclosed (Nat.le_refl _)
  have hsign := step_and (reduceHeld_left hfloor (by decide) a)
  rw [Expr.tokens, steps_append, ha.enclosed hfloor, Option.bind_eq_bind, Option.bind_some,
    steps_cons, hsign]
  exact hright

theorem or (ha : a.Reads) (hb : b.Reads) : (a.or b).Reads := by
  intro around (hfloor : floor around ≤ 1)
  have hright : (operand (.or a :: around)).steps (b.enclosed 2 b.tokens) = _ :=
    hb.enclosed (Nat.le_refl _)
  have hsign := step_or (reduceHeld_left hfloor (by decide) a)
  rw [Expr.tokens, steps_append, ha.enclosed hfloor, Option.bind_eq_bind, Option.bind_some,
    steps_cons, hsign]
  exact hright

theorem cond (ht : test.Reads) (ha : a.Reads) (hb : b.Reads) : (Expr.cond test a b).Reads := by
  intro around (hfloor : floor around ≤ 0)
  have hzero : floor around = 0 := Nat.le_zero.mp hfloor
  have hle : floor around ≤ 1 := Nat.le_succ_of_le hfloor
  have hvalue := ha.enclosed hle
  have hif := step_ifTest (reduceHeld_left hle (by decide) a)
    (allowsConditional_of_floor_eq_zero hzero)
  have htest : (operand (.test a :: around)).steps (test.enclosed 1 test.tokens) = _ :=
    ht.enclosed (Nat.le_refl _)
  have hfloor_test : floor (.test a :: around) ≤ 1 := Nat.le_refl _
  have helse := step_elseBranch (reduceHeld_left hfloor_test (by decide) test)
  have hotherwise : (operand (.otherwise a test :: around)).steps b.tokens = _ := hb (Nat.zero_le _)
  simp only [Expr.tokens, steps_append, steps_cons, hvalue, hif, htest, helse, hotherwise,
    Option.bind_eq_bind, Option.bind_some]
  rfl

/-- Items between brackets, behind those read before. -/
theorem items {place : List Expr → Pending} {stop : Sign} {done : List Expr → Expr}
    (hplace : ItemPlace place stop done) : ∀ {es : List Expr}, (∀ e ∈ es, e.Reads) → ∀ before around,
      (operand (place before :: around)).steps (tokensAll es ++ [.sign stop]) =
        some (operator (done (before.reverse ++ es)) around)
  | [], _, before, around => by
    rw [tokensAll, List.nil_append, steps_cons, hplace.step_empty, List.append_nil]
    rfl
  | [e], h, before, around => by
    have he : (operand (place before :: around)).steps e.tokens = _ :=
      h e (List.mem_singleton_self e) (hplace.floor_eq before around ▸ Nat.zero_le _)
    have hheld := (reduceHeld_spine e (place before :: around) (Nat.zero_le _)).trans
      (hplace.reduce_eq e before around)
    rw [tokensAll, steps_append, he, Option.bind_eq_bind, Option.bind_some, steps_cons,
      hplace.step_stop hheld, List.reverse_cons]
    rfl
  | e :: e' :: es, h, before, around => by
    obtain ⟨hfirst, hrest⟩ := List.forall_mem_cons.mp h
    have he : (operand (place before :: around)).steps e.tokens = _ :=
      hfirst (hplace.floor_eq before around ▸ Nat.zero_le _)
    have hheld := (reduceHeld_spine e (place before :: around) (Nat.zero_le _)).trans
      (hplace.reduce_eq e before around)
    have hcomma := hplace.step_comma hheld
    have htail := items hplace hrest (e :: before) around
    rw [List.reverse_cons, List.append_assoc, List.singleton_append] at htail
    rw [tokensAll_cons_cons, List.append_assoc, steps_append, he, Option.bind_eq_bind, Option.bind_some,
      List.cons_append, steps_cons, hcomma]
    exact htail

theorem list {es : List Expr} (h : ∀ e ∈ es, e.Reads) : (Expr.list es).Reads := by
  intro around _
  rw [Expr.tokens, steps_cons]
  exact items .list h [] around

theorem call {args : List Expr} (hf : f.Reads) (h : ∀ e ∈ args, e.Reads) :
    (Expr.call f args).Reads := by
  intro around (hfloor : floor around ≤ 8)
  have hoperand := hf.enclosed hfloor
  rw [spineAt_eight] at hoperand
  rw [Expr.tokens, steps_append, hoperand, Option.bind_eq_bind, Option.bind_some, steps_cons]
  exact items (.args f) h [] around

theorem entry {k : Expr} (hk : k.Reads) (he : e.Reads) (before : List (Expr × Expr))
    (around : List Pending) :
    (operand (.key before :: around)).steps (k.tokens ++ .sign .colon :: e.tokens) =
      some (behind (e.spine (.entry before k :: around))) := by
  have hkey : (operand (.key before :: around)).steps k.tokens = _ := hk (Nat.zero_le _)
  have hcolon := step_colon (reduceHeld_spine k (.key before :: around) (Nat.zero_le _))
  rw [steps_append, hkey, Option.bind_eq_bind, Option.bind_some, steps_cons, hcolon]
  exact he (Nat.zero_le _)

/-- Entries between braces, behind those read before. -/
theorem entries : ∀ {entries : List (Expr × Expr)}, (∀ p ∈ entries, p.1.Reads ∧ p.2.Reads) →
    ∀ before around,
      (operand (.key before :: around)).steps (tokensEntries entries ++ [.sign .braceClose]) =
        some (operator (.map (before.reverse ++ entries)) around)
  | [], _, before, around => by
    rw [tokensEntries, List.nil_append, List.append_nil]
    rfl
  | [(k, e)], h, before, around => by
    obtain ⟨hk, he⟩ := h _ (List.mem_singleton_self _)
    have hclose := step_braceClose (reduceHeld_spine e (.entry before k :: around) (Nat.zero_le _))
    rw [tokensEntries, steps_append, entry hk he, Option.bind_eq_bind, Option.bind_some, steps_cons,
      hclose, List.reverse_cons]
    rfl
  | (k, e) :: next :: rest, h, before, around => by
    obtain ⟨⟨hk, he⟩, hrest⟩ := List.forall_mem_cons.mp h
    have hcomma := step_comma_entry (reduceHeld_spine e (.entry before k :: around) (Nat.zero_le _))
    have htail := entries hrest ((k, e) :: before) around
    rw [List.reverse_cons, List.append_assoc, List.singleton_append] at htail
    rw [tokensEntries_cons_cons, List.append_assoc, steps_append, entry hk he, Option.bind_eq_bind,
      Option.bind_some, List.cons_append, steps_cons, hcomma]
    exact htail

theorem map {entries : List (Expr × Expr)} (h : ∀ p ∈ entries, p.1.Reads ∧ p.2.Reads) :
    (Expr.map entries).Reads := by
  intro around _
  rw [Expr.tokens, steps_cons]
  exact Reads.entries h [] around

end Reads

mutual

/-- **The reader gets through the tokens of every writable expression.** -/
theorem reads : ∀ e : Expr, e.isWritable = true → e.Reads
  | .lit v => fun h => Reads.lit (by rwa [isWritable] at h)
  | .name n => fun _ => Reads.name n
  | .list items => fun h => Reads.list (readsAll items (by rwa [isWritable] at h))
  | .map entries => fun h => Reads.map (readsEntries entries (by rwa [isWritable] at h))
  | .member e n => fun h => by
    rw [isWritable, Bool.and_eq_true] at h
    exact Reads.member (reads e h.1) n
  | .index e i => fun h => by
    rw [isWritable, Bool.and_eq_true] at h
    exact Reads.index (reads e h.1) (reads i h.2)
  | .call f args => fun h => by
    rw [isWritable, Bool.and_eq_true] at h
    exact Reads.call (reads f h.1) (readsAll args h.2)
  | .neg e => fun h => Reads.neg (reads e (by rwa [isWritable] at h))
  | .not e => fun h => Reads.not (reads e (by rwa [isWritable] at h))
  | .binary op a b => fun h => by
    rw [isWritable, Bool.and_eq_true] at h
    exact Reads.binary op (reads a h.1) (reads b h.2)
  | .and a b => fun h => by
    rw [isWritable, Bool.and_eq_true] at h
    exact Reads.and (reads a h.1) (reads b h.2)
  | .or a b => fun h => by
    rw [isWritable, Bool.and_eq_true] at h
    exact Reads.or (reads a h.1) (reads b h.2)
  | .cond test a b => fun h => by
    rw [isWritable, Bool.and_eq_true, Bool.and_eq_true] at h
    exact Reads.cond (reads test h.1) (reads a h.2.1) (reads b h.2.2)

theorem readsAll : ∀ es : List Expr, areWritable es = true → ∀ e ∈ es, e.Reads
  | [] => fun _ _ he => absurd he List.not_mem_nil
  | e :: rest => fun h => by
    rw [areWritable, Bool.and_eq_true] at h
    exact List.forall_mem_cons.mpr ⟨reads e h.1, readsAll rest h.2⟩

theorem readsEntries : ∀ entries : List (Expr × Expr), areWritableEntries entries = true →
    ∀ p ∈ entries, p.1.Reads ∧ p.2.Reads
  | [] => fun _ _ hp => absurd hp List.not_mem_nil
  | (k, e) :: rest => fun h => by
    rw [areWritableEntries, Bool.and_eq_true, Bool.and_eq_true] at h
    exact List.forall_mem_cons.mpr ⟨⟨reads k h.1, reads e h.2.1⟩, readsEntries rest h.2.2⟩

end

end Expr

/-! ## Texts -/

/-- The steps of a reader do not depend on where its tokens stand. -/
theorem Automaton.run_eq_of_foldlM {σ α : Type} (m : Automaton σ α) :
    ∀ {spanned : List (Token × Span)} {s s' : σ},
      (spanned.map Prod.fst).foldlM m.step s = some s' → m.run s spanned = .ok s'
  | [], s, s', h => by
    rw [List.map_nil, List.foldlM_nil] at h
    rw [Automaton.run, Option.some.inj h]
  | (t, span) :: rest, s, s', h => by
    rw [List.map_cons, List.foldlM_cons, Option.bind_eq_bind, Option.bind_eq_some_iff] at h
    obtain ⟨next, hnext, hrest⟩ := h
    rw [Automaton.run, hnext]
    exact run_eq_of_foldlM m hrest

/-- **An expression is read back from its text**: whatever is written, with parentheses only where the
levels ask for them, is read as just this expression. -/
theorem Expr.read_written (mark : QuoteMark) {e : Expr} (h : e.isWritable = true) :
    Expr.read (e.written mark) = .ok e := by
  obtain ⟨spanned, hlex, hfst⟩ := Token.exists_lex_writtenAll mark (e.allWritable_tokens h)
  have hsteps : (operand []).steps e.tokens = some (behind (e.spine [])) :=
    Expr.reads e h (Nat.zero_le _)
  have hrun : Expr.reader.run (operand []) spanned = .ok (behind (e.spine [])) :=
    Automaton.run_eq_of_foldlM Expr.reader (by rw [hfst]; exact hsteps)
  have hfinish : ExprState.finish (behind (e.spine [])) = some e := by
    have hreduce := reduceHeld_spine e [] (Nat.zero_le _)
    rw [behind, ExprState.finish, ← reduceHeld, hreduce]
    rfl
  rw [Expr.read, Automaton.read, Expr.written, hlex]
  have hstart : Expr.reader.start = operand [] := rfl
  have hlast : Expr.reader.finish (behind (e.spine [])) = some e := hfinish
  simp only [Automaton.readTokens, hstart, hrun, hlast]

/-- A conditional of three parts.  In the first one a product stands in a sum, the sum in a comparison, and
the comparison beside `and` and `or`, all without parentheses; only a difference in a quotient has them.  The
last one has a row of comparisons, which associate to the left. -/
theorem Expr.read_written_conditional :
    let less : Expr := .binary .lt (.binary .add (.name "n") (.binary .mul (.lit (.int 2)) (.name "m")))
      (.binary .floorDiv (.binary .sub (.name "x") (.lit (.int 7))) (.name "d"))
    let value : Expr := .or (.and (.not (.name "p")) less)
      (.binary .isNot (.member (.name "a") "b") (.lit .nothing))
    let test : Expr := .binary .notIn (.neg (.binary .sub (.name "n") (.lit (.int 1))))
      (.list [.index (.name "q") (.neg (.lit (.int 1))), .lit (.str "it's")])
    let chain : Expr := .binary .isIn (.binary .is (.binary .ge (.binary .gt
      (.binary .ne (.name "r") (.name "s")) (.name "t")) (.name "u")) (.name "v")) (.name "w")
    let entries : Expr := .map [(.lit (.str "k"), .binary .le (.binary .div (.name "y") (.name "z"))
      (.lit (.int 1))), (.name "l", chain)]
    let otherwise : Expr := .call
      (.cond (.binary .eq (.lit (.bool true)) (.lit (.bool false))) (.name "f") (.name "g"))
      [.binary .sub (.binary .mod (.name "i") (.lit (.int 3))) (.binary .sub (.lit (.int 2)) (.name "j")),
        entries]
    let e : Expr := .cond test value otherwise
    e.isWritable = true ∧
      e.written .single =
        ("not p and n + 2 * m < ( x - 7 ) // d or a . b is not none " ++
          "if - ( n - 1 ) not in [ q [ - 1 ] , 'it\\'s' ] " ++
          "else ( f if true == false else g ) ( i % 3 - ( 2 - j ) , " ++
          "\x7b 'k' : y / z <= 1 , l : r != s > t >= u is v in w \x7d )").toList ∧
      Expr.read (e.written .single) = .ok e := by
  refine ⟨by decide +kernel, by decide +kernel, read_written .single (by decide +kernel)⟩

end Inlay
