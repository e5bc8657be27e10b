import Inlay.Proofs.Expr.Phrases

/-!
# What the reader of expressions has read

The stack of the reader says what it has read so far: in front of the operand are the operators and
the open brackets that wait around it, each with the phrases that it holds.  Each step keeps this,
since an operator completes what it makes a phrase with, and a bracket is closed behind a phrase.
So what is read to its end is an expression.

And whatever has been read can be completed to an expression: an operand follows if none is there,
and then each bracket is closed, and each `if` gets its `else`, from the inside out.  The reader is
never at a dead end, although it could be if more stacks came about: behind an `else` inside a test
nothing goes on.

* `InFront`: the tokens in front of an operand, by what waits around it.
* `InFront.reduce`: completing operators only moves the border between these and the operand.
* `InFront.exists_rest`: everything open can be closed.
* `ExprState.Spells`: what has been read up to a state, with `ExprState.Spells.step`.
* `Expr.reader_recognizes`: the reader of expressions and their grammar.
-/

namespace Inlay

/-- What an operator that waits for its right operand makes of it, and the level of the two
together. -/
def Pending.completed? : Pending → Option (Nat × (Expr → Expr))
  | neg => some (7, .neg)
  | not => some (3, .not)
  | binary op a => some (op.level, .binary op a)
  | and a => some (2, .and a)
  | or a => some (1, .or a)
  | otherwise a b => some (0, .cond b a)
  | _ => none

open ExprState

/-- **The tokens in front of an operand**, by what waits around it.  An operator that waits needs an
operand to be a phrase, and has been put where a phrase of its level may stand.  Items and entries
go on behind the comma of the last one. -/
inductive InFront : List Pending → List Token → Prop
  | start : InFront [] []
  | waiting {pending : Pending} {around : List Pending} {before front : List Token} {level : Nat}
      {done : Expr → Expr} (h : InFront around before)
      (hdone : pending.completed? = some (level, done))
      (hfloor : floor around ≤ level)
      (hfront : ∀ e,
        Phrase (.expr (floor (pending :: around))) e → Phrase (.expr level) (front ++ e)) :
      InFront (pending :: around) (before ++ front)
  | test (x : Expr) {around : List Pending} {before a : List Token} (h : InFront around before)
      (hfloor : floor around = 0) (ha : Phrase (.expr 1) a) :
      InFront (.test x :: around) (before ++ (a ++ [.sign .ifTest]))
  | paren {around : List Pending} {before : List Token} (h : InFront around before) :
      InFront (.paren :: around) (before ++ [.sign .parenOpen])
  | list (items : List Expr) {around : List Pending} {before es : List Token}
      (h : InFront around before)
      (hes : ∀ rest, Phrase .items rest → Phrase .items (es ++ rest)) :
      InFront (.list items :: around) (before ++ .sign .bracketOpen :: es)
  | key (entries : List (Expr × Expr)) {around : List Pending} {before es : List Token}
      (h : InFront around before)
      (hes : ∀ rest, Phrase .entries rest → Phrase .entries (es ++ rest)) :
      InFront (.key entries :: around) (before ++ .sign .braceOpen :: es)
  | entry (entries : List (Expr × Expr)) (x : Expr) {around : List Pending}
      {before es k : List Token}
      (h : InFront around before)
      (hes : ∀ rest, Phrase .entries rest → Phrase .entries (es ++ rest))
      (hk : Phrase (.expr 0) k) :
      InFront (.entry entries x :: around)
        (before ++ .sign .braceOpen :: (es ++ (k ++ [.sign .colon])))
  | index (x : Expr) {around : List Pending} {before e : List Token} (h : InFront around before)
      (he : Phrase .operand e) :
      InFront (.index x :: around) (before ++ (e ++ [.sign .bracketOpen]))
  | args (x : Expr) (items : List Expr) {around : List Pending} {before f es : List Token}
      (h : InFront around before) (hf : Phrase .operand f)
      (hes : ∀ rest, Phrase .items rest → Phrase .items (es ++ rest)) :
      InFront (.args x items :: around) (before ++ (f ++ .sign .parenOpen :: es))

namespace Phrase

theorem loosen {level k : Nat} {e : List Token} (h : Phrase (.expr level) e) (hk : k ≤ level) :
    Phrase (.expr k) e := by
  induction hk with
  | refl => exact h
  | step _ ih => exact ih h.looser

end Phrase

namespace InFront

variable {around : List Pending} {before e : List Token} {level k : Nat}

/-! ## Completing operators -/

theorem floor_le_seven (around : List Pending) : floor around ≤ 7 := by
  rcases around with - | ⟨pending, around⟩
  · exact Nat.zero_le 7
  · cases pending with
    | binary op a =>
      have hop := op.level_cases
      exact Nat.succ_le_succ hop.2
    | _ => simp only [floor]; omega

/-- An operator that waits is completed at its level and below. -/
theorem reduce_of_completed {pending : Pending} {done : Expr → Expr} (hk : k ≤ 7)
    (h : pending.completed? = some (level, done)) (x : Expr) :
    ExprState.reduce k x (pending :: around) =
      if k ≤ level then ExprState.reduce k (done x) around else (x, pending :: around) := by
  cases pending <;> cases h
  case neg => rw [ExprState.reduce, if_pos hk]
  case otherwise => simp only [ExprState.reduce, Nat.le_zero_eq]
  all_goals rw [ExprState.reduce]

/-- The right operand of an operator is at most one level up. -/
theorem floor_le_of_completed {pending : Pending} {done : Expr → Expr}
    (h : pending.completed? = some (level, done)) : floor (pending :: around) ≤ level + 1 := by
  cases pending <;> cases h <;> simp only [floor] <;> omega

/-- The tokens end with a phrase of a level, and a place that asks for this phrase is in front of
it.  The test of a conditional asks for level one in front of whatever is there. -/
def Split (around : List Pending) (level : Nat) (tokens : List Token) : Prop :=
  ∃ before e, tokens = before ++ e ∧ InFront around before ∧ Phrase (.expr level) e ∧
    floor around ≤ max level 1

/-- **Completing operators moves the border between the operand and what is in front of it**, and
nothing else. -/
theorem reduce (hk : k ≤ 7) (h : InFront around before) (x : Expr) (he : Phrase (.expr level) e)
    (hfloor : floor around ≤ level) (hlevel : k ≤ level) :
    Split (ExprState.reduce k x around).2 k (before ++ e) := by
  have hstop {p : Pending} {around : List Pending} {before e : List Token} {level : Nat}
      (h : InFront (p :: around) before) (he : Phrase (.expr level) e) (hlevel : k ≤ level)
      (hp : floor (p :: around) ≤ max k 1) : Split (p :: around) k (before ++ e) :=
    ⟨before, e, rfl, h, he.loosen hlevel, hp⟩
  induction h generalizing x e level with
  | start => exact ⟨[], e, rfl, .start, he.loosen hlevel, Nat.zero_le _⟩
  | @waiting pending around before front level' done h hdone hown hfront ih =>
    rw [reduce_of_completed hk hdone]
    split
    · rename_i hle
      rw [List.append_assoc]
      exact ih (done x) (hfront e (he.loosen hfloor)) hown hle
    · rename_i hlt
      have hnext : floor (pending :: around) ≤ level' + 1 := floor_le_of_completed hdone
      have hp : floor (pending :: around) ≤ max k 1 := by omega
      exact hstop (.waiting h hdone hown hfront) he hlevel hp
  | test y h hzero ha => exact hstop (.test y h hzero ha) he hlevel (Nat.le_max_right k 1)
  | paren h => exact hstop (.paren h) he hlevel (Nat.zero_le _)
  | list items h hes => exact hstop (.list items h hes) he hlevel (Nat.zero_le _)
  | key entries h hes => exact hstop (.key entries h hes) he hlevel (Nat.zero_le _)
  | entry entries y h hes hk' => exact hstop (.entry entries y h hes hk') he hlevel (Nat.zero_le _)
  | index y h hy => exact hstop (.index y h hy) he hlevel (Nat.zero_le _)
  | args y items h hy hes => exact hstop (.args y items h hy hes) he hlevel (Nat.zero_le _)

/-! ## Closing what is open -/

/-- **Everything open can be closed** behind a phrase that the place asks for. -/
theorem exists_rest (h : InFront around before) (he : Phrase (.expr level) e)
    (hfloor : floor around ≤ level) :
    ∃ rest, Phrase (.expr 0) (before ++ (e ++ rest)) := by
  induction h generalizing e level with
  | start =>
    refine ⟨[], ?_⟩
    rw [List.nil_append, List.append_nil]
    exact he.loosen (Nat.zero_le _)
  | waiting _ _ hown hfront ih =>
    obtain ⟨rest, hrest⟩ := ih (hfront e (he.loosen hfloor)) hown
    exact ⟨rest, by simpa using hrest⟩
  | @test x around before a _ hzero ha ih =>
    have hcond := ha.cond (he.loosen hfloor) ((Phrase.name "a").ofOperand.loosen (Nat.zero_le _))
    obtain ⟨rest, hrest⟩ := ih hcond (Nat.le_of_eq hzero)
    exact ⟨.sign .elseBranch :: .name "a" :: rest, by simpa using hrest⟩
  | paren _ ih =>
    have hparen := Phrase.paren (he.loosen (Nat.zero_le _))
    obtain ⟨rest, hrest⟩ := ih hparen.ofOperand (floor_le_seven _)
    exact ⟨.sign .parenClose :: rest, by simpa using hrest⟩
  | list items _ hes ih =>
    have hlist := Phrase.list (hes _ (.lastItem (he.loosen (Nat.zero_le _))))
    obtain ⟨rest, hrest⟩ := ih hlist.ofOperand (floor_le_seven _)
    exact ⟨.sign .bracketClose :: rest, by simpa using hrest⟩
  | key entries _ hes ih =>
    have hvalue := (Phrase.name "a").ofOperand.loosen (Nat.zero_le _)
    have hmap := Phrase.map (hes _ (.lastEntry (he.loosen (Nat.zero_le _)) hvalue))
    obtain ⟨rest, hrest⟩ := ih hmap.ofOperand (floor_le_seven _)
    exact ⟨.sign .colon :: .name "a" :: .sign .braceClose :: rest, by simpa using hrest⟩
  | entry entries x _ hes hk ih =>
    have hmap := Phrase.map (hes _ (.lastEntry hk (he.loosen (Nat.zero_le _))))
    obtain ⟨rest, hrest⟩ := ih hmap.ofOperand (floor_le_seven _)
    exact ⟨.sign .braceClose :: rest, by simpa using hrest⟩
  | index x _ hx ih =>
    have hindex := hx.index (he.loosen (Nat.zero_le _))
    obtain ⟨rest, hrest⟩ := ih hindex.ofOperand (floor_le_seven _)
    exact ⟨.sign .bracketClose :: rest, by simpa using hrest⟩
  | args x items _ hf hes ih =>
    have hcall := hf.call (hes _ (.lastItem (he.loosen (Nat.zero_le _))))
    obtain ⟨rest, hrest⟩ := ih hcall.ofOperand (floor_le_seven _)
    exact ⟨.sign .parenClose :: rest, by simpa using hrest⟩

/-! ## What the innermost bracket holds -/

/-- The tokens end with an operand. -/
def Ends (around : List Pending) (tokens : List Token) : Prop :=
  ∃ before e, tokens = before ++ e ∧ InFront around before ∧ Phrase .operand e

section

variable {tokens : List Token} {items : List Expr} {entries : List (Expr × Expr)} {x y : Expr}

theorem exists_of_list (h : InFront (.list items :: around) tokens) :
    ∃ before es, tokens = before ++ .sign .bracketOpen :: es ∧ InFront around before ∧
      ∀ rest, Phrase .items rest → Phrase .items (es ++ rest) := by
  cases h with
  | waiting _ hdone => cases hdone
  | list _ h hes => exact ⟨_, _, rfl, h, hes⟩

theorem exists_of_args (h : InFront (.args x items :: around) tokens) :
    ∃ before f es, tokens = before ++ (f ++ .sign .parenOpen :: es) ∧ InFront around before ∧
      Phrase .operand f ∧ ∀ rest, Phrase .items rest → Phrase .items (es ++ rest) := by
  cases h with
  | waiting _ hdone => cases hdone
  | args _ _ h hf hes => exact ⟨_, _, _, rfl, h, hf, hes⟩

theorem exists_of_key (h : InFront (.key entries :: around) tokens) :
    ∃ before es, tokens = before ++ .sign .braceOpen :: es ∧ InFront around before ∧
      ∀ rest, Phrase .entries rest → Phrase .entries (es ++ rest) := by
  cases h with
  | waiting _ hdone => cases hdone
  | key _ h hes => exact ⟨_, _, rfl, h, hes⟩

theorem exists_of_entry (h : InFront (.entry entries x :: around) tokens) :
    ∃ before es k, tokens = before ++ .sign .braceOpen :: (es ++ (k ++ [.sign .colon])) ∧
      InFront around before ∧ (∀ rest, Phrase .entries rest → Phrase .entries (es ++ rest)) ∧
      Phrase (.expr 0) k := by
  cases h with
  | waiting _ hdone => cases hdone
  | entry _ _ h hes hk => exact ⟨_, _, _, rfl, h, hes, hk⟩

theorem ends_list (h : InFront (.list items :: around) tokens) :
    Ends around (tokens ++ [.sign .bracketClose]) := by
  obtain ⟨before, es, rfl, hfront, hes⟩ := h.exists_of_list
  exact ⟨before, _, by simp, hfront, .list (hes [] .noItem)⟩

theorem ends_args (h : InFront (.args x items :: around) tokens) :
    Ends around (tokens ++ [.sign .parenClose]) := by
  obtain ⟨before, f, es, rfl, hfront, hf, hes⟩ := h.exists_of_args
  exact ⟨before, _, by simp, hfront, hf.call (hes [] .noItem)⟩

theorem ends_key (h : InFront (.key entries :: around) tokens) :
    Ends around (tokens ++ [.sign .braceClose]) := by
  obtain ⟨before, es, rfl, hfront, hes⟩ := h.exists_of_key
  exact ⟨before, _, by simp, hfront, .map (hes [] .noEntry)⟩

namespace Split

/-! ### A sign behind a whole expression -/

theorem list_comma (h : Split (.list items :: around) 0 tokens) :
    InFront (.list (y :: items) :: around) (tokens ++ [.sign .comma]) := by
  obtain ⟨_, e, rfl, hfront, he, -⟩ := h
  obtain ⟨before, es, rfl, hfront, hes⟩ := hfront.exists_of_list
  have hnext : InFront (.list (y :: items) :: around)
      (before ++ .sign .bracketOpen :: (es ++ (e ++ [.sign .comma]))) :=
    hfront.list _ fun rest hrest => by simpa using hes _ (he.item hrest)
  simpa using hnext

theorem args_comma (h : Split (.args x items :: around) 0 tokens) :
    InFront (.args x (y :: items) :: around) (tokens ++ [.sign .comma]) := by
  obtain ⟨_, e, rfl, hfront, he, -⟩ := h
  obtain ⟨before, f, es, rfl, hfront, hf, hes⟩ := hfront.exists_of_args
  have hnext : InFront (.args x (y :: items) :: around)
      (before ++ (f ++ .sign .parenOpen :: (es ++ (e ++ [.sign .comma])))) :=
    hfront.args x _ hf fun rest hrest => by simpa using hes _ (he.item hrest)
  simpa using hnext

theorem entry_comma (h : Split (.entry entries x :: around) 0 tokens) :
    InFront (.key ((x, y) :: entries) :: around) (tokens ++ [.sign .comma]) := by
  obtain ⟨_, e, rfl, hfront, he, -⟩ := h
  obtain ⟨before, es, k, rfl, hfront, hes, hk⟩ := hfront.exists_of_entry
  have hnext : InFront (.key ((x, y) :: entries) :: around)
      (before ++ .sign .braceOpen :: (es ++ (k ++ .sign .colon :: (e ++ [.sign .comma])))) :=
    hfront.key _ fun rest hrest => by simpa using hes _ (hk.entry he hrest)
  simpa using hnext

theorem key_colon (h : Split (.key entries :: around) 0 tokens) :
    InFront (.entry entries x :: around) (tokens ++ [.sign .colon]) := by
  obtain ⟨_, k, rfl, hfront, hk, -⟩ := h
  obtain ⟨before, es, rfl, hfront, hes⟩ := hfront.exists_of_key
  simpa using hfront.entry entries x hes hk

theorem ends_paren (h : Split (.paren :: around) 0 tokens) :
    Ends around (tokens ++ [.sign .parenClose]) := by
  obtain ⟨_, e, rfl, hfront, he, -⟩ := h
  cases hfront with
  | waiting _ hdone => cases hdone
  | @paren _ before hfront => exact ⟨before, _, by simp, hfront, he.paren⟩

theorem ends_args (h : Split (.args x items :: around) 0 tokens) :
    Ends around (tokens ++ [.sign .parenClose]) := by
  obtain ⟨_, e, rfl, hfront, he, -⟩ := h
  obtain ⟨before, f, es, rfl, hfront, hf, hes⟩ := hfront.exists_of_args
  exact ⟨before, _, by simp, hfront, hf.call (hes _ he.lastItem)⟩

theorem ends_list (h : Split (.list items :: around) 0 tokens) :
    Ends around (tokens ++ [.sign .bracketClose]) := by
  obtain ⟨_, e, rfl, hfront, he, -⟩ := h
  obtain ⟨before, es, rfl, hfront, hes⟩ := hfront.exists_of_list
  exact ⟨before, _, by simp, hfront, .list (hes _ he.lastItem)⟩

theorem ends_index (h : Split (.index x :: around) 0 tokens) :
    Ends around (tokens ++ [.sign .bracketClose]) := by
  obtain ⟨_, e, rfl, hfront, he, -⟩ := h
  cases hfront with
  | waiting _ hdone => cases hdone
  | @index _ _ before e' hfront he' => exact ⟨before, _, by simp, hfront, he'.index he⟩

theorem ends_entry (h : Split (.entry entries x :: around) 0 tokens) :
    Ends around (tokens ++ [.sign .braceClose]) := by
  obtain ⟨_, e, rfl, hfront, he, -⟩ := h
  obtain ⟨before, es, k, rfl, hfront, hes, hk⟩ := hfront.exists_of_entry
  exact ⟨before, _, by simp, hfront, .map (hes _ (hk.lastEntry he))⟩

/-! ### A sign behind a phrase of a level -/

/-- A sign puts the phrase in front of it into the place of a left operand. -/
theorem waiting {pending : Pending} {done : Expr → Expr} {signs : List Token}
    (h : Split around level tokens)
    (hlevel : 1 ≤ level) (hdone : pending.completed? = some (level, done))
    (hphrase : ∀ {a b}, Phrase (.expr level) a → Phrase (.expr (floor (pending :: around))) b →
      Phrase (.expr level) (a ++ (signs ++ b))) :
    InFront (pending :: around) (tokens ++ signs) := by
  obtain ⟨before, a, rfl, hfront, ha, hfloor⟩ := h
  rw [Nat.max_eq_left hlevel] at hfloor
  rw [List.append_assoc]
  refine .waiting hfront hdone hfloor fun b hb => ?_
  rw [List.append_assoc]
  exact hphrase ha hb

theorem binary (op : Operator) (h : Split around op.level tokens) (x : Expr) :
    InFront (.binary op x :: around) (tokens ++ op.signs.map Token.sign) := by
  have hop := op.level_cases
  exact h.waiting (by omega) rfl fun ha hb => .binary op ha hb

theorem test (h : Split around 1 tokens) (hzero : floor around = 0) (x : Expr) :
    InFront (.test x :: around) (tokens ++ [.sign .ifTest]) := by
  obtain ⟨before, a, rfl, hfront, ha, -⟩ := h
  rw [List.append_assoc]
  exact hfront.test x hzero ha

/-- The value of a conditional waits along with its test. -/
theorem otherwise (h : Split (.test x :: around) 1 tokens) :
    InFront (.otherwise x y :: around) (tokens ++ [.sign .elseBranch]) := by
  obtain ⟨_, e, rfl, hfront, he, -⟩ := h
  cases hfront with
  | waiting _ hdone => cases hdone
  | @test _ _ before a hfront hzero ha =>
    have hwait : InFront (.otherwise x y :: around)
        (before ++ (a ++ .sign .ifTest :: (e ++ [.sign .elseBranch]))) :=
      .waiting hfront rfl (Nat.le_of_eq hzero) fun b hb => by simpa using ha.cond he hb
    simpa using hwait

end Split

end

end InFront

namespace ExprState

open InFront (Split Ends)

variable {around : List Pending} {tokens : List Token} {x : Expr} {s s' : ExprState} {t : Token}

/-- **What has been read up to a state.** -/
def Spells : ExprState → List Token → Prop
  | operand around, tokens => InFront around tokens
  | operator _ around, tokens => Ends around tokens
  | afterIs _ around, tokens => ∃ read, tokens = read ++ [.sign .is] ∧ Split around 4 read
  | afterNot _ around, tokens => ∃ read, tokens = read ++ [.sign .not] ∧ Split around 4 read
  | afterDot _ around, tokens => ∃ read, tokens = read ++ [.sign .dot] ∧ Ends around read

/-! ## One step -/

theorem floor_le_three_of_allowsNot (h : allowsNot around = true) : floor around ≤ 3 := by
  rcases around with - | ⟨pending, around⟩
  · exact Nat.zero_le 3
  · cases pending <;> first | exact absurd h Bool.false_ne_true | simp only [floor]; omega

theorem floor_eq_zero_of_allowsConditional (h : allowsConditional around = true)
    (hle : floor around ≤ 1) :
    floor around = 0 := by
  rcases around with - | ⟨pending, around⟩
  · rfl
  · cases pending with
    | test a => exact absurd h Bool.false_ne_true
    | binary op a =>
      have hop := op.level_cases
      simp only [floor] at hle
      omega
    | _ => simp only [floor] at hle ⊢ <;> omega

/-- A token in front of an operand. -/
theorem spells_stepOperand (h : InFront around tokens) (hstep : stepOperand around t = some s) :
    s.Spells (tokens ++ [t]) := by
  have hatom {e : Expr} (hs : some (operator e around) = some s) (he : Phrase .operand [t]) :
      s.Spells (tokens ++ [t]) := by
    obtain rfl := Option.some.inj hs
    exact ⟨tokens, [t], rfl, h, he⟩
  cases t with
  | name n => exact hatom hstep (.name n)
  | int n => exact hatom hstep (.int n)
  | float x => exact hatom hstep (.float x)
  | str s => exact hatom hstep (.str s)
  | sign sign =>
    cases sign with
    | true_ | false_ | none_ => exact hatom hstep (.constant (by decide))
    | parenOpen =>
      obtain rfl := Option.some.inj hstep
      exact h.paren
    | bracketOpen =>
      obtain rfl := Option.some.inj hstep
      exact h.list [] fun _ hrest => hrest
    | braceOpen =>
      obtain rfl := Option.some.inj hstep
      exact h.key [] fun _ hrest => hrest
    | minus =>
      obtain rfl := Option.some.inj hstep
      have hwait : InFront (.neg :: around) (tokens ++ [.sign .minus]) :=
        .waiting h rfl (InFront.floor_le_seven around) fun _ he => he.neg
      exact hwait
    | not =>
      simp only [stepOperand] at hstep
      split at hstep
      · rename_i hallows
        obtain rfl := Option.some.inj hstep
        have hwait : InFront (.not :: around) (tokens ++ [.sign .not]) :=
          .waiting h rfl (floor_le_three_of_allowsNot hallows) fun _ he => he.not
        exact hwait
      · exact absurd hstep.symm (Option.some_ne_none _)
    | bracketClose =>
      simp only [stepOperand] at hstep
      split at hstep
      · obtain rfl := Option.some.inj hstep
        exact h.ends_list
      · exact absurd hstep.symm (Option.some_ne_none _)
    | parenClose =>
      simp only [stepOperand] at hstep
      split at hstep
      · obtain rfl := Option.some.inj hstep
        exact h.ends_args
      · exact absurd hstep.symm (Option.some_ne_none _)
    | braceClose =>
      simp only [stepOperand] at hstep
      split at hstep
      · obtain rfl := Option.some.inj hstep
        exact h.ends_key
      · exact absurd hstep.symm (Option.some_ne_none _)
    | _ => exact absurd hstep.symm (Option.some_ne_none _)

/-- The tokens up to an operand, with the operators completed that a level completes. -/
theorem split_of_ends (h : Ends around tokens) (x : Expr) (k : Nat) (hk : k ≤ 7) :
    Split (reduce k x around).2 k tokens := by
  obtain ⟨before, e, rfl, hfront, he⟩ := h
  exact hfront.reduce hk x he.ofOperand (InFront.floor_le_seven around) hk

theorem signs_of_operator {s : Sign} {op : Operator} (h : operator? s = some op) :
    op.signs.map Token.sign = [.sign s] := by
  cases s <;> cases h <;> rfl

/-- A sign between items or in an entry, behind an operand that is complete. -/
theorem spells_stepSeparator {sign : Sign} (hsign : sign ∈ [.comma, .colon])
    (hzero : Split (reduce 0 x around).2 0 tokens) (hstep : stepSign x around sign = some s) :
    s.Spells (tokens ++ [.sign sign]) := by
  simp only [List.mem_cons, List.not_mem_nil, or_false] at hsign
  rcases hsign with rfl | rfl
  · simp only [stepSign] at hstep
    split at hstep <;> rename_i hheld
    · obtain rfl := Option.some.inj hstep
      rw [hheld] at hzero
      exact hzero.list_comma
    · obtain rfl := Option.some.inj hstep
      rw [hheld] at hzero
      exact hzero.args_comma
    · obtain rfl := Option.some.inj hstep
      rw [hheld] at hzero
      exact hzero.entry_comma
    · exact absurd hstep.symm (Option.some_ne_none _)
  · simp only [stepSign] at hstep
    split at hstep
    · rename_i hheld
      obtain rfl := Option.some.inj hstep
      rw [hheld] at hzero
      exact hzero.key_colon
    · exact absurd hstep.symm (Option.some_ne_none _)

/-- A sign that closes a bracket, behind an operand that is complete. -/
theorem spells_stepClosing {sign : Sign} (hsign : sign ∈ [.parenClose, .bracketClose, .braceClose])
    (hzero : Split (reduce 0 x around).2 0 tokens) (hstep : stepSign x around sign = some s) :
    s.Spells (tokens ++ [.sign sign]) := by
  simp only [List.mem_cons, List.not_mem_nil, or_false] at hsign
  rcases hsign with rfl | rfl | rfl
  · simp only [stepSign] at hstep
    split at hstep <;> rename_i hheld
    · obtain rfl := Option.some.inj hstep
      rw [hheld] at hzero
      exact hzero.ends_paren
    · obtain rfl := Option.some.inj hstep
      rw [hheld] at hzero
      exact hzero.ends_args
    · exact absurd hstep.symm (Option.some_ne_none _)
  · simp only [stepSign] at hstep
    split at hstep <;> rename_i hheld
    · obtain rfl := Option.some.inj hstep
      rw [hheld] at hzero
      exact hzero.ends_list
    · obtain rfl := Option.some.inj hstep
      rw [hheld] at hzero
      exact hzero.ends_index
    · exact absurd hstep.symm (Option.some_ne_none _)
  · simp only [stepSign] at hstep
    split at hstep
    · rename_i hheld
      obtain rfl := Option.some.inj hstep
      rw [hheld] at hzero
      exact hzero.ends_entry
    · exact absurd hstep.symm (Option.some_ne_none _)

/-- A sign behind an operand. -/
theorem spells_stepSign {sign : Sign} (h : Ends around tokens)
    (hstep : stepSign x around sign = some s) :
    s.Spells (tokens ++ [.sign sign]) := by
  have hsplit := split_of_ends h x
  cases hop : operator? sign with
  | some op =>
    rw [stepSign_of_operator hop] at hstep
    obtain rfl := Option.some.inj hstep
    have hlevel := op.level_cases
    rw [← signs_of_operator hop]
    exact (hsplit op.level (by omega)).binary op _
  | none =>
    cases sign with
    | dot =>
      obtain rfl := Option.some.inj hstep
      exact ⟨tokens, rfl, h⟩
    | bracketOpen =>
      obtain rfl := Option.some.inj hstep
      obtain ⟨before, e, rfl, hfront, he⟩ := h
      rw [List.append_assoc]
      exact hfront.index x he
    | parenOpen =>
      obtain rfl := Option.some.inj hstep
      obtain ⟨before, e, rfl, hfront, he⟩ := h
      rw [List.append_assoc]
      exact hfront.args x [] he fun _ hrest => hrest
    | and =>
      obtain rfl := Option.some.inj hstep
      exact (hsplit 2 (by omega)).waiting (by omega) rfl fun ha hb => ha.and hb
    | or =>
      obtain rfl := Option.some.inj hstep
      exact (hsplit 1 (by omega)).waiting (by omega) rfl fun ha hb => ha.or hb
    | not =>
      obtain rfl := Option.some.inj hstep
      exact ⟨tokens, rfl, hsplit 4 (by omega)⟩
    | is =>
      obtain rfl := Option.some.inj hstep
      exact ⟨tokens, rfl, hsplit 4 (by omega)⟩
    | ifTest =>
      have hone := hsplit 1 (by omega)
      simp only [stepSign] at hstep
      split at hstep
      · rename_i hallows
        obtain rfl := Option.some.inj hstep
        obtain ⟨-, -, -, -, -, hfloor⟩ := id hone
        exact hone.test (floor_eq_zero_of_allowsConditional hallows hfloor) _
      · exact absurd hstep.symm (Option.some_ne_none _)
    | elseBranch =>
      have hone := hsplit 1 (by omega)
      simp only [stepSign] at hstep
      split at hstep
      · rename_i hheld
        obtain rfl := Option.some.inj hstep
        rw [hheld] at hone
        exact hone.otherwise
      · exact absurd hstep.symm (Option.some_ne_none _)
    | comma | colon => exact spells_stepSeparator (by decide) (hsplit 0 (by omega)) hstep
    | parenClose | bracketClose | braceClose =>
      exact spells_stepClosing (by decide) (hsplit 0 (by omega)) hstep
    | plus | minus | star | slash | doubleSlash | percent | eq | ne | lt | le | gt | ge | isIn =>
      exact absurd hop (Option.some_ne_none _)
    | _ => exact absurd hstep.symm (Option.some_ne_none _)

/-- **Each step keeps what has been read.** -/
theorem Spells.step (h : s.Spells tokens) (hstep : s.step t = some s') :
    s'.Spells (tokens ++ [t]) := by
  cases s with
  | operand around => exact spells_stepOperand h hstep
  | operator x around =>
    cases t with
    | sign sign => exact spells_stepSign h hstep
    | _ => exact absurd hstep.symm (Option.some_ne_none _)
  | afterIs x around =>
    obtain ⟨read, rfl, hread⟩ := h
    by_cases ht : t = .sign .not
    · subst ht
      obtain rfl := Option.some.inj hstep
      rw [List.append_assoc]
      exact InFront.Split.binary .isNot hread x
    · have hoperand : (afterIs x around).step t = stepOperand (.binary .is x :: around) t := by
        rw [ExprState.step]
        exact ht
      exact spells_stepOperand (InFront.Split.binary .is hread x) (hoperand.symm.trans hstep)
  | afterNot x around =>
    obtain ⟨read, rfl, hread⟩ := h
    cases t with
    | sign sign =>
      cases sign with
      | isIn =>
        obtain rfl := Option.some.inj hstep
        rw [List.append_assoc]
        exact InFront.Split.binary .notIn hread x
      | _ => exact absurd hstep.symm (Option.some_ne_none _)
    | _ => exact absurd hstep.symm (Option.some_ne_none _)
  | afterDot x around =>
    obtain ⟨read, rfl, before, e, rfl, hfront, he⟩ := h
    cases t with
    | name n =>
      obtain rfl := Option.some.inj hstep
      exact ⟨before, _, by simp, hfront, he.member n⟩
    | _ => exact absurd hstep.symm (Option.some_ne_none _)

/-- **What has been read begins an expression.** -/
theorem Spells.exists_rest (h : s.Spells tokens) : ∃ rest, Phrase (.expr 0) (tokens ++ rest) := by
  have hname : Phrase (.expr 7) [.name "a"] := (Phrase.name "a").ofOperand
  cases s with
  | operand around =>
    obtain ⟨rest, hrest⟩ := InFront.exists_rest h hname (InFront.floor_le_seven around)
    exact ⟨_, hrest⟩
  | operator x around =>
    obtain ⟨before, e, rfl, hfront, he⟩ := h
    obtain ⟨rest, hrest⟩ := hfront.exists_rest he.ofOperand (InFront.floor_le_seven around)
    exact ⟨rest, by simpa using hrest⟩
  | afterIs x around =>
    obtain ⟨read, rfl, hread⟩ := h
    obtain ⟨rest, hrest⟩ :=
      (InFront.Split.binary .is hread x).exists_rest hname (InFront.floor_le_seven _)
    exact ⟨_, hrest⟩
  | afterNot x around =>
    obtain ⟨read, rfl, hread⟩ := h
    obtain ⟨rest, hrest⟩ :=
      (InFront.Split.binary .notIn hread x).exists_rest hname (InFront.floor_le_seven _)
    exact ⟨.sign .isIn :: .name "a" :: rest, by simpa [Operator.signs] using hrest⟩
  | afterDot x around =>
    obtain ⟨read, rfl, before, e, rfl, hfront, he⟩ := h
    obtain ⟨rest, hrest⟩ :=
      hfront.exists_rest (he.member "a").ofOperand (InFront.floor_le_seven around)
    exact ⟨.name "a" :: rest, by simpa using hrest⟩

/-- What is read to its end is an expression. -/
theorem Spells.mem_language (h : s.Spells tokens) (hfinish : s.finish.isSome) :
    tokens ∈ Expr.language := by
  cases s with
  | operator x around =>
    have hzero := split_of_ends h x 0 (Nat.zero_le 7)
    simp only [finish] at hfinish
    split at hfinish
    · rename_i hheld
      rw [hheld] at hzero
      obtain ⟨_, e, rfl, hfront, he, -⟩ := hzero
      cases hfront
      exact he
    · exact absurd hfinish Bool.false_ne_true
  | _ => exact absurd hfinish Bool.false_ne_true

end ExprState

/-- **The reader of expressions recognizes the expressions**, and it is never at a dead end. -/
theorem Expr.reader_recognizes : Expr.reader.Recognizes Expr.language := by
  have hstart : ExprState.start.Spells [] := InFront.start
  have hspells {tokens : List Token} {s : ExprState}
      (h : tokens.foldlM Expr.reader.step Expr.reader.start = some s) : s.Spells tokens :=
    Automaton.invariant_of_foldlM (P := ExprState.Spells) ExprState.Spells.step [] hstart h
  constructor
  · ext tokens
    constructor
    · rintro ⟨s, hs, hfinish⟩
      exact (hspells hs).mem_language hfinish
    · exact Phrase.mem_completions
  · rintro s ⟨tokens, htokens⟩
    obtain ⟨rest, hrest⟩ := (hspells htokens).exists_rest
    exact ⟨rest, (Automaton.append_mem_completions htokens).mp (Phrase.mem_completions hrest)⟩

end Inlay
