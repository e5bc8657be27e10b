import Inlay.Proofs.Value.Integers

/-!
# Truth values in arithmetic

A truth value counts as zero or one.  The operators come to their operands in three ways: sums, differences
and products take them as integers, quotients take them as floats, and the two operators that round down look
for two integers first.  The first two ways treat a truth value as the integer that it counts as.  The third
one does not: it takes a truth value for no integer, so that one among the operands makes the result a float,
and the results agree only where there is none, by a divisor that counts as zero.

* `Value.counted`: the integer in place of a truth value; `Value.asInt?_counted`, `Value.asFloat?_counted`.
* `Value.arithmetic_counted`, `Value.dividing_counted`: the first two ways.
* `Value.dividing_ne_int`, `Value.exists_rounded`: the third way.
* `Value.counts_truths`: all operators, and `Value.half_of_truth` the difference.
-/

namespace Inlay

namespace Value

/-- Integers and truth values. -/
inductive Integral : Value → Prop
  | word (n : Int64) : Integral (int n)
  | truth (b : Bool) : Integral (bool b)

/-- The value with a truth value replaced by the integer that it counts as. -/
def counted : Value → Value
  | bool b => int (ofTruth b)
  | v => v

/-! ## Operands -/

theorem asInt?_counted (v : Value) : (counted v).asInt? = v.asInt? := by
  cases v <;> rfl

/-- Zero and one are the same floats whether they come from an integer or from a truth value. -/
theorem asFloat?_counted (v : Value) : (counted v).asFloat? = v.asFloat? := by
  cases v with
  | bool b => cases b <;> rfl
  | _ => rfl

section

variable {a b v : Value}

theorem Integral.exists_counted (h : Integral v) : ∃ n, counted v = int n ∧ v.asInt? = some n := by
  cases h with
  | word n => exact ⟨n, rfl, rfl⟩
  | truth b => exact ⟨ofTruth b, rfl, rfl⟩

theorem Integral.exists_asFloat? (h : Integral v) : ∃ x, v.asFloat? = some x := by
  cases h with
  | word n => exact ⟨floatOfWord n, rfl⟩
  | truth b => exact ⟨if b then 1.0 else 0.0, rfl⟩

/-- An operand that counts as zero is zero as a float too. -/
theorem asFloat?_of_counted_zero (h : counted v = int 0) : v.asFloat? = some 0.0 := by
  rw [← asFloat?_counted, h]
  rfl

/-! ## Operands taken as integers, or as floats -/

theorem arithmetic_counted (ha : Integral a) (hb : Integral b) (op : Operator) (onInts : Int → Int → Int)
    (onFloats : Float → Float → Float) :
    arithmetic op onInts onFloats (counted a) (counted b) = arithmetic op onInts onFloats a b := by
  obtain ⟨m, -, hm⟩ := ha.exists_counted
  obtain ⟨n, -, hn⟩ := hb.exists_counted
  rw [arithmetic, arithmetic, asInt?_counted, asInt?_counted, hm, hn]

theorem dividing_counted (ha : Integral a) (hb : Integral b) (op : Operator)
    (onFloats : Float → Float → Float) :
    dividing op onFloats (counted a) (counted b) = dividing op onFloats a b := by
  obtain ⟨x, hx⟩ := ha.exists_asFloat?
  obtain ⟨y, hy⟩ := hb.exists_asFloat?
  rw [dividing, dividing, floatOperands, floatOperands, asFloat?_counted, asFloat?_counted, hx, hy]

theorem Integral.counted (h : Integral v) : Integral (counted v) := by
  cases h with
  | word n => exact .word n
  | truth b => exact .word (ofTruth b)

/-- Nothing but numbers is added. -/
theorem add_of_integral (limit : ℕ) (ha : Integral a) (hb : Integral b) :
    add limit a b = arithmetic .add (· + ·) (· + ·) a b := by
  cases ha <;> cases hb <;> rfl

/-- Nothing is repeated. -/
theorem mul_of_integral (limit : ℕ) (ha : Integral a) (hb : Integral b) :
    mul limit a b = arithmetic .mul (· * ·) (· * ·) a b := by
  cases ha <;> cases hb <;> rfl

/-! ## Operators that round down -/

/-- Both operands are integers themselves. -/
def BothInts (a b : Value) : Prop :=
  counted a = a ∧ counted b = b

/-- An operator that rounds down takes operands of which one is a truth value as floats. -/
theorem rounded_of_not_bothInts (ha : Integral a) (hb : Integral b) (h : ¬ BothInts a b) :
    floorDiv a b = dividing .floorDiv (fun x y => (x / y).floor) a b ∧
      mod a b = dividing .mod (fun x y => x - y * (x / y).floor) a b := by
  cases ha with
  | truth p => exact ⟨rfl, rfl⟩
  | word m =>
    cases hb with
    | truth q => exact ⟨rfl, rfl⟩
    | word n => exact absurd ⟨rfl, rfl⟩ h

theorem dividing_of_zero (ha : Integral a) (hzero : counted b = int 0) (op : Operator)
    (onFloats : Float → Float → Float) : dividing op onFloats a b = .error .divisionByZero := by
  obtain ⟨x, hx⟩ := ha.exists_asFloat?
  rw [dividing, floatOperands, hx, asFloat?_of_counted_zero hzero]
  rfl

/-- What is taken as floats does not give an integer. -/
theorem dividing_ne_int (ha : Integral a) (hb : Integral b) (op : Operator)
    (onFloats : Float → Float → Float) (q : Int64) : dividing op onFloats a b ≠ .ok (int q) := by
  obtain ⟨x, hx⟩ := ha.exists_asFloat?
  obtain ⟨y, hy⟩ := hb.exists_asFloat?
  rw [dividing, floatOperands, hx, hy]
  intro h
  by_cases hzero : (y == 0.0) = true
  · simp [bind, Except.bind, hzero, throw, throwThe, MonadExceptOf.throw] at h
  · simp [bind, Except.bind, hzero, pure, Except.pure] at h

/-- No truth value counts as one of the two integers whose quotient overflows. -/
theorem ofTruth_ne : ∀ p : Bool, ofTruth p ≠ Int64.minValue ∧ ofTruth p ≠ -1 := by
  decide

/-- The integers that operands count as do not overflow if one of them comes from a truth value. -/
theorem exists_rounded (limit : ℕ) (ha : Integral a) (hb : Integral b) (h : ¬ BothInts a b)
    (hzero : counted b ≠ int 0) : ∃ q r,
      binary limit .floorDiv (counted a) (counted b) = .ok (int q) ∧
        binary limit .mod (counted a) (counted b) = .ok (int r) := by
  obtain ⟨m, hm, -⟩ := ha.exists_counted
  obtain ⟨n, hn, -⟩ := hb.exists_counted
  have hne : n ≠ 0 := by
    rintro rfl
    exact hzero hn
  have hsmall : ¬ (m = Int64.minValue ∧ n = -1) := by
    rintro ⟨rfl, rfl⟩
    cases ha with
    | truth p => exact (ofTruth_ne p).1 (Value.int.inj hm)
    | word m =>
      cases hb with
      | truth q => exact (ofTruth_ne q).2 (Value.int.inj hn)
      | word n => exact h ⟨rfl, rfl⟩
  obtain ⟨q, r, hq, hr, -⟩ := (dividesDown limit m n).divides hne hsmall
  rw [hm, hn]
  exact ⟨q, r, hq, hr⟩

/-! ## All operators -/

/-- What becomes of the outcome for two operands if truth values are replaced by the integers that they
count as. -/
structure CountsTruths (limit : ℕ) (a b : Value) : Prop where
  /-- Sums, differences, products and quotients are the same. -/
  same (op : Operator) (hop : op = .add ∨ op = .sub ∨ op = .mul ∨ op = .div) :
    binary limit op (counted a) (counted b) = binary limit op a b
  /-- What is rounded down is the same if nothing is replaced, or if there is nothing to divide by, and not
  in any other case. -/
  rounded (op : Operator) (hop : op = .floorDiv ∨ op = .mod) :
    binary limit op (counted a) (counted b) = binary limit op a b ↔ BothInts a b ∨ counted b = int 0
  /-- In the other cases the integers give an integer, and the operands themselves none. -/
  differs (op : Operator) (hop : op = .floorDiv ∨ op = .mod) (h : ¬ BothInts a b)
    (hzero : counted b ≠ int 0) : (∃ q, binary limit op (counted a) (counted b) = .ok (int q)) ∧
      ∀ q, binary limit op a b ≠ .ok (int q)

theorem binary_counted (limit : ℕ) (ha : Integral a) (hb : Integral b) {op : Operator}
    (hop : op = .add ∨ op = .sub ∨ op = .mul ∨ op = .div) :
    binary limit op (counted a) (counted b) = binary limit op a b := by
  rcases hop with rfl | rfl | rfl | rfl
  · show add limit (counted a) (counted b) = add limit a b
    rw [add_of_integral limit ha.counted hb.counted, add_of_integral limit ha hb, arithmetic_counted ha hb]
  · exact arithmetic_counted ha hb _ _ _
  · show mul limit (counted a) (counted b) = mul limit a b
    rw [mul_of_integral limit ha.counted hb.counted, mul_of_integral limit ha hb, arithmetic_counted ha hb]
  · exact dividing_counted ha hb _ _

theorem rounded_of_zero (limit : ℕ) (ha : Integral a) (hb : Integral b) (hzero : counted b = int 0)
    {op : Operator} (hop : op = .floorDiv ∨ op = .mod) :
    binary limit op (counted a) (counted b) = binary limit op a b := by
  by_cases h : BothInts a b
  · rw [h.1, h.2]
  · obtain ⟨hdiv, hmod⟩ := rounded_of_not_bothInts ha hb h
    obtain ⟨m, hm, -⟩ := ha.exists_counted
    rcases hop with rfl | rfl
    · show floorDiv (counted a) (counted b) = floorDiv a b
      rw [hdiv, dividing_of_zero ha hzero, hm, hzero]
      rfl
    · show mod (counted a) (counted b) = mod a b
      rw [hmod, dividing_of_zero ha hzero, hm, hzero]
      rfl

theorem rounded_differs (limit : ℕ) (ha : Integral a) (hb : Integral b) (h : ¬ BothInts a b)
    (hzero : counted b ≠ int 0) {op : Operator} (hop : op = .floorDiv ∨ op = .mod) :
    (∃ q, binary limit op (counted a) (counted b) = .ok (int q)) ∧
      ∀ q, binary limit op a b ≠ .ok (int q) := by
  obtain ⟨q, r, hq, hr⟩ := exists_rounded limit ha hb h hzero
  obtain ⟨hdiv, hmod⟩ := rounded_of_not_bothInts ha hb h
  rcases hop with rfl | rfl
  · refine ⟨⟨q, hq⟩, fun p hp => ?_⟩
    rw [binary, hdiv] at hp
    exact dividing_ne_int ha hb _ _ p hp
  · refine ⟨⟨r, hr⟩, fun p hp => ?_⟩
    rw [binary, hmod] at hp
    exact dividing_ne_int ha hb _ _ p hp

/-- **Truth values count as zero and one** in sums, differences, products and quotients, and in what is
rounded down just if the divisor counts as zero. -/
theorem counts_truths (limit : ℕ) (ha : Integral a) (hb : Integral b) : CountsTruths limit a b where
  same _ hop := binary_counted limit ha hb hop
  rounded op hop := by
    constructor
    · intro heq
      by_contra hnot
      obtain ⟨hints, hzero⟩ := not_or.mp hnot
      obtain ⟨⟨q, hq⟩, hne⟩ := rounded_differs limit ha hb hints hzero hop
      exact hne q (heq ▸ hq)
    · rintro (h | hzero)
      · rw [h.1, h.2]
      · exact rounded_of_zero limit ha hb hzero hop
  differs _ hop h hzero := rounded_differs limit ha hb h hzero hop

end

/-- A truth value divided by another one, each of which counts as one. -/
theorem counts_truths_of_ones : Integral (bool true) ∧ CountsTruths 0 (bool true) (bool true) ∧
    binary 0 .add (bool true) (bool true) = .ok (int 2) ∧
      ∀ q, binary 0 .floorDiv (bool true) (bool true) ≠ .ok (int q) := by
  have h := counts_truths 0 (.truth true) (.truth true)
  exact ⟨.truth true, h, rfl, (h.differs .floorDiv (.inl rfl) (by simp [BothInts, counted])
    (by simp [counted, ofTruth])).2⟩

/-- One divided by two and rounded down is an integer, and a truth value divided by two is a float. -/
theorem half_of_truth : binary 0 .floorDiv (int 1) (int 2) = .ok (int 0) ∧
    (∃ x, binary 0 .floorDiv (bool true) (int 2) = .ok (float x)) ∧
      binary 0 .mod (int 1) (int 2) = .ok (int 1) ∧
        ∃ x, binary 0 .mod (bool true) (int 2) = .ok (float x) :=
  ⟨rfl, ⟨_, rfl⟩, rfl, _, rfl⟩

end Value

end Inlay
