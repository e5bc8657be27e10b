import Inlay.Value.Call
import Mathlib

/-!
# Integers are exact or refused

The integers of templates are words, but no operation on them wraps: what comes out is the exact integer,
or an overflow where no word holds it.  Division of words rounds toward zero, so the quotient and the
remainder are corrected where something remains and the signs differ.  What remains is smaller than the
divisor, which is why the corrections never leave the range of words: only the least word divided by minus
one does, before anything is corrected.

* `Fits`, `Value.IsExactly`: the integers that words hold, and exact outcomes.
* `StepsExact`: the operations of division on words, none of which wraps.
* `RoundsDown`: quotient and remainder of division rounded down; `RoundsDown.floor`.
* `Value.integers_exact_or_refused`: all operations on integers.
-/

namespace Inlay

/-! ## Words -/

/-- The integers that 64 bits hold. -/
def Fits (n : Int) : Prop :=
  -2 ^ 63 ≤ n ∧ n < 2 ^ 63

theorem fits_toInt (w : Int64) : Fits w.toInt :=
  ⟨w.le_toInt, w.toInt_lt⟩

theorem word?_of_fits {n : Int} (h : Fits n) : word? n = some (Int64.ofInt n) := by
  have hmin : Int64.minValue.toInt = -2 ^ 63 := by decide
  have hmax : Int64.maxValue.toInt = 2 ^ 63 - 1 := by decide
  obtain ⟨hlow, hhigh⟩ := h
  rw [word?, if_pos ⟨by omega, by omega⟩]

theorem word?_of_not_fits {n : Int} (h : ¬ Fits n) : word? n = none := by
  have hmin : Int64.minValue.toInt = -2 ^ 63 := by decide
  have hmax : Int64.maxValue.toInt = 2 ^ 63 - 1 := by decide
  rw [word?, if_neg]
  rintro ⟨hlow, hhigh⟩
  exact h ⟨by omega, by omega⟩

/-- A sum of words that fits is computed without wrapping. -/
theorem toInt_add_of_fits {a b : Int64} (h : Fits (a.toInt + b.toInt)) :
    (a + b).toInt = a.toInt + b.toInt := by
  obtain ⟨hlow, hhigh⟩ := h
  rw [Int64.toInt_add, Int.bmod_eq_of_le (by omega) (by omega)]

/-- A difference of words that fits is computed without wrapping. -/
theorem toInt_sub_of_fits {a b : Int64} (h : Fits (a.toInt - b.toInt)) :
    (a - b).toInt = a.toInt - b.toInt := by
  obtain ⟨hlow, hhigh⟩ := h
  rw [Int64.toInt_sub, Int.bmod_eq_of_le (by omega) (by omega)]

/-! ## Division rounded toward zero -/

section

variable {a b : Int}

theorem natAbs_tmod_lt (a : Int) (hb : b ≠ 0) : (a.tmod b).natAbs < b.natAbs := by
  rw [Int.natAbs_tmod]
  exact Nat.mod_lt _ (Int.natAbs_pos.mpr hb)

/-- What remains has the sign of the dividend. -/
theorem tmod_neg_iff (h : a.tmod b ≠ 0) : a.tmod b < 0 ↔ a < 0 := by
  constructor
  · intro hneg
    by_contra hpos
    have := Int.tmod_nonneg b (not_lt.mp hpos)
    omega
  · intro hneg
    have hnonneg := Int.tmod_nonneg b (Int.neg_nonneg_of_nonpos hneg.le)
    rw [Int.neg_tmod] at hnonneg
    omega

/-- A quotient with a remainder is smaller than the dividend. -/
theorem natAbs_tdiv_lt (h : a.tmod b ≠ 0) : (a.tdiv b).natAbs < a.natAbs := by
  have hdivides := Int.tmod_add_mul_tdiv a b
  rcases eq_or_ne b 0 with rfl | hb
  · have hmod : a.tmod 0 = a := Int.tmod_zero a
    rw [Int.tdiv_zero]
    omega
  · have hr : 0 < (a.tmod b).natAbs := Int.natAbs_pos.mpr h
    rw [Int.natAbs_tmod] at hr
    have hq : (a.tdiv b).natAbs = a.natAbs / b.natAbs := Int.natAbs_tdiv a b
    have hwhole := Nat.div_add_mod a.natAbs b.natAbs
    have hle : a.natAbs / b.natAbs ≤ b.natAbs * (a.natAbs / b.natAbs) :=
      Nat.le_mul_of_pos_left _ (Int.natAbs_pos.mpr hb)
    omega

end

/-! ## Division rounded down -/

/-- Dividing `a` by `b` gives `q` and leaves `r`, which lies between zero and the divisor. -/
structure RoundsDown (a b q r : Int) : Prop where
  whole : a = b * q + r
  between : 0 ≤ r ∧ r < b ∨ b < r ∧ r ≤ 0

namespace RoundsDown

variable {a b q r : Int}

/-- The quotient is the exact one rounded down. -/
theorem floor (h : RoundsDown a b q r) : ⌊(a : ℚ) / b⌋ = q := by
  have hwhole : (a : ℚ) = b * q + r := by exact_mod_cast h.whole
  rw [Int.floor_eq_iff]
  rcases h.between with ⟨hlow, hhigh⟩ | ⟨hlow, hhigh⟩
  · have hb : (0 : ℚ) < b := by exact_mod_cast hlow.trans_lt hhigh
    have hlow' : (0 : ℚ) ≤ r := by exact_mod_cast hlow
    have hhigh' : (r : ℚ) < b := by exact_mod_cast hhigh
    rw [le_div_iff₀ hb, div_lt_iff₀ hb]
    constructor <;> linarith
  · have hb : (b : ℚ) < 0 := by exact_mod_cast hlow.trans_le hhigh
    have hlow' : (b : ℚ) < r := by exact_mod_cast hlow
    have hhigh' : (r : ℚ) ≤ 0 := by exact_mod_cast hhigh
    rw [le_div_iff_of_neg hb, div_lt_iff_of_neg hb]
    constructor <;> linarith

theorem sign_eq (h : RoundsDown a b q r) : r = 0 ∨ r.sign = b.sign := by
  rcases lt_trichotomy r 0 with hr | hr | hr
  · have hb : b < 0 := by have := h.between; omega
    exact .inr (by rw [Int.sign_eq_neg_one_of_neg hr, Int.sign_eq_neg_one_of_neg hb])
  · exact .inl hr
  · have hb : 0 < b := by have := h.between; omega
    exact .inr (by rw [Int.sign_eq_one_of_pos hr, Int.sign_eq_one_of_pos hb])

theorem abs_lt (h : RoundsDown a b q r) : |r| < |b| := by
  rcases h.between with ⟨hlow, hhigh⟩ | ⟨hlow, hhigh⟩
  · rw [abs_of_nonneg hlow, abs_of_pos (hlow.trans_lt hhigh)]
    exact hhigh
  · rw [abs_of_nonpos hhigh, abs_of_neg (hlow.trans_le hhigh)]
    omega

/-- Quotient and remainder rounded toward zero round down if nothing remains or the signs agree. -/
theorem of_agree (hb : b ≠ 0) (h : a.tmod b = 0 ∨ (a.tmod b < 0 ↔ b < 0)) :
    RoundsDown a b (a.tdiv b) (a.tmod b) := by
  have hlt := natAbs_tmod_lt a hb
  have hwhole := Int.tmod_add_mul_tdiv a b
  exact ⟨by omega, by omega⟩

/-- Otherwise the quotient is one too large. -/
theorem of_differ (hb : b ≠ 0) (hr : a.tmod b ≠ 0) (h : ¬ (a.tmod b < 0 ↔ b < 0)) :
    RoundsDown a b (a.tdiv b - 1) (a.tmod b + b) := by
  have hlt := natAbs_tmod_lt a hb
  have hwhole := Int.tmod_add_mul_tdiv a b
  refine ⟨?_, by omega⟩
  rw [Int.mul_sub, Int.mul_one]
  omega

end RoundsDown

/-- Floor division in terms of the exact quotient: `q` is its floor and `r` the remainder that belongs to
it. -/
structure FloorDivides (a b q r : Int) : Prop where
  quotient : q = ⌊(a : ℚ) / b⌋
  remainder : r = a - b * ⌊(a : ℚ) / b⌋
  sign : r = 0 ∨ r.sign = b.sign
  small : |r| < |b|
  whole : a = b * q + r

theorem RoundsDown.floorDivides {a b q r : Int} (h : RoundsDown a b q r) : FloorDivides a b q r where
  quotient := h.floor.symm
  remainder := by
    have hwhole := h.whole
    rw [h.floor]
    omega
  sign := h.sign_eq
  small := h.abs_lt
  whole := h.whole

/-! ## Division of words -/

section

variable {a b : Int64}

/-- **No operation of the two divisions wraps**: neither the machine's own quotient and remainder, nor the
corrections of them, where they are made. -/
structure StepsExact (a b : Int64) : Prop where
  quotient : (a / b).toInt = a.toInt.tdiv b.toInt
  remainder : (a % b).toInt = a.toInt.tmod b.toInt
  less : a % b ≠ 0 → (a < 0) ≠ (b < 0) → (a / b - 1).toInt = (a / b).toInt - 1
  more : a % b ≠ 0 → (a % b < 0) ≠ (b < 0) → (a % b + b).toInt = (a % b).toInt + b.toInt

theorem quotientOverflows_iff : quotientOverflows a b = true ↔ a = Int64.minValue ∧ b = -1 := by
  simp [quotientOverflows]

theorem toInt_ne_zero (h : a ≠ 0) : a.toInt ≠ 0 := fun hzero =>
  h (Int64.toInt_inj.mp hzero)

theorem neg_iff_toInt : a < 0 ↔ a.toInt < 0 := by
  rw [Int64.lt_iff_toInt_lt, Int64.toInt_zero]

theorem stepsExact (h : quotientOverflows a b = false) : StepsExact a b := by
  have hquotient : (a / b).toInt = a.toInt.tdiv b.toInt := by
    by_cases ha : a = Int64.minValue
    · have hb : b ≠ -1 := by
        rintro rfl
        rw [quotientOverflows_iff.mpr ⟨ha, rfl⟩] at h
        cases h
      exact Int64.toInt_div_of_ne_right a b hb
    · exact Int64.toInt_div_of_ne_left a b ha
  have hremainder : (a % b).toInt = a.toInt.tmod b.toInt := Int64.toInt_mod a b
  refine ⟨hquotient, hremainder, fun hr _ => ?_, fun hr hsign => ?_⟩
  · have hr := toInt_ne_zero hr
    rw [hremainder] at hr
    have hlt := natAbs_tdiv_lt hr
    have ha := fits_toInt a
    refine toInt_sub_of_fits ?_
    rw [hquotient, Int64.toInt_one]
    unfold Fits at ha ⊢
    omega
  · have hr' := fits_toInt (a % b)
    have hb := fits_toInt b
    refine toInt_add_of_fits ?_
    rw [ne_eq, eq_iff_iff, neg_iff_toInt, neg_iff_toInt] at hsign
    unfold Fits at hr' hb ⊢
    omega

/-- **Division of words rounded down**, for every divisor but zero, unless the quotient overflows. -/
theorem exists_floorDivides (hb : b ≠ 0) (h : quotientOverflows a b = false) :
    ∃ q r, floorQuotient? a b = some q ∧ floorRemainder? a b = some r ∧
      RoundsDown a.toInt b.toInt q.toInt r.toInt := by
  have hsteps := stepsExact h
  have hb := toInt_ne_zero hb
  have hzero : a % b = 0 ↔ a.toInt.tmod b.toInt = 0 := by
    rw [← hsteps.remainder, ← Int64.toInt_inj, Int64.toInt_zero]
  rw [floorQuotient?, floorRemainder?, h]
  by_cases hr : a % b = 0
  · refine ⟨a / b, a % b, by simp [hr], by simp [hr], ?_⟩
    rw [hsteps.quotient, hsteps.remainder]
    exact .of_agree hb (.inl (hzero.mp hr))
  · have hmod : a.toInt.tmod b.toInt ≠ 0 := mt hzero.mpr hr
    -- the quotient is corrected by the sign of the dividend, the remainder by its own
    have hsigns : (a % b < 0) = (a < 0) := by
      rw [eq_iff_iff, neg_iff_toInt, neg_iff_toInt, hsteps.remainder]
      exact tmod_neg_iff hmod
    have hsign : ((a < 0) = (b < 0)) ↔ (a.toInt.tmod b.toInt < 0 ↔ b.toInt < 0) := by
      rw [← hsigns, eq_iff_iff, neg_iff_toInt, neg_iff_toInt, hsteps.remainder]
    by_cases hagree : (a < 0) = (b < 0)
    · refine ⟨a / b, a % b, by simp [hagree], by simp [hsigns, hagree], ?_⟩
      rw [hsteps.quotient, hsteps.remainder]
      exact .of_agree hb (.inr (hsign.mp hagree))
    · have hagree' : (a % b < 0) ≠ (b < 0) := by rwa [hsigns]
      have hcorrect : a % b ≠ 0 ∧ (a < 0) ≠ (b < 0) := ⟨hr, hagree⟩
      have hcorrect' : a % b ≠ 0 ∧ (a % b < 0) ≠ (b < 0) := ⟨hr, hagree'⟩
      refine ⟨a / b - 1, a % b + b, congrArg some (if_pos hcorrect),
        congrArg some (if_pos hcorrect'), ?_⟩
      rw [hsteps.less hr hagree, hsteps.more hr hagree', hsteps.quotient, hsteps.remainder]
      exact .of_differ hb hmod (mt hsign.mpr hagree)

end

/-! ## Operators on integers -/

namespace Value

/-- The outcome is a fault of this kind. -/
def Fails (outcome : Except Fault Value) (kind : String) : Prop :=
  ∃ f, outcome = .error f ∧ f.kind = kind

/-- The outcome of an exact computation: the integer if a word holds it, and otherwise an overflow. -/
structure IsExactly (outcome : Except Fault Value) (n : Int) : Prop where
  value : Fits n → ∃ w : Int64, w.toInt = n ∧ outcome = .ok (int w)
  overflow : ¬ Fits n → Fails outcome "OverflowError"

theorem isExactly_exactly (n : Int) : IsExactly (exactly n) n := by
  refine ⟨fun h => ?_, fun h => ?_⟩
  · refine ⟨Int64.ofInt n, Int64.toInt_ofInt_of_le h.1 h.2, ?_⟩
    rw [exactly, word?_of_fits h]
  · refine ⟨.overflow, ?_, rfl⟩
    rw [exactly, word?_of_not_fits h]

/-- What `//` and `%` give for two integers. -/
structure DividesDown (limit : Nat) (a b : Int64) : Prop where
  /-- Nothing is divided by zero. -/
  zero : b = 0 → Fails (binary limit .floorDiv (int a) (int b)) "ZeroDivisionError" ∧
    Fails (binary limit .mod (int a) (int b)) "ZeroDivisionError"
  /-- The least word divided by minus one overflows. -/
  overflow : a = Int64.minValue → b = -1 →
    Fails (binary limit .floorDiv (int a) (int b)) "OverflowError" ∧
      Fails (binary limit .mod (int a) (int b)) "OverflowError"
  /-- All other words have a quotient and a remainder. -/
  divides : b ≠ 0 → ¬ (a = Int64.minValue ∧ b = -1) → ∃ q r : Int64,
    binary limit .floorDiv (int a) (int b) = .ok (int q) ∧
      binary limit .mod (int a) (int b) = .ok (int r) ∧
        FloorDivides a.toInt b.toInt q.toInt r.toInt
  /-- They are computed without wrapping. -/
  steps : b ≠ 0 → ¬ (a = Int64.minValue ∧ b = -1) → StepsExact a b

theorem dividesDown (limit : Nat) (a b : Int64) : DividesDown limit a b where
  zero hb := by
    subst hb
    exact ⟨⟨.divisionByZero, rfl, rfl⟩, .divisionByZero, rfl, rfl⟩
  overflow ha hb := by
    have hover := quotientOverflows_iff.mpr ⟨ha, hb⟩
    have hb : b ≠ 0 := by
      subst hb
      decide
    refine ⟨⟨.overflow, ?_, rfl⟩, .overflow, ?_, rfl⟩
    · simp [binary, floorDiv, hb, floorQuotient?, hover, ofWord?]
    · simp [binary, mod, hb, floorRemainder?, hover, ofWord?]
  divides hb h := by
    have hover := Bool.eq_false_iff.mpr (mt quotientOverflows_iff.mp h)
    obtain ⟨q, r, hq, hr, hdown⟩ := exists_floorDivides hb hover
    refine ⟨q, r, ?_, ?_, hdown.floorDivides⟩
    · simp [binary, floorDiv, hb, hq, ofWord?]
    · simp [binary, mod, hb, hr, ofWord?]
  steps _ h := stepsExact (Bool.eq_false_iff.mpr (mt quotientOverflows_iff.mp h))

/-- **Integer arithmetic is exact or refused**, whatever the limit on sequences: sums, differences,
products, negatives and magnitudes are the exact ones or overflow, and division rounds down. -/
theorem integers_exact_or_refused (limit : Nat) (a b : Int64) :
    IsExactly (binary limit .add (int a) (int b)) (a.toInt + b.toInt) ∧
      IsExactly (binary limit .sub (int a) (int b)) (a.toInt - b.toInt) ∧
      IsExactly (binary limit .mul (int a) (int b)) (a.toInt * b.toInt) ∧
      IsExactly (negate (int a)) (-a.toInt) ∧
      IsExactly (Builtin.abs.call limit [int a]) |a.toInt| ∧
      DividesDown limit a b := by
  refine ⟨isExactly_exactly _, isExactly_exactly _, isExactly_exactly _, isExactly_exactly _, ?_,
    dividesDown limit a b⟩
  rw [Int.abs_eq_natAbs]
  exact isExactly_exactly _

/-- The least word has no magnitude, and leaves nothing when it is divided by minus one, but the two
divisions overflow. -/
example : (Builtin.abs.call 0 [int Int64.minValue]) = .error .overflow ∧
    binary 0 .mod (int Int64.minValue) (int (-1)) = .error .overflow ∧
      binary 0 .mod (int 7) (int (-2)) = .ok (int (-1)) :=
  ⟨rfl, rfl, rfl⟩

end Value

end Inlay
