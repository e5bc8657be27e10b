import Inlay.Proofs.Statement.Growth
import Inlay.Proofs.Value.Sequences

/-!
# Ranges are exact at every bound

How many numbers a range has is computed beforehand, by a division rounded up, and the numbers are collected
by a loop on words that knows nothing of that count and ends early where the step would leave the range of
words.  Both follow one rule in exact integers: the range reaches its `k`-th number as long as that number
lies before the stop.

* `Range.Reaches`: the rule.
* `Range.lt_count_iff`: the count counts what the rule reaches.
* `Range.collect_eq`: the loop collects as many numbers as were counted, and these are exact.
* `Value.range_exact`: `range` under a limit.
-/

namespace Inlay

open Value

namespace Range

/-- The range reaches its `k`-th number: it lies before the stop, in the direction of the step. -/
def Reaches (start stop step : Int) (k : ℕ) : Prop :=
  0 < step ∧ start + k * step < stop ∨ step < 0 ∧ stop < start + k * step

/-- The exact numbers of a range, `n` of them. -/
def numbers (start step : Int) (n : ℕ) : List Int :=
  (List.range n).map fun k : ℕ => start + k * step

@[simp] theorem length_numbers (start step : Int) (n : ℕ) : (numbers start step n).length = n := by
  rw [numbers, List.length_map, List.length_range]

theorem numbers_succ (start step : Int) (n : ℕ) :
    numbers start step (n + 1) = start :: numbers (start + step) step n := by
  rw [numbers, numbers, List.range_succ_eq_map, List.map_cons, List.map_map]
  congr 1
  · simp
  · refine List.map_congr_left fun k _ => ?_
    simp only [Function.comp, Nat.succ_eq_add_one]
    push_cast
    ring

section

variable {start stop step : Int} {k : ℕ}

/-- From the second number on a range is the range that starts there. -/
theorem reaches_succ_iff : Reaches start stop step (k + 1) ↔ Reaches (start + step) stop step k := by
  have h : start + (k + 1 : ℕ) * step = start + step + k * step := by
    push_cast
    ring
  rw [Reaches, Reaches, h]

/-- A number that no word holds lies behind every stop. -/
theorem not_reaches_one (hstart : Fits start) (hstop : Fits stop) (h : ¬ Fits (start + step)) :
    ¬ Reaches start stop step 1 := by
  unfold Fits at hstart hstop h
  unfold Reaches
  omega

/-- A quotient rounded up counts the multiples of the divisor below a number. -/
theorem lt_ceil_iff {span d : Int} (hd : 0 < d) :
    k < (if 0 < span then ((span + d - 1) / d).toNat else 0) ↔ k * d < span := by
  split
  · rw [Int.lt_toNat, ← Int.add_one_le_iff, Int.le_ediv_iff_mul_le hd, Int.add_mul]
    omega
  · have := Int.mul_nonneg (Int.natCast_nonneg k) hd.le
    omega

end

section

variable {start stop step : Int64}

/-- **The count counts what the range reaches.** -/
theorem lt_count_iff (hstep : step ≠ 0) (k : ℕ) :
    k < count start stop step ↔ Reaches start.toInt stop.toInt step.toInt k := by
  have hstep := toInt_ne_zero hstep
  have hpos : 0 < step ↔ 0 < step.toInt := by rw [Int64.lt_iff_toInt_lt, Int64.toInt_zero]
  rw [count, lt_ceil_iff (by omega), Reaches]
  rcases Int.lt_or_gt_of_ne hstep with hdown | hup
  · rw [if_neg (mt hpos.mp hdown.not_gt), Int.ofNat_natAbs_of_nonpos hdown.le, Int.mul_neg]
    omega
  · rw [if_pos (hpos.mpr hup), Int.natAbs_of_nonneg hup.le]
    omega

variable (start stop step) in
/-- The places in a range, counted from zero, that hold a number. -/
def reached : Set ℕ :=
  {k | Reaches start.toInt stop.toInt step.toInt k}

theorem reached_eq (hstep : step ≠ 0) :
    reached start stop step = ↑(Finset.range (count start stop step)) := by
  ext k
  rw [Finset.mem_coe, Finset.mem_range, lt_count_iff hstep]
  rfl

theorem ncard_reached (hstep : step ≠ 0) : (reached start stop step).ncard = count start stop step := by
  rw [reached_eq hstep, Set.ncard_coe_finset, Finset.card_range]

theorem before_iff {n : Int64} :
    before stop step n = true ↔ Reaches n.toInt stop.toInt step.toInt 0 := by
  simp [before, Reaches, Int64.lt_iff_toInt_lt]

/-! ## One turn of the loop -/

/-- A number that is not before the stop ends the range. -/
theorem count_of_not_before (hstep : step ≠ 0) (h : ¬ before stop step start = true) :
    count start stop step = 0 := by
  have hzero := mt (lt_count_iff hstep 0).mp (mt before_iff.mpr h)
  omega

/-- A number whose successor is no word is the last one. -/
theorem count_of_not_fits (hstep : step ≠ 0) (h : before stop step start = true)
    (hnext : ¬ Fits (start.toInt + step.toInt)) : count start stop step = 1 := by
  have hzero := (lt_count_iff hstep 0).mpr (before_iff.mp h)
  have hone := mt (lt_count_iff hstep 1).mp (not_reaches_one (fits_toInt start) (fits_toInt stop) hnext)
  omega

/-- Any other number is followed by the range that starts at its successor. -/
theorem count_of_next (hstep : step ≠ 0) (h : before stop step start = true) {next : Int64}
    (hnext : next.toInt = start.toInt + step.toInt) :
    count start stop step = count next stop step + 1 := by
  have hzero := (lt_count_iff hstep 0).mpr (before_iff.mp h)
  have hshift (k : ℕ) : k < count next stop step ↔ k + 1 < count start stop step := by
    rw [lt_count_iff hstep, lt_count_iff hstep, hnext, reaches_succ_iff]
  have hlast := hshift (count next stop step)
  have hprevious := hshift (count next stop step - 1)
  omega

variable (stop) in
/-- **The loop collects exactly the numbers that were counted**, whatever was found before, and each of them
is the exact number: where the step leaves the range of words no number is missing. -/
theorem collect_eq (hstep : step ≠ 0) (found : List Value) (start : Int64) :
    ∃ words : List Int64, collect stop step found start = found.reverse ++ words.map int ∧
      words.map Int64.toInt = numbers start.toInt step.toInt (count start stop step) := by
  fun_induction collect stop step found start with
  | case1 found start hbefore next hnext ih =>
    have hexact := toInt_of_word? hnext
    obtain ⟨words, hcollect, hwords⟩ := ih
    refine ⟨start :: words, ?_, ?_⟩
    · rw [hcollect, List.reverse_cons, List.append_assoc, List.singleton_append, List.map_cons]
    · rw [count_of_next hstep hbefore hexact, numbers_succ, List.map_cons, hwords, hexact]
  | case2 found start hbefore hnext =>
    have hout : ¬ Fits (start.toInt + step.toInt) := by
      intro hfits
      rw [word?_of_fits hfits] at hnext
      cases hnext
    refine ⟨[start], List.reverse_cons, ?_⟩
    rw [count_of_not_fits hstep hbefore hout, numbers_succ]
    rfl
  | case3 found start hbefore =>
    refine ⟨[], (List.append_nil _).symm, ?_⟩
    rw [count_of_not_before hstep hbefore]
    rfl

theorem length_collect (hstep : step ≠ 0) :
    (collect stop step [] start).length = count start stop step := by
  obtain ⟨words, hcollect, hwords⟩ := collect_eq stop hstep [] start
  have hlength := congrArg List.length hwords
  rw [List.length_map, length_numbers] at hlength
  rw [hcollect, List.reverse_nil, List.nil_append, List.length_map, hlength]

end

end Range

namespace Value

open Range

/-- A range that is built was counted and collected, within the limit. -/
theorem eq_collect_of_eq_ok {limit : Nat} {start stop step : Int64} {v : Value}
    (h : (do
      if step = 0 then throw Fault.zeroStep
      checkLength limit (count start stop step)
      return list (collect stop step [] start)) = Except.ok v) :
    step ≠ 0 ∧ count start stop step ≤ limit ∧ v = list (collect stop step [] start) := by
  by_cases hstep : step = 0
  · rw [if_pos hstep] at h
    cases h
  · rw [if_neg hstep] at h
    refine ⟨hstep, ?_⟩
    rw [checkLength] at h
    split at h
    · rename_i hlimit
      cases h
      exact ⟨hlimit, rfl⟩
    · cases h

/-- So is whatever `range` returns, for any arguments. -/
theorem wholeNumbers_eq_ok {limit : Nat} {args : List Value} {v : Value}
    (h : wholeNumbers limit args = .ok v) : ∃ start stop step : Int64, step ≠ 0 ∧
      count start stop step ≤ limit ∧ v = list (collect stop step [] start) := by
  obtain ⟨-, -, h⟩ := bind_eq_ok_iff.mp h
  obtain ⟨words, -, h⟩ := bind_eq_ok_iff.mp h
  rcases words with _ | ⟨stop, _ | ⟨stop', _ | ⟨step, rest⟩⟩⟩ <;> exact ⟨_, _, _, eq_collect_of_eq_ok h⟩

theorem extent_le_of_range {limit : Nat} {args : List Value} {v : Value}
    (h : Builtin.range.call limit args = .ok v) : v.extent ≤ limit := by
  obtain ⟨start, stop, step, hstep, hlimit, rfl⟩ := wholeNumbers_eq_ok h
  rwa [extent, length_collect hstep]

/-- `range` of three words, the last of which is not zero. -/
theorem limited_range (limit : Nat) {start stop step : Int64} (hstep : step ≠ 0) :
    Limited limit (count start stop step) (Builtin.range.call limit [int start, int stop, int step])
      (list (collect stop step [] start)) := by
  have hcall : Builtin.range.call limit [int start, int stop, int step] =
      (do checkLength limit (count start stop step); return list (collect stop step [] start)) := by
    simp [Builtin.call, wholeNumbers, checkArity, hstep, bind, Except.bind, pure, Except.pure]
  rw [hcall]
  exact limited_checkLength _ _ _

/-- What `range` gives for a start, a stop and a step under a limit. -/
structure RangesExactly (limit : Nat) (start stop step : Int64) : Prop where
  /-- No range goes by steps of zero. -/
  zero : step = 0 → Fails (Builtin.range.call limit [int start, int stop, int step]) "ValueError"
  /-- Any other range has an end. -/
  finite : step ≠ 0 → (reached start stop step).Finite
  /-- What is counted beforehand is how many numbers it holds. -/
  counted : step ≠ 0 → count start stop step = (reached start stop step).ncard
  /-- The loop collects as many as were counted, with or without the limit. -/
  collected : step ≠ 0 → (collect stop step [] start).length = count start stop step
  /-- Within the limit the list holds the exact numbers. -/
  exact : step ≠ 0 → (reached start stop step).ncard ≤ limit → ∃ words : List Int64,
    Builtin.range.call limit [int start, int stop, int step] = .ok (list (words.map int)) ∧
      words.map Int64.toInt = numbers start.toInt step.toInt (reached start stop step).ncard
  /-- A longer range is refused. -/
  refused : step ≠ 0 → limit < (reached start stop step).ncard →
    Fails (Builtin.range.call limit [int start, int stop, int step]) "MemoryError"

theorem rangesExactly (limit : Nat) (start stop step : Int64) : RangesExactly limit start stop step where
  zero hstep := by
    subst hstep
    exact ⟨.zeroStep, rfl, rfl⟩
  finite hstep := by
    rw [reached_eq hstep]
    exact Finset.finite_toSet _
  counted hstep := (ncard_reached hstep).symm
  collected := length_collect
  exact hstep hlimit := by
    rw [ncard_reached hstep] at hlimit ⊢
    obtain ⟨words, hcollect, hwords⟩ := collect_eq stop hstep [] start
    rw [List.reverse_nil, List.nil_append] at hcollect
    exact ⟨words, hcollect ▸ (limited_range limit hstep).built hlimit, hwords⟩
  refused hstep hlimit := by
    rw [ncard_reached hstep] at hlimit
    exact (limited_range limit hstep).refused hlimit

/-- **A range is exact at every bound**, for all words and every limit; without a step it goes by ones, and
without a start it begins at zero. -/
theorem range_exact (limit : Nat) (start stop step : Int64) :
    RangesExactly limit start stop step ∧
      Builtin.range.call limit [int stop] = Builtin.range.call limit [int 0, int stop, int 1] ∧
      Builtin.range.call limit [int start, int stop] =
        Builtin.range.call limit [int start, int stop, int 1] :=
  ⟨rangesExactly limit start stop step, rfl, rfl⟩

/-- The last step of this range would leave the range of words. -/
example : Builtin.range.call 2 [int Int64.maxValue, int Int64.minValue, int Int64.minValue] =
    .ok (list [int Int64.maxValue, int (-1)]) := by
  cbv

end Value

end Inlay
