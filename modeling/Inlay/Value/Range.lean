import Inlay.Word
import Inlay.Value.Basic

/-!
# Ranges

The whole numbers from a start by a step to a stop, which is not reached. How many there are is
computed beforehand and exactly, so that a range that would be too long is refused before it is
built.

* `Range.count`: how many numbers the range has.
* `Range.collect`: the numbers.
-/

namespace Inlay

open Value

namespace Range

/-- How many numbers a range has. -/
def count (start stop step : Int64) : Nat :=
  let span := if 0 < step then stop.toInt - start.toInt else start.toInt - stop.toInt
  if 0 < span then ((span + step.toInt.natAbs - 1) / step.toInt.natAbs).toNat else 0

/-- Is the number before the stop? -/
def before (stop step n : Int64) : Bool :=
  (0 < step && n < stop) || (step < 0 && stop < n)

set_option linter.unusedVariables false in
/-- The numbers of a range from `n` on, in front of which stand those found so far, the last one
first. A step that leaves the range of words ends the range, as it leaves every range. -/
def collect (stop step : Int64) (found : List Value) (n : Int64) : List Value :=
  if h : before stop step n then
    match hw : word? (n.toInt + step.toInt) with
    | some next => collect stop step (int n :: found) next
    | none => (int n :: found).reverse
  else found.reverse
termination_by
  if 0 < step then (stop.toInt - n.toInt).toNat else (n.toInt - stop.toInt).toNat
decreasing_by
  have hnext : next.toInt = n.toInt + step.toInt := toInt_of_word? hw
  simp only [before, Bool.or_eq_true, Bool.and_eq_true, decide_eq_true_eq, Int64.lt_iff_toInt_lt,
    Int64.toInt_zero] at h ⊢
  split <;> omega

end Range

end Inlay
