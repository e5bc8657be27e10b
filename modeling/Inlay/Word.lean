/-!
# Integers of 64 bits

The integers of templates are signed words of 64 bits, and no operation on them wraps: a result
that the words cannot hold is refused.

* `word?`: an exact integer as a word, if it fits; `toInt_of_word?`.
* `floatOfWord`: the nearest float.
* `floorQuotient?`, `floorRemainder?`: division rounded down, computed on words.
-/

namespace Inlay

/-- The integer as a word, if 64 bits hold it. -/
def word? (n : Int) : Option Int64 :=
  if Int64.minValue.toInt ≤ n ∧ n ≤ Int64.maxValue.toInt then some (Int64.ofInt n) else none

/-- A word made of an integer has its value. -/
theorem toInt_of_word? {n : Int} {w : Int64} (h : word? n = some w) : w.toInt = n := by
  rw [word?] at h
  split at h
  · rename_i hn
    rw [← Option.some.inj h]
    refine Int64.toInt_ofInt_of_le (by simpa using hn.1) ?_
    have hmax : Int64.maxValue.toInt = 9223372036854775807 := by decide
    omega
  · exact absurd h (by simp)

/-- The float nearest to a word. -/
def floatOfWord (n : Int64) : Float :=
  Float.ofInt n.toInt

/-- Does the quotient of the two words leave the range of words? -/
def quotientOverflows (a b : Int64) : Bool :=
  a == Int64.minValue && b == -1

/-- The quotient rounded down, for a divisor that is not zero. Division of words rounds toward
zero, so a quotient with a remainder and operands of two signs is one too large. -/
def floorQuotient? (a b : Int64) : Option Int64 :=
  if quotientOverflows a b then none
  else
    let q := a / b
    some (if a % b ≠ 0 ∧ (a < 0) ≠ (b < 0) then q - 1 else q)

/-- The remainder that has the sign of the divisor, for a divisor that is not zero. -/
def floorRemainder? (a b : Int64) : Option Int64 :=
  if quotientOverflows a b then none
  else
    let r := a % b
    some (if r ≠ 0 ∧ (r < 0) ≠ (b < 0) then r + b else r)

end Inlay
