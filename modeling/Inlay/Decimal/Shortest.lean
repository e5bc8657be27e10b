/-!
# The shortest decimal of a floating-point number

A positive binary64 number is `mantissa * 2 ^ exponent`. The reals that round to it form an
interval around it, whose ends belong to it when the mantissa is even. The shortest decimal is the
point of the coarsest grid of powers of ten that lies in this interval; of two such points on one
grid it is the nearer one. Where both are equally near, whoever writes the number decides.

* `Binary.ofFloat`: the number behind the bits.
* `shortest`: the digits and the power of ten of the shortest decimal.
-/

namespace Inlay.Decimal

/-- A number `mantissa * 2 ^ exponent`. -/
structure Binary where
  mantissa : Nat
  exponent : Int
  deriving DecidableEq, Repr

/-- A number `coefficient * 10 ^ exponent`. -/
structure Scientific where
  coefficient : Nat
  exponent : Int
  deriving DecidableEq, Repr

/-- The least mantissa of a normal float, whose fraction takes 52 bits. -/
def leastNormal : Nat :=
  0x10000000000000

/-- Which of two decimals that are equally near is taken. -/
inductive Tie where
  /-- The greater one. -/
  | up
  /-- The one whose last digit is even. -/
  | even
  deriving DecidableEq, Repr

/-- The magnitude of a finite float. -/
def Binary.ofFloat (x : Float) : Binary :=
  let bits := x.toBits.toNat
  let fraction : Nat := bits % leastNormal
  let field : Nat := bits / leastNormal % 0x800
  if field = 0 then ⟨fraction, -1074⟩ else ⟨fraction + leastNormal, (field : Int) - 1075⟩

/-- A positive rational number, numerator and denominator. -/
structure Ratio where
  num : Nat
  den : Nat
  deriving DecidableEq, Repr

/-- The number `n * 2 ^ e` as a ratio. -/
def Ratio.scaled (n : Nat) (e : Int) : Ratio :=
  ⟨n * Nat.pow 2 e.toNat, Nat.pow 2 (-e).toNat⟩

/-- The ratio divided by `10 ^ k`. -/
def Ratio.perPower (r : Ratio) (k : Int) : Ratio :=
  ⟨r.num * Nat.pow 10 (-k).toNat, r.den * Nat.pow 10 k.toNat⟩

/-- The greatest `k` with `10 ^ k` at most the ratio. The first guess, from the binary lengths, is
at most two too small. -/
def Ratio.decade (r : Ratio) : Int :=
  let guess := ((r.num.log2 : Int) - r.den.log2 - 1) * 30103 / 100000 - 1
  let reaches (k : Int) : Bool := let s := r.perPower k; s.den ≤ s.num
  if reaches (guess + 2) then guess + 2 else if reaches (guess + 1) then guess + 1 else guess

/-- Does `c * 10 ^ k` round to the number? The bounds are given as numerators over the common
denominator of the interval divided by `10 ^ k`. -/
def within (low high den : Nat) (ends : Bool) (c : Nat) : Bool :=
  if ends then low ≤ c * den && c * den ≤ high else low < c * den && c * den < high

/-- Of a point of a grid and the next one, the one nearer to a value. `rest` is how far the value
is above the point, and `step` is the step of the grid. -/
def nearer (tie : Tie) (point rest step : Nat) : Nat :=
  if 2 * rest < step then point
  else if step < 2 * rest then point + 1
  else match tie with
    | .up => point + 1
    | .even => if point % 2 = 0 then point else point + 1

/-- The best point of the grid of step `10 ^ k` that rounds to the number. Numerators count
quarters of the unit of the mantissa. -/
def gridPoint? (tie : Tie) (b : Binary) (k : Int) : Option Nat :=
  let one := (Ratio.scaled 1 (b.exponent - 2)).perPower k
  let value := 4 * b.mantissa * one.num
  let high := value + 2 * one.num
  let low :=
    if b.mantissa = leastNormal ∧ b.exponent ≠ -1074 then value - one.num else value - 2 * one.num
  let ends := b.mantissa % 2 == 0
  let below := value / one.den
  let above := below + 1
  match within low high one.den ends below, within low high one.den ends above with
  | true, true => some (nearer tie below (value - below * one.den) one.den)
  | true, false => some below
  | false, true => some above
  | false, false => none

/-- The first grid with a hit, from the step `10 ^ k` on and over so many finer ones. -/
def firstHit (tie : Tie) (b : Binary) (k : Int) : Nat → Scientific
  | 0 => ⟨b.mantissa, b.exponent⟩
  | fuel + 1 =>
    match gridPoint? tie b k with
    | some c => ⟨c, k⟩
    | none => firstHit tie b (k - 1) fuel

/-- The decimal without the zeros at its end. -/
def Scientific.trimmed (s : Scientific) : Nat → Scientific
  | 0 => s
  | fuel + 1 =>
    if s.coefficient ≠ 0 ∧ s.coefficient % 10 = 0 then
      Scientific.trimmed ⟨s.coefficient / 10, s.exponent + 1⟩ fuel
    else s

/-- The shortest decimal that rounds to the number, zero for zero. Seventeen digits always
suffice. -/
def shortest (tie : Tie) (b : Binary) : Scientific :=
  if b.mantissa = 0 then ⟨0, 0⟩
  else
    let decade := (Ratio.scaled b.mantissa b.exponent).decade
    (firstHit tie b decade 18).trimmed 18

end Inlay.Decimal
