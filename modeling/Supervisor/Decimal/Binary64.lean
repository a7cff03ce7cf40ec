/-
  Numbers of 64 bits with a binary point.

  * `Binary64` is a finite one, `mantissa · 2 ^ exponent` with a sign;
  * `Binary64.ofDecimal?` is the one nearest to a decimal `digits · 10 ^ scale`,
    a tie going to the even mantissa, and `none` beyond the largest.
-/

namespace Supervisor

/-- A finite number `mantissa · 2 ^ exponent`, negated if `negative`.  The
    mantissa is below `2 ^ 53` and the exponent at least `-1074`. -/
structure Binary64 where
  negative : Bool
  mantissa : Nat
  exponent : Int
  deriving DecidableEq

/-- `base ^ e` as a fraction. -/
def powerFraction (base : Nat) (e : Int) : Nat × Nat :=
  if 0 ≤ e then (Nat.pow base e.toNat, 1) else (1, Nat.pow base (-e).toNat)

/-- The whole number nearest to a fraction, a tie going to the even one. -/
def roundToEven (num den : Nat) : Nat :=
  let q := num / den
  let r := num % den
  if 2 * r < den then q
  else if den < 2 * r then q + 1
  else if q % 2 = 0 then q else q + 1

namespace Binary64

/-- The least exponent. -/
def leastExponent : Int := -1074

/-- The greatest exponent of a number with 53 bits. -/
def greatestExponent : Int := 971

/-- The nearest number to `num / den`, both positive. -/
def ofFraction? (negative : Bool) (num den : Nat) : Option Binary64 :=
  -- `2 ^ (b - 1) < num / den < 2 ^ (b + 1)`
  let b : Int := (num.log2 : Int) - (den.log2 : Int)
  let scaled (e : Int) : Nat × Nat :=
    let (p, q) := powerFraction 2 e
    (num * q, den * p)
  let guess := max (b - 53) leastExponent
  let (n, d) := scaled guess
  let exponent := if Nat.pow 2 53 ≤ n / d then guess + 1 else guess
  let (n, d) := scaled exponent
  let m := roundToEven n d
  let (m, exponent) := if m = Nat.pow 2 53 then (Nat.pow 2 52, exponent + 1) else (m, exponent)
  if greatestExponent < exponent then none else some ⟨negative, m, exponent⟩

/-- How many decimal digits a number has. -/
def digitCount (n : Nat) : Nat := (Nat.toDigits 10 n).length

/-- The nearest number to `digits · 10 ^ scale`.  Magnitudes far outside the
    range are settled by the number of digits alone. -/
def ofDecimal? (negative : Bool) (digits : Nat) (scale : Int) : Option Binary64 :=
  let size : Int := digitCount digits + scale
  if digits = 0 ∨ size < -400 then some ⟨negative, 0, leastExponent⟩
  else if 400 < size then none
  else
    let (p, q) := powerFraction 10 scale
    ofFraction? negative (digits * p) q

end Binary64

end Supervisor
