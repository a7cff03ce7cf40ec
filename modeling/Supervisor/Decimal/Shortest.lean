/-
  The shortest decimal text of a number of 64 bits.

  * `Binary64.shortest` is the decimal with the fewest digits that lies closer
    to the number than to any other, and of those the nearest one;
  * `Binary64.text` writes it out in full, with at least one decimal.
-/
import Supervisor.Decimal.Binary64

namespace Supervisor

/-- A decimal `digits · 10 ^ scale`. -/
structure ShortDecimal where
  digits : Nat
  scale : Int
  deriving DecidableEq

/-- A decimal written out with at least one decimal place. -/
def ShortDecimal.plain (d : ShortDecimal) : List Char :=
  if 0 ≤ d.scale then
    Nat.toDigits 10 d.digits ++ List.replicate d.scale.toNat '0' ++ ['.', '0']
  else
    let places := (-d.scale).toNat
    let ds := Nat.toDigits 10 d.digits
    let ds := List.replicate (places + 1 - ds.length) '0' ++ ds
    ds.take (ds.length - places) ++ '.' :: ds.drop (ds.length - places)

namespace Binary64

/-- The numbers that round to `x`, as `lower`, `value` and `upper` over one
    denominator.  Below a power of two the gap is half as wide. -/
def interval (x : Binary64) : Nat × Nat × Nat × Nat :=
  let (p, q) := powerFraction 2 (x.exponent - 2)
  let below := if x.mantissa = Nat.pow 2 52 ∧ leastExponent < x.exponent then 1 else 2
  ((4 * x.mantissa - below) * p, 4 * x.mantissa * p, (4 * x.mantissa + 2) * p, q)

/-- Whether `n · 10 ^ scale` rounds to `x`; the ends of the interval do if the
    mantissa is even. -/
def roundsTo (x : Binary64) (n : Nat) (scale : Int) : Bool :=
  let (lower, _, upper, den) := x.interval
  let (p, q) := powerFraction 10 scale
  let value := n * p * den
  if x.mantissa % 2 = 0 then lower * q ≤ value ∧ value ≤ upper * q
  else lower * q < value ∧ value < upper * q

/-- The nearer neighbour of `x` on the grid `10 ^ scale` that rounds to `x`. -/
def onGrid (x : Binary64) (scale : Int) : Option ShortDecimal :=
  let (_, value, _, den) := x.interval
  let (p, q) := powerFraction 10 scale
  let n := value * q / (den * p)
  let rest := value * q % (den * p)
  let candidates := if 2 * rest < den * p then [n, n + 1] else [n + 1, n]
  (candidates.find? (x.roundsTo · scale)).map (⟨·, scale⟩)

/-- The decimal place above all digits of `x`. -/
def decimalSize (x : Binary64) : Int :=
  let (_, value, _, den) := x.interval
  let whole := value / den
  if whole ≠ 0 then digitCount whole
  else
    -- the zeros behind the point
    let zeros := (List.range 400).find? fun k => den ≤ value * Nat.pow 10 (k + 1)
    Int.neg (zeros.getD 0)

/-- A decimal without a zero at its end, which rounding up to a power of ten
    leaves. -/
def dropZero (d : ShortDecimal) : ShortDecimal :=
  if d.digits % 10 = 0 then ⟨d.digits / 10, d.scale + 1⟩ else d

/-- The shortest decimal of a number other than zero. -/
def shortest (x : Binary64) : ShortDecimal :=
  let size := x.decimalSize
  dropZero (((List.range 17).findSome? fun (k : Nat) => x.onGrid (size - (k + 1))).getD ⟨0, 0⟩)

/-- The text of a number. -/
def text (x : Binary64) : String :=
  let body := if x.mantissa = 0 then ['0', '.', '0'] else x.shortest.plain
  String.ofList (if x.negative then '-' :: body else body)

end Binary64

end Supervisor
