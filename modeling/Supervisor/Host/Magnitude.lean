/-
  Numbers with a point, as formats write them.

  * a `Magnitude` is a number without its sign: a fraction, or one of the values
    that are no number;
  * `Magnitude.read` reads one from the start of a text, and `Magnitude.round` is the
    nearest one with so many binary digits;
  * `Magnitude.fixed`, `Magnitude.scientific`, `Magnitude.general` and `Magnitude.hexadecimal` are
    its digits without the sign.
-/
import Supervisor.Decimal.Binary64
import Supervisor.Host.Digit

namespace Supervisor.Host

/-- A number without its sign. -/
inductive Magnitude where
  | fraction (num den : Nat)
  | infinite
  | undefined
  deriving DecidableEq

/-- A binary format of numbers. -/
structure Precision where
  /-- the binary digits of a number -/
  bits : Nat
  /-- the least exponent -/
  least : Int
  /-- the greatest exponent of a number with all digits -/
  greatest : Int

/-- Numbers of 64 bits. -/
def Precision.double : Precision := ⟨53, -1074, 971⟩

/-- Numbers of 80 bits. -/
def Precision.extended : Precision := ⟨64, -16445, 16320⟩

namespace Magnitude

/-! ## Reading -/

/-- Whether a text starts with a word, in letters of any size. -/
def startsWith (word : String) (cs : List Char) : Bool :=
  (cs.take word.length).map Char.toLower = word.toList

/-- The exponent behind a mark, and the rest; without digits there is none. -/
def exponent (mark : Char) (cs : List Char) : Int × List Char :=
  match cs with
  | m :: rest =>
    let (negative, ds) := match rest with
      | '-' :: ds => (true, ds)
      | '+' :: ds => (false, ds)
      | ds => (false, ds)
    let digits := ds.takeWhile Char.isDigit
    if m.toLower ≠ mark || digits = [] then (0, cs)
    else
      let n : Int := min (digitsValue 10 digits) 100000
      (if negative then -n else n, ds.drop digits.length)
  | [] => (0, [])

/-- The digits of a number around a point, in a base whose point moves by powers
    of another one; `none` if there are no digits. -/
def digitsAround (base power : Nat) (mark : Char) (isDigit : Char → Bool) (cs : List Char) :
    Option (Magnitude × List Char) :=
  let whole := cs.takeWhile isDigit
  let rest := cs.drop whole.length
  let places := match rest with
    | '.' :: ds => ds.takeWhile isDigit
    | _ => []
  if whole = [] && places = [] then none
  else
    let rest := match rest with
      | '.' :: ds => ds.drop places.length
      | rest => rest
    let (e, rest) := exponent mark rest
    let digits := digitsValue base (whole ++ places)
    let (p, q) := powerFraction power e
    some (.fraction (digits * p) (q * Nat.pow base places.length), rest)

/-- A number at the start of a text without its sign, and the rest. -/
def unsigned (cs : List Char) : Option (Magnitude × List Char) :=
  if startsWith "infinity" cs then some (.infinite, cs.drop 8)
  else if startsWith "inf" cs then some (.infinite, cs.drop 3)
  else if startsWith "nan" cs then some (.undefined, cs.drop 3)
  else match cs with
    | '0' :: x :: rest =>
      match if x.toLower = 'x' then digitsAround 16 2 'p' isHex rest else none with
      | some r => some r
      | none => digitsAround 10 10 'e' Char.isDigit cs
    | cs => digitsAround 10 10 'e' Char.isDigit cs

/-- A number at the start of a text: whether it is negative, the number, and the
    rest. -/
def read (cs : List Char) : Option (Bool × Magnitude × List Char) :=
  match cs.dropWhile fun c => c = ' ' || ('\t' ≤ c && c ≤ '\r') with
  | '-' :: rest => (unsigned rest).map fun (r, rest) => (true, r, rest)
  | '+' :: rest => (unsigned rest).map fun (r, rest) => (false, r, rest)
  | cs => (unsigned cs).map fun (r, rest) => (false, r, rest)

/-! ## Rounding -/

/-- The nearest number in a binary format, as `m · 2 ^ e`; `none` is beyond the
    greatest. -/
def parts (p : Precision) (num den : Nat) : Option (Nat × Int) :=
  if num = 0 then some (0, p.least)
  else
    let b : Int := (num.log2 : Int) - (den.log2 : Int)
    let scaled (e : Int) : Nat × Nat :=
      let (a, c) := powerFraction 2 e
      (num * c, den * a)
    let guess := max (b - p.bits) p.least
    let (n, d) := scaled guess
    let e := if Nat.pow 2 p.bits ≤ n / d then guess + 1 else guess
    let (n, d) := scaled e
    let m := roundToEven n d
    let (m, e) := if m = Nat.pow 2 p.bits then (Nat.pow 2 (p.bits - 1), e + 1) else (m, e)
    if p.greatest < e then none else some (m, e)

/-- The nearest number in a binary format. -/
def round (p : Precision) : Magnitude → Magnitude
  | fraction num den =>
    match parts p num den with
    | some (m, e) => let (a, c) := powerFraction 2 e; .fraction (m * a) c
    | none => .infinite
  | r => r

/-! ## Writing -/

/-- A number of a text with a least count of digits. -/
def padded (count n : Nat) : List Char :=
  let ds := Nat.toDigits 10 n
  List.replicate (count - ds.length) '0' ++ ds

/-- Digits with a point in front of the last few. -/
def withPoint (pointed : Bool) (places n : Nat) : List Char :=
  let ds := padded (places + 1) n
  let whole := ds.take (ds.length - places)
  if places = 0 then whole ++ (if pointed then ['.'] else [])
  else whole ++ '.' :: ds.drop (ds.length - places)

/-- A fraction with so many places. -/
def fixed (pointed : Bool) (places num den : Nat) : List Char :=
  withPoint pointed places (roundToEven (num * Nat.pow 10 places) den)

/-- The power of ten of the first digit of a fraction. -/
def decade (num den : Nat) : Int :=
  if num = 0 then 0
  else if den ≤ num then ((Nat.toDigits 10 (num / den)).length : Int) - 1
  else
    -- the first digit is behind the point
    let guess := (Nat.toDigits 10 (den / num)).length
    if den ≤ num * Nat.pow 10 (guess - 1) then -((guess : Int) - 1) else -(guess : Int)

/-- The digits of a fraction with so many behind the first one, and the power of
    ten of the first one. -/
def rounded (places num den : Nat) : Nat × Int :=
  let e := decade num den
  let (p, q) := powerFraction 10 ((places : Int) - e)
  let n := roundToEven (num * p) (den * q)
  if n = Nat.pow 10 (places + 1) then (Nat.pow 10 places, e + 1) else (n, e)

/-- A power with its sign and at least two digits. -/
def power (mark : Char) (width : Nat) (e : Int) : List Char :=
  mark :: (if e < 0 then '-' else '+') :: padded width e.natAbs

/-- A fraction as digits and a power of ten. -/
def scientific (pointed : Bool) (places num den : Nat) : List Char :=
  let (n, e) := rounded places num den
  withPoint pointed places n ++ power 'e' 2 e

/-- Digits without the zeros behind the point, and without a point at the end. -/
def withoutZeros (cs : List Char) : List Char :=
  if cs.contains '.' then
    let cs := (cs.reverse.dropWhile (· = '0'))
    (if cs.head? = some '.' then cs.drop 1 else cs).reverse
  else cs

/-- A fraction with so many digits that count, in the shorter way. -/
def general (pointed : Bool) (digits num den : Nat) : List Char :=
  let digits := max digits 1
  let (n, e) := rounded (digits - 1) num den
  let trim (cs : List Char) : List Char := if pointed then cs else withoutZeros cs
  if -4 ≤ e ∧ e < digits then trim (fixed pointed ((digits : Int) - 1 - e).toNat num den)
  else trim (withPoint pointed (digits - 1) n) ++ power 'e' 2 e

/-- A fraction in base 16, whose first digit holds so many bits. -/
def hexadecimal (p : Precision) (lead num den : Nat) : List Char :=
  match parts p num den with
  | none => []
  | some (0, _) => "0x0p+0".toList
  | some (m, e) =>
    let size := m.log2 + 1
    let m := m * Nat.pow 2 (p.bits - size)
    let e := e - ((p.bits : Int) - size)
    let below := p.bits - lead
    let digits := (below + 3) / 4
    let body := m % Nat.pow 2 below * Nat.pow 2 (4 * digits - below)
    let ds := (List.range digits).map fun i => Nat.digitChar (body / Nat.pow 16 (digits - 1 - i) % 16)
    let ds := (ds.reverse.dropWhile (· = '0')).reverse
    "0x".toList ++ Nat.toDigits 16 (m / Nat.pow 2 below) ++ (if ds = [] then [] else '.' :: ds) ++
      power 'p' 1 (e + below)

end Magnitude

end Supervisor.Host
