/-
  Reading bare values: booleans, integers and numbers with a point.

  * `Bare.read?` is the value that a bare word stands for, if it is one.  A
    decimal number has no zero before its first other digit; an integer in
    another base has neither sign nor capitals before its digits;
  * `dividesDigits` says where underscores may stand.

  Which kind of number a word is shows in its form, and only a number with a
  point is looked at digit by digit.  A word with the form of an integer is one
  even if its digits are missing or not those of its base: then it is
  `unreadable`, which matters to those who ask for its value.
-/
import Supervisor.Toml.Moment
import Supervisor.Toml.Text

namespace Supervisor.Toml

/-- A number with a point, as it is written. -/
inductive FloatLiteral where
  | nan
  | infinite (negative : Bool)
  /-- `digits · 10 ^ scale` -/
  | finite (negative : Bool) (digits : Nat) (scale : Int)
  deriving DecidableEq

/-- What a bare word stands for. -/
inductive Bare where
  | boolean (b : Bool)
  | integer (n : Int)
  /-- an integer without digits, or with some that its base lacks -/
  | unreadable
  | float (x : FloatLiteral)
  | moment
  deriving DecidableEq

/-! ## Digits -/

/-- The value of a digit below a base. -/
def digitBelow (base : Nat) (c : Char) : Option Nat :=
  (hexValue? c).filter (· < base)

/-- Whether a character is a hexadecimal digit. -/
def isHexDigit (c : Char) : Bool := (hexValue? c).isSome

/-- The parts of a word between its underscores. -/
def splitParts : List Char → List (List Char)
  | [] => [[]]
  | c :: cs =>
    match splitParts cs with
    | [] => [[c]]
    | part :: parts => if c = '_' then [] :: part :: parts else (c :: part) :: parts

/-- Whether each underscore of a word stands between two digits. -/
def dividesDigits (isDigit : Char → Bool) (cs : List Char) : Bool :=
  let parts := splitParts cs
  (parts.drop 1).all (·.head?.any isDigit) && parts.dropLast.all (·.getLast?.any isDigit)

/-- The digits of a word, of which there must be some, with any underscores. -/
def digits? (base : Nat) (cs : List Char) : Option (List Nat) :=
  match (cs.filter (· ≠ '_')).mapM (digitBelow base) with
  | some [] => none
  | ds => ds

/-- Decimal digits that do not begin with a needless zero. -/
def wholeDigits? (cs : List Char) : Option (List Nat) :=
  (digits? 10 cs).filter fun ds => ds.length = 1 || cs.head? ≠ some '0'

/-! ## Integers -/

/-- The integer with a sign and the digits of a base. -/
def integerOf (base : Nat) (negative : Bool) (cs : List Char) : Bare :=
  match digits? base cs with
  | some ds => .integer (if negative then -(digitsValue base ds : Int) else digitsValue base ds)
  | none => .unreadable

/-- The base that a letter behind a zero names. -/
def baseOf? : Char → Option Nat
  | 'x' => some 16
  | 'o' => some 8
  | 'b' => some 2
  | _ => none

/-- An integer in another base, behind what names the base.  It may have no
    digits. -/
def basedInteger? (base : Nat) (cs : List Char) : Option Bare :=
  if cs.all (fun c => c = '_' || (digitBelow base c).isSome) && cs.head? ≠ some '_' &&
      dividesDigits isHexDigit cs then
    some (integerOf base false cs)
  else none

/-! ## Numbers with a point -/

/-- A sign and what follows it. -/
def splitSign : List Char → Bool × Bool × List Char
  | '+' :: cs => (true, false, cs)
  | '-' :: cs => (true, true, cs)
  | cs => (false, false, cs)

/-- The characters up to the first that satisfies `p`, and those behind it. -/
def splitAt? (p : Char → Bool) (cs : List Char) : Option (List Char × List Char) :=
  match cs.dropWhile (!p ·) with
  | [] => none
  | _ :: rest => some (cs.takeWhile (!p ·), rest)

/-- Whether a character begins an exponent. -/
def marksExponent (c : Char) : Bool := c = 'e' || c = 'E'

/-- The exponent of a number: an optional sign and digits. -/
def exponent? (cs : List Char) : Option Int := do
  let (_, negative, cs) := splitSign cs
  let n := digitsValue 10 (← digits? 10 cs)
  return if negative then -n else n

/-- A number with a point, an exponent or both, behind its sign. -/
def float? (negative : Bool) (cs : List Char) : Option FloatLiteral := do
  let (mantissa, exponent) ← match splitAt? marksExponent cs with
    | some (m, e) => (exponent? e).map fun n => (m, some n)
    | none => some (cs, none)
  match splitAt? (· = '.') mantissa with
  | some (whole, fraction) =>
    let ds ← wholeDigits? whole
    let fs ← digits? 10 fraction
    return .finite negative (digitsValue 10 (ds ++ fs)) (exponent.getD 0 - fs.length)
  | none =>
    let ds ← wholeDigits? mantissa
    return .finite negative (digitsValue 10 ds) (← exponent)

/-! ## Words -/

/-- A word that begins with a digit or an underscore, behind its sign.  `word`
    is all of it.  What follows its first digits shows what it is. -/
def number? (word : List Char) (negative : Bool) (cs : List Char) : Option Bare :=
  match cs.dropWhile Char.isDigit with
  | [] => if 1 < cs.length && cs.head? = some '0' then none else some (integerOf 10 negative cs)
  | c :: rest =>
    if c = '-' || c = ':' then
      if Moment.isValid word then some .moment else none
    else if (c :: rest).contains ' ' then none
    else if (c :: rest).any (fun d => d = '.' || marksExponent d) then
      if dividesDigits Char.isDigit word then (float? negative cs).map .float else none
    else if c = '_' && cs.head? ≠ some '0' && dividesDigits isHexDigit word then
      some (integerOf 10 negative cs)
    else none

/-- What a bare word stands for. -/
def Bare.read? (word : List Char) : Option Bare :=
  if word = "true".toList then some (.boolean true)
  else if word = "false".toList then some (.boolean false)
  else match splitSign word with
    | (_, negative, ['i', 'n', 'f']) => some (.float (.infinite negative))
    | (_, _, ['n', 'a', 'n']) => some (.float .nan)
    | (signed, negative, cs) =>
      match cs with
      | '0' :: letter :: digits =>
        match baseOf? letter with
        | some base => if signed then none else basedInteger? base digits
        | none => number? word negative cs
      | c :: _ => if c.isDigit || c = '_' then number? word negative cs else none
      | [] => none

end Supervisor.Toml
