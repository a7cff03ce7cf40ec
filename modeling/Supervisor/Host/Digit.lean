/-
  Digits, as the programs of a host read them.

  * `decimal?` is the value of a text that is all decimal digits;
  * `digitsValue` is the value of digits in a base.
-/

namespace Supervisor.Host

/-- Whether a character is an octal digit. -/
def isOctal (c : Char) : Bool := '0' ≤ c && c ≤ '7'

/-- Whether a character is a hexadecimal digit. -/
def isHex (c : Char) : Bool := c.isDigit || ('a' ≤ c.toLower && c.toLower ≤ 'f')

/-- The value of a digit. -/
def digitValue (c : Char) : Nat :=
  if c.isDigit then c.toNat - '0'.toNat else c.toLower.toNat - 'a'.toNat + 10

/-- The value of digits in a base. -/
def digitsValue (base : Nat) (cs : List Char) : Nat :=
  cs.foldl (fun n c => n * base + digitValue c) 0

/-- A number in decimal digits and nothing else. -/
def decimal? (cs : List Char) : Option Nat :=
  if cs = [] ∨ !cs.all Char.isDigit then none else some (digitsValue 10 cs)

end Supervisor.Host
