/-
  Lengths of time, in milliseconds.

  * `durationText` is the text of one: zero is `0ns`, below a second it is a
    number of milliseconds, from there on seconds with as many decimals as are
    needed.
-/

namespace Supervisor.Text

/-- A number below a thousand with three digits. -/
def threeDigits (n : Nat) : List Char :=
  [Nat.digitChar (n / 100 % 10), Nat.digitChar (n / 10 % 10), Nat.digitChar (n % 10)]

/-- Decimals without the zeros at their end. -/
def trimZeros (cs : List Char) : List Char :=
  (cs.reverse.dropWhile (· = '0')).reverse

/-- The text of a duration in milliseconds. -/
def durationText (ms : Nat) : String :=
  if ms = 0 then "0ns"
  else if ms < 1000 then toString ms ++ "ms"
  else
    match trimZeros (threeDigits (ms % 1000)) with
    | [] => toString (ms / 1000) ++ "s"
    | decimals => toString (ms / 1000) ++ "." ++ String.ofList decimals ++ "s"

end Supervisor.Text
