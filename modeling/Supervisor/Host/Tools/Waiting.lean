/-
  Lengths of time, and a small program that waits.

  * `Tools.interval?` reads a length of time, in seconds or with a unit.
-/
import Supervisor.Host.Tools.Words

namespace Supervisor.Host.Tools

/-- How many seconds a unit has. -/
def unitSeconds : List Char → Option Nat
  | [] | ['s'] => some 1
  | ['m'] => some 60
  | ['h'] => some 3600
  | ['d'] => some 86400
  | _ => none

/-- A length of time in milliseconds, of which a part of one counts as one; one
    without end is `none`. -/
def interval? (s : String) : Option (Option Nat) :=
  match Magnitude.read s.toList with
  | some (negative, r, rest) =>
    match unitSeconds rest, r with
    | some _, .infinite => if negative then none else some none
    | some unit, .fraction num den =>
      if negative && num ≠ 0 then none else some (some ((num * unit * 1000 + den - 1) / den))
    | _, _ => none
  | none => none

/-- Wait. -/
def sleep : Tool := withOptions { isMixed := true } 1 fun v _ c =>
  if c.operands = [] then missing v 1
  else match c.operands.filter fun a => (interval? a).isNone with
    | [] =>
      { lasts := c.operands.foldl (fun t a => do return (← t) + (← (interval? a).getD none)) (some 0) }
    | wrong =>
      let complaints := wrong.flatMap fun a => v.line ("invalid time interval " ++ Quote.escaped a)
      { writes := [(2, complaints ++ Utility.line (Utility.hint v.who))], code := 1 }

end Supervisor.Host.Tools
