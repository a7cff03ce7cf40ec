/-
  Modes of files.

  A mode is a number whose last nine bits permit the owner, the group and others
  to read, write and execute.

  * `Modes.change?` changes a mode as a text says, in octal digits or in letters.
-/
import Supervisor.Host.Digit

namespace Supervisor.Host.Modes

/-- All permissions. -/
def all : Nat := 511

/-- The bits of those whom some letters name. -/
def whoBits (cs : List Char) : Nat :=
  if cs = [] || cs.contains 'a' then all
  else (if cs.contains 'u' then 448 else 0) + (if cs.contains 'g' then 56 else 0) +
    (if cs.contains 'o' then 7 else 0)

/-- What some letters permit to all; `mode` is what is permitted so far. -/
def permissionBits (mode : Nat) : List Char → Option Nat
  | ['u'] => some (mode / 64 % 8 * 73)
  | ['g'] => some (mode / 8 % 8 * 73)
  | ['o'] => some (mode % 8 * 73)
  | cs =>
    if cs.all fun c => ['r', 'w', 'x', 'X', 's', 't'].contains c then
      let isExecuted := cs.contains 'x' || (cs.contains 'X' && mode &&& 73 ≠ 0)
      some ((if cs.contains 'r' then 292 else 0) + (if cs.contains 'w' then 146 else 0) +
        (if isExecuted then 73 else 0))
    else none

/-- Signs with letters behind them, applied to a mode; the number bounds how
    many. -/
def actions (who : Nat) : Nat → List Char → Nat → Option Nat
  | 0, _, _ => none
  | _, [], mode => some mode
  | fuel + 1, sign :: rest, mode =>
    let letters := rest.takeWhile fun c => c ≠ '+' && c ≠ '-' && c ≠ '='
    match permissionBits mode letters with
    | none => none
    | some bits =>
      let bits := bits &&& who
      let rest := rest.drop letters.length
      match sign with
      | '+' => actions who fuel rest (mode ||| bits)
      | '-' => actions who fuel rest (mode &&& (all - bits))
      | '=' => actions who fuel rest ((mode &&& (all - who)) ||| bits)
      | _ => none

/-- One clause: for whom, and what. -/
def clause? (cs : List Char) (mode : Nat) : Option Nat :=
  let who := cs.takeWhile fun c => ['u', 'g', 'o', 'a'].contains c
  match cs.drop who.length with
  | [] => none
  | rest => actions (whoBits who) (rest.length + 1) rest mode

/-- Change a mode as a text says. -/
def change? (text : String) (mode : Nat) : Option Nat :=
  let cs := text.toList
  if cs ≠ [] && cs.all isOctal then
    let n := digitsValue 8 cs
    if n ≤ 4095 then some (n % (all + 1)) else none
  else
    let clauses := cs.foldr (fun c acc =>
      if c = ',' then [] :: acc
      else match acc with
        | [] => [[c]]
        | p :: rest => (c :: p) :: rest) [[]]
    clauses.foldlM (fun mode cs => clause? cs mode) mode

end Supervisor.Host.Modes
