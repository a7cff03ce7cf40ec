/-
  What a simple command calls.

  * a `Call` is a command with its arguments, which is found while its words
    are expanded (`Shell.callOf`);
  * `Shell.assignAll` carries out the assignments in front of a command, and
    `Shell.trace` shows a command before it is run.
-/
import Supervisor.Host.Shell.Builtin
import Supervisor.Host.Shell.Redirect

namespace Supervisor.Host.Shell

/-- A command with its arguments. -/
structure Call where
  /-- the words in front of the command, which say how it is looked for -/
  front : List String := []
  /-- the command and its arguments -/
  words : List String := []
  /-- scripts with a name are passed over -/
  isPlain : Bool := false
  /-- it is looked for in the standard directories -/
  isStandard : Bool := false

namespace Call

/-- All words. -/
def all (c : Call) : List String := c.front ++ c.words

/-- The name of the command. -/
def name (c : Call) : String := c.words.head?.getD ""

/-- The arguments of the command. -/
def args (c : Call) : List String := c.words.drop 1

/-- Whether nothing is called. -/
def isEmpty (c : Call) : Bool := c.words.isEmpty

/-- Whether the shell does not survive a failure. -/
def isSpecial (c : Call) : Bool := specials.contains (c.all.head?.getD "")

end Call

/-- The word in front of a command that says how it is looked for. -/
def prefixWord : String := "command"

/-- How many words may say how a command is looked for. -/
def prefixLimit : Nat := 1000

section
variable (outputOf : OutputOf)

/-- The fields of the first words that have some, and the words behind them. -/
def firstFields : Shell → List Word → Shell × List String × List Word
  | sh, [] => (sh, [], [])
  | sh, w :: rest =>
    let (sh, fields) := fieldsOfWord outputOf sh w
    if sh.isDone || !fields.isEmpty then (sh, fields, rest) else firstFields sh rest

/-- The fields that are there, or else those of the next words. -/
def nextFields (sh : Shell) (fields : List String) (left : List Word) :
    Shell × List String × List Word :=
  if fields.isEmpty then firstFields outputOf sh left else (sh, fields, left)

/-- Find the command behind a word that says how it is looked for: behind options,
    which are those so far, and perhaps behind another such word.  Without a
    command, the word is the command itself. -/
def behindPrefix : Nat → Shell → Call → List String → List String → List Word →
    Shell × Call × List Word
  | 0, sh, c, options, fields, left => (sh, { c with words := prefixWord :: options ++ fields }, left)
  | fuel + 1, sh, c, options, fields, left =>
    let (sh, fields, left) := nextFields outputOf sh fields left
    let alone : Shell × Call × List Word :=
      (sh, { c with words := prefixWord :: options ++ fields }, left)
    let found (sh : Shell) (options fields : List String) (left : List Word) :
        Shell × Call × List Word :=
      let c := { c with front := c.front ++ prefixWord :: options, isPlain := true }
      if fields.head? = some prefixWord then behindPrefix fuel sh c [] (fields.drop 1) left
      else (sh, { c with words := fields }, left)
    match fields with
    | [] => alone
    | f :: more =>
      if sh.isDone then alone
      else match f.toList with
        | ['-', '-'] =>
          match nextFields outputOf sh more left with
          | (_, [], _) => alone
          | (sh, fields, left) => found sh (options ++ [f]) fields left
        | '-' :: o :: os =>
          if (o :: os).all (· = 'p') then
            behindPrefix fuel sh { c with isStandard := true } (options ++ [f]) more left
          else alone
        | _ => found sh options fields left

/-- What the words of a simple command call.  The arguments of a command that sets
    variables are expanded in a way of their own. -/
def callOf (sh : Shell) (ws : List Word) : Shell × Call :=
  let (sh, fields, left) := firstFields outputOf sh ws
  if sh.isDone then (sh, {})
  else
    let isPrefix := fields.head? = some prefixWord && sh.functions.all (·.1 ≠ prefixWord)
    let (sh, c, left) := if isPrefix then behindPrefix outputOf prefixLimit sh {} [] (fields.drop 1) left
      else (sh, { words := fields }, left)
    if sh.isDone then (sh, {})
    else
      let (sh, more) := if declarators.contains c.name then declarations outputOf sh left
        else arguments outputOf sh left
      (sh, { c with words := c.words ++ more })

/-! ## Assignments -/

/-- How assignments in front of a command are carried out. -/
structure Assigning where
  /-- they hold for the command only -/
  isTemporary : Bool
  /-- they are for programs, too -/
  isExported : Bool

/-- Carry out assignments; the texts of them, as they are shown. -/
def assignAll (a : Assigning) : Shell → List (String × Word) → Shell × List String
  | sh, [] => (sh, [])
  | sh, (name, w) :: rest =>
    let (sh, value) := valueOf outputOf sh w
    if sh.isDone then (sh, [])
    else match (if a.isTemporary then sh.hide name else sh).assign name value with
      | .error why => (sh.fail why, [])
      | .ok sh =>
        let v := (sh.bindings.lookup name).getD {}
        let sh := if a.isTemporary || a.isExported then
            sh.setVariable name (some { v with isExported := true })
          else sh
        let (sh, more) := assignAll a sh rest
        (sh, (name ++ "=" ++ value) :: more)

end

/-! ## Traces -/

/-- Show a command before it is run, where complaints went before its
    redirections. -/
def trace (old sh : Shell) (words : List String) : Shell :=
  if !sh.isOn 'x' then sh
  else
    let front := (sh.get "PS4").getD ""
    let shown := { sh with descriptors := old.descriptors }.write 2
      (Utility.line (front ++ " ".intercalate words))
    { shown with descriptors := sh.descriptors }

end Supervisor.Host.Shell
