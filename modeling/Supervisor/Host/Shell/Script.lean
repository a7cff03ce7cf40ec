/-
  Shell scripts as trees.

  * a `Piece` is a part of a word: characters that stand for themselves, and
    expansions that are carried out when the word is used;
  * a `Redirect` says where a descriptor leads while a command runs;
  * a `Script` is a command or several of them, joined by what stands between
    them.
-/

namespace Supervisor.Host.Shell

/-- What is wanted of a parameter. -/
inductive Form where
  | value
  | length
  /-- its value, or else a text -/
  | fallback
  /-- a text, if it has a value -/
  | alternative
  /-- its value, or else a text that it is set to -/
  | preset
  /-- its value, or else a complaint -/
  | demand
  /-- its value without a part at the end that fits a pattern -/
  | withoutEnd (longest : Bool)
  /-- its value without a part at the start that fits a pattern -/
  | withoutStart (longest : Bool)
  /-- what is wanted cannot be read -/
  | unfit
  deriving DecidableEq

/-- How a file is opened. -/
inductive Opening where
  | reading
  /-- for writing, after it is emptied, which may be forbidden -/
  | emptied
  /-- for writing, after it is emptied in any case -/
  | forced
  /-- for writing behind its end -/
  | extended
  /-- for reading and writing -/
  | both
  deriving DecidableEq

mutual

/-- A piece of a word. -/
inductive Piece where
  /-- a character without quotes -/
  | bare (c : Char)
  /-- a character that a quote guards -/
  | guarded (c : Char)
  /-- a quote begins or ends -/
  | mark
  /-- the home directory of a user, or without a name that of the shell -/
  | home (user : String)
  /-- a parameter; `strict` says that an empty value counts as none -/
  | parameter (name : String) (form : Form) (strict : Bool) (operand : List Piece) (quoted : Bool)
  /-- a number to be computed -/
  | arithmetic (operand : List Piece) (quoted : Bool)
  /-- the output of a script -/
  | output (script : Script) (quoted : Bool)

/-- Where a descriptor leads. -/
inductive Redirect where
  /-- to or from a file -/
  | file (fd : Nat) (opening : Opening) (name : List Piece)
  /-- to where another one leads; a dash closes it -/
  | duplicate (fd : Nat) (source : List Piece)
  /-- from a text of the script -/
  | document (fd : Nat) (body : List Piece)

/-- A script. -/
inductive Script where
  | nothing
  | simple (line : Nat) (assignments : List (String × List Piece)) (words : List (List Piece))
      (redirects : List Redirect)
  /-- in a process of its own -/
  | subshell (line : Nat) (body : Script) (redirects : List Redirect)
  /-- with descriptors of its own -/
  | redirected (line : Nat) (body : Script) (redirects : List Redirect)
  /-- again and again, while the condition ends as wanted -/
  | loop (wanted : Bool) (condition body : Script)
  | each (line : Nat) (name : String) (words : List (List Piece)) (body : Script)
  | branch (condition yes no : Script)
  /-- the first of some scripts that has a pattern which fits -/
  | choose (line : Nat) (subject : List Piece) (arms : List (List (List Piece) × Script))
  /-- give a script a name -/
  | define (name : String) (body : Script)
  | seq (a b : Script)
  | both (a b : Script)
  | either (a b : Script)
  | negate (a : Script)
  | pipe (parts : List Script)
  | background (a : Script)

end

/-- A word. -/
abbrev Word := List Piece

namespace Piece

/-- The character of a piece without quotes. -/
def char? : Piece → Option Char
  | bare c => some c
  | _ => none

/-- The character of a piece that stands for itself. -/
def literal? : Piece → Option Char
  | bare c | guarded c => some c
  | _ => none

/-- Whether a piece comes from quotes. -/
def isQuote : Piece → Bool
  | guarded _ | mark => true
  | _ => false

end Piece

/-- The text of a word without quotes and expansions. -/
def bareText? (w : Word) : Option String := (w.mapM Piece.char?).map String.ofList

/-- The text of a word whose quotes are taken off. -/
def unquotedText (w : Word) : List Char := w.filterMap Piece.literal?

/-- The descriptor that a redirection is about. -/
def Redirect.fd : Redirect → Nat
  | file fd _ _ | duplicate fd _ | document fd _ => fd

/-- A word with a home directory for a tilde at its start; a colon ends the name
    of the user in an assignment. -/
def tilded (inAssignment : Bool) (w : Word) : Word :=
  match w with
  | .bare '~' :: rest =>
    let user := rest.takeWhile fun p =>
      p.char? ≠ some '/' && !(inAssignment && p.char? = some ':')
    match bareText? user with
    | some name => .home name :: rest.drop user.length
    | none => w
  | w => w

/-- The value of an assignment, with home directories for tildes at its start and
    behind colons; the number bounds how many. -/
def tildedAll : Nat → Word → Word
  | 0, w => w
  | fuel + 1, w =>
    let w := tilded true w
    let first := w.takeWhile fun p => p.char? ≠ some ':'
    match w.drop first.length with
    | colon :: rest => first ++ colon :: tildedAll fuel rest
    | [] => w

/-! ## Names -/

/-- Whether a character may start a name. -/
def isNameStart (c : Char) : Bool := c.isAlpha || c = '_'

/-- Whether a character may stand in a name. -/
def isNameChar (c : Char) : Bool := c.isAlphanum || c = '_'

/-- Whether a text is a name. -/
def isName (s : String) : Bool :=
  match s.toList with
  | c :: cs => isNameStart c && cs.all isNameChar
  | [] => false

/-- Whether a character names a parameter of the shell itself. -/
def isSpecial (c : Char) : Bool := "!#$*-?@".toList.contains c || c.isDigit

/-- The name and value of an assignment. -/
def assignment? (w : Word) : Option (String × Word) :=
  let name := (w.takeWhile fun p => p.char?.any isNameChar).filterMap Piece.char?
  match w.drop name.length with
  | .bare '=' :: value =>
    if isName (String.ofList name) then some (String.ofList name, value) else none
  | _ => none

end Supervisor.Host.Shell
