/-
  Reading the words of a shell script.

  * `Text` is a script as far as it is not read yet, and a `Reader` takes
    something off its start, or says what is wrong there (`SyntaxError`);
  * `Reader.word` reads a word, and `Reader.documentBody` the text between a
    command and its delimiter.  A script inside of a word is read by a reader
    that they are given, up to a closing bracket or to the end of the text.
-/
import Supervisor.Host.Shell.Script

namespace Supervisor.Host.Shell

/-! ## Texts -/

/-- A token of a script. -/
inductive Token where
  | word (w : Word)
  | keyword (k : String)
  | operator (s : String)
  /-- a redirection, with the descriptor that is named and the operator -/
  | redirect (fd : Option Nat) (s : String)
  /-- the end of the text -/
  | ending

/-- A text that a redirection is to read, and that follows on later lines. -/
structure Pending where
  /-- its place among all of them -/
  index : Nat
  delimiter : List Char
  /-- nothing in it is expanded -/
  isPlain : Bool
  /-- tabs at the start of its lines are dropped -/
  isIndented : Bool

/-- A script, as far as it is not read yet. -/
structure Text where
  rest : List Char
  line : Nat := 1
  /-- a token that was read already -/
  ahead : Option Token := none
  aliases : List (String × List Char) := []
  /-- the aliases whose text is being read, and how much follows it -/
  inUse : List (String × Nat) := []
  /-- texts for redirections, as far as they are known, by place -/
  known : List (Nat × Word) := []
  /-- how many redirections have read a text -/
  count : Nat := 0
  pending : List Pending := []
  /-- the texts for redirections that were read, by place -/
  documents : List (Nat × Word) := []

/-- What is wrong with a text, and where. -/
structure SyntaxError where
  line : Nat
  text : String
  deriving DecidableEq

/-- What takes something off a text. -/
abbrev Reader (α : Type) := StateT Text (Except SyntaxError) α

namespace Reader

/-- Something is wrong. -/
def refuse {α : Type} (why : String) : Reader α := fun t => .error ⟨t.line, why⟩

/-- Pass over some characters. -/
def skip (n : Nat) : Reader Unit := modify fun t => { t with rest := t.rest.drop n }

/-- Count a line. -/
def nextLine : Reader Unit := modify fun t => { t with line := t.line + 1 }

/-- A text without the joined line ends at its start, and how many they are. -/
def joined : List Char → List Char × Nat
  | '\\' :: '\n' :: rest => let (r, n) := joined rest; (r, n + 1)
  | cs => (cs, 0)

/-- Pass over a backslash at the end of a line, and what is like it. -/
def joinLines : Reader Unit := modify fun t =>
  match joined t.rest with
  | (_, 0) => t
  | (rest, n) => { t with rest, line := t.line + n }

/-- The next character, behind joined line ends. -/
def peek : Reader (Option Char) := do
  joinLines
  return (← get).rest.head?

/-- Take the next character, behind joined line ends. -/
def take : Reader (Option Char) := do
  let c ← peek
  skip 1
  return c

/-- The characters at the start that a property holds of, line ends joined. -/
def takeAll (p : Char → Bool) : Nat → Reader (List Char)
  | 0 => pure []
  | fuel + 1 => do
    match ← peek with
    | some c =>
      if p c then do
        skip 1
        return c :: (← takeAll p fuel)
      else return []
    | none => return []

/-- How many characters are left. -/
def size : Reader Nat := do return (← get).rest.length

/-! ## Quotes -/

/-- Whether a character ends a word. -/
def isBreak (c : Char) : Bool := " \t\n;&|()<>".toList.contains c

/-- The characters up to a single quote. -/
def singleQuoted : Nat → Reader Word
  | 0 => refuse "Unterminated quoted string"
  | fuel + 1 => do
    match (← get).rest with
    | [] => refuse "Unterminated quoted string"
    | c :: rest =>
      modify fun t => { t with rest, line := if c = '\n' then t.line + 1 else t.line }
      if c = '\'' then return [] else return .guarded c :: (← singleQuoted fuel)

/-- What surrounds a piece. -/
inductive Surrounding where
  /-- nothing that quotes -/
  | nothing
  /-- double quotes -/
  | quoted
  /-- the braces of a parameter in double quotes -/
  | braced
  /-- a number to be computed -/
  | number
  /-- a text for a redirection -/
  | document
  deriving DecidableEq

/-- Whether a surrounding quotes what is in it. -/
def Surrounding.quotes : Surrounding → Bool
  | .nothing => false
  | _ => true

/-- Whether a backslash guards a character. -/
def Surrounding.escapes (s : Surrounding) (c : Char) : Bool :=
  match s with
  | .nothing => true
  | .quoted | .number => "\\\x60$\"".toList.contains c
  | .braced => "\\\x60$\"\x7d".toList.contains c
  | .document => "\\\x60$".toList.contains c

/-- What stands behind a backslash. -/
def escaped (s : Surrounding) : Reader Word := do
  match (← get).rest with
  | [] => return [.guarded '\\']
  | c :: rest =>
    modify fun t => { t with rest, line := if c = '\n' then t.line + 1 else t.line }
    return if s.escapes c then [.guarded c] else [.guarded '\\', .guarded c]

/-- A character that stands for itself. -/
def plain (s : Surrounding) (c : Char) : Piece :=
  match s with
  | .nothing | .number => .bare c
  | _ => .guarded c

/-- A word between double quotes.  The arguments of the shell are a word each,
    and none if there are none. -/
def betweenMarks (w : Word) : Word :=
  match w with
  | [.parameter "@" .value _ _ _] => w
  | w => .mark :: w ++ [.mark]

/-! ## Expansions -/

/-- The text up to a backquote.  A backslash in front of one, of a dollar sign
    or of itself is dropped, and between quotes one in front of a quote. -/
def backQuoted (quoted : Bool) : Nat → Reader (List Char)
  | 0 => refuse "EOF in backquote substitution"
  | fuel + 1 => do
    match ← take with
    | none => refuse "EOF in backquote substitution"
    | some '\x60' => return []
    | some '\\' =>
      match (← get).rest with
      | [] => return '\\' :: (← backQuoted quoted fuel)
      | c :: rest =>
        modify fun t => { t with rest }
        let kept := if c = '\\' ∨ c = '\x60' ∨ c = '$' ∨ (quoted ∧ c = '"') then [c] else ['\\', c]
        return kept ++ (← backQuoted quoted fuel)
    | some c =>
      if c = '\n' then nextLine
      return c :: (← backQuoted quoted fuel)

/-- What is wanted of a parameter, behind its name: the form, and whether an
    empty value counts as none.  A brace that follows the name is taken. -/
def form : Reader (Form × Bool) := do
  let ofChar (c : Option Char) : Form :=
    match c with
    | some '-' => .fallback
    | some '+' => .alternative
    | some '=' => .preset
    | some '?' => .demand
    | _ => .unfit
  match ← take with
  | some '\x7d' => return (.value, false)
  | some ':' => return (ofChar (← take), true)
  | some '%' =>
    if (← peek) = some '%' then do skip 1; return (.withoutEnd true, false)
    else return (.withoutEnd false, false)
  | some '#' =>
    if (← peek) = some '#' then do skip 1; return (.withoutStart true, false)
    else return (.withoutStart false, false)
  | c => return (ofChar c, false)

/-- The name of a parameter in braces, and what is wanted of it. -/
def header : Reader (String × Form × Bool) := do
  let named (cs : List Char) : Reader (String × Form × Bool) := do
    return (String.ofList cs, ← form)
  let counted (cs : List Char) : Reader (String × Form × Bool) := do
    let whole := (← peek) = some '\x7d'
    return (String.ofList cs, if whole then .length else .unfit, false)
  let limit ← size
  match ← peek with
  | none => return ("", .unfit, false)
  | some c =>
    if isNameStart c then named (← takeAll isNameChar limit)
    else if c.isDigit then named (← takeAll Char.isDigit limit)
    else if c = '\x7d' then return ("", .unfit, false)
    else if c ≠ '#' then do
      skip 1
      if isSpecial c then named [c] else return ("", .unfit, false)
    else do
      skip 1
      match ← peek with
      | some d =>
        if isNameStart d then counted (← takeAll isNameChar limit)
        else if d.isDigit then counted (← takeAll Char.isDigit limit)
        else
          -- a length is wanted if the brace closes behind one more character
          let saved ← get
          skip 1
          if d ≠ '\x7d' && (← peek) = some '\x7d' then
            return (String.ofList [d], if isSpecial d then .length else .unfit, false)
          else do
            set saved
            named ['#']
      | none => return ("#", .unfit, false)

section
variable (script : Bool → Reader Script)

/-- A script in backquotes. -/
def oldOutput (quoted : Bool) : Reader Word := do
  let cs ← backQuoted quoted ((← size) + 1)
  let outer ← get
  set { outer with rest := cs, line := 1, ahead := none, inUse := [], pending := [] }
  let s ← script false
  modify fun t => { outer with count := t.count, documents := t.documents }
  return [.output s quoted]

mutual

/-- The expansion behind a dollar sign. -/
def dollar (s : Surrounding) : Nat → Reader Word
  | 0 => pure [plain s '$']
  | fuel + 1 => do
    match ← peek with
    | some '(' =>
      skip 1
      if (← peek) = some '(' then do
        skip 1
        return [.arithmetic (← number fuel 0) s.quotes]
      else return [.output (← script true) s.quotes]
    | some '\x7b' =>
      skip 1
      let (name, form, strict) ← header
      if form = .value then return [.parameter name .value false [] s.quotes]
      else
        let inner := match form with
          | .withoutEnd _ | .withoutStart _ => Surrounding.nothing
          | _ => if s.quotes then .braced else .nothing
        let w ← operand (s == .document) inner fuel
        return [.parameter name form strict (tilded false w) s.quotes]
    | some c =>
      if isNameStart c then
        return [.parameter (String.ofList (← takeAll isNameChar (← size))) .value false [] s.quotes]
      else if isSpecial c then do
        skip 1
        return [.parameter (String.ofList [c]) .value false [] s.quotes]
      else return [plain s '$']
    | none => return [plain s '$']

/-- What stands between the braces of a parameter, behind its name. -/
def operand (inDocument : Bool) (s : Surrounding) : Nat → Reader Word
  | 0 => refuse "Missing '\x7d'"
  | fuel + 1 => do
    match ← take with
    | none =>
      refuse (if s = .nothing || inDocument then "Missing '\x7d'" else "Unterminated quoted string")
    | some '\x7d' => return []
    | some '"' =>
      let w := betweenMarks (← quotedPieces .braced fuel)
      return w ++ (← operand inDocument s fuel)
    | some '\'' =>
      if s = .nothing then do
        let w ← singleQuoted fuel
        return .mark :: w ++ .mark :: (← operand inDocument s fuel)
      else return .guarded '\'' :: (← operand inDocument s fuel)
    | some '$' => return (← dollar s fuel) ++ (← operand inDocument s fuel)
    | some '\x60' => return (← oldOutput script s.quotes) ++ (← operand inDocument s fuel)
    | some '\\' => return (← escaped s) ++ (← operand inDocument s fuel)
    | some c =>
      if c = '\n' then nextLine
      return plain s c :: (← operand inDocument s fuel)

/-- The pieces up to a double quote. -/
def quotedPieces (s : Surrounding) : Nat → Reader Word
  | 0 => refuse "Unterminated quoted string"
  | fuel + 1 => do
    match ← take with
    | none => refuse "Unterminated quoted string"
    | some '"' => return []
    | some '$' => return (← dollar .quoted fuel) ++ (← quotedPieces s fuel)
    | some '\x60' => return (← oldOutput script true) ++ (← quotedPieces s fuel)
    | some '\\' => return (← escaped s) ++ (← quotedPieces s fuel)
    | some c =>
      if c = '\n' then nextLine
      return .guarded c :: (← quotedPieces s fuel)

/-- The pieces of a number, up to the two brackets that close it; `depth` counts
    the brackets that are open. -/
def number : Nat → Nat → Reader Word
  | 0, _ => refuse "Missing '))'"
  | fuel + 1, depth => do
    match ← take with
    | none => refuse "Missing '))'"
    | some '(' => return .bare '(' :: (← number fuel (depth + 1))
    | some ')' =>
      match depth with
      | depth + 1 => return .bare ')' :: (← number fuel depth)
      | 0 =>
        if (← peek) = some ')' then do skip 1; return []
        else return .bare ')' :: (← number fuel 0)
    | some '$' => return (← dollar .number fuel) ++ (← number fuel depth)
    | some '\x60' => return (← oldOutput script true) ++ (← number fuel depth)
    | some '\\' => return (← escaped .number) ++ (← number fuel depth)
    | some c =>
      if c = '\n' then nextLine
      return .bare c :: (← number fuel depth)

end

/-- The pieces up to the end of a word.  In a delimiter, dollar signs and
    backquotes stand for themselves. -/
def wordPieces (isDelimiter : Bool) : Nat → Reader Word
  | 0 => pure []
  | fuel + 1 => do
    match ← peek with
    | none => return []
    | some c =>
      if isBreak c then return []
      else do
        skip 1
        let first ← match c with
          | '\'' => do pure (.mark :: (← singleQuoted ((← size) + 1)) ++ [.mark])
          | '"' => do
            if isDelimiter then pure (.mark :: (← delimiterQuoted ((← size) + 1)) ++ [.mark])
            else pure (betweenMarks (← quotedPieces script .quoted ((← size) + 1)))
          | '$' => if isDelimiter then pure [.bare '$'] else dollar script .nothing ((← size) + 1)
          | '\x60' => if isDelimiter then pure [.bare '\x60'] else oldOutput script false
          | '\\' => escaped .nothing
          | c => pure [.bare c]
        return first ++ (← wordPieces isDelimiter fuel)
where
  /-- The characters up to a double quote, in a delimiter. -/
  delimiterQuoted : Nat → Reader Word
    | 0 => refuse "Unterminated quoted string"
    | fuel + 1 => do
      match ← take with
      | none => refuse "Unterminated quoted string"
      | some '"' => return []
      | some '\\' => return (← escaped .quoted) ++ (← delimiterQuoted fuel)
      | some c =>
        if c = '\n' then nextLine
        return .guarded c :: (← delimiterQuoted fuel)

/-- A word. -/
def word (isDelimiter : Bool) : Reader Word := do wordPieces script isDelimiter ((← size) + 1)

/-! ## Texts for redirections -/

/-- The pieces of a text for a redirection, to its end. -/
def documentPieces : Nat → Reader Word
  | 0 => pure []
  | fuel + 1 => do
    match ← take with
    | none => return []
    | some '$' =>
      let w ← dollar script .document ((← size) + 1)
      return w ++ (← documentPieces fuel)
    | some '\x60' => return (← oldOutput script true) ++ (← documentPieces fuel)
    | some '\\' => return (← escaped .document) ++ (← documentPieces fuel)
    | some c =>
      if c = '\n' then nextLine
      return .guarded c :: (← documentPieces fuel)

/-- The first line of a text with its end, and the rest; lines are joined if
    backslashes count. -/
def firstLine (joins : Bool) : List Char → List Char × List Char
  | '\n' :: rest => (['\n'], rest)
  | '\\' :: c :: rest =>
    if joins then let (l, r) := firstLine joins rest; ('\\' :: c :: l, r)
    else if c = '\n' then (['\\', '\n'], rest)
    else let (l, r) := firstLine joins (c :: rest); ('\\' :: l, r)
  | c :: rest => let (l, r) := firstLine joins rest; (c :: l, r)
  | [] => ([], [])

/-- The lines up to a delimiter, and the rest behind it. -/
def linesUpTo (p : Pending) : Nat → List Char → List Char × List Char
  | 0, cs => ([], cs)
  | _, [] => ([], [])
  | fuel + 1, cs =>
    let (line, rest) := firstLine (!p.isPlain) cs
    let line := if p.isIndented then line.dropWhile (· = '\t') else line
    if line = p.delimiter ++ ['\n'] || (rest = [] && line = p.delimiter) then ([], rest)
    else let (more, rest) := linesUpTo p fuel rest; (line ++ more, rest)

/-- Read the text for a redirection. -/
def documentBody (p : Pending) : Reader Unit := do
  let t ← get
  let (body, rest) := linesUpTo p (t.rest.length + 1) t.rest
  let line := t.line + (t.rest.take (t.rest.length - rest.length)).count '\n'
  let pieces ← if p.isPlain then pure (body.map Piece.guarded) else do
    set { t with rest := body, ahead := none, pending := [] }
    documentPieces script (body.length + 1)
  modify fun t' =>
    { t with rest, line, count := t'.count, documents := (p.index, pieces) :: t'.documents }

/-- Read the texts that redirections are waiting for. -/
def documents : Reader Unit := do
  let t ← get
  set { t with pending := [] }
  t.pending.forM (documentBody script)

end

end Reader

end Supervisor.Host.Shell
