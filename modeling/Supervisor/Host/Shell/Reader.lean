/-
  Reading shell scripts.

  * `Script.next` takes one complete command off a text, with the texts that
    its redirections read, or says what is wrong with it.
-/
import Supervisor.Host.Digit
import Supervisor.Host.Shell.Word

namespace Supervisor.Host.Shell

namespace Token

/-- The words that have a meaning of their own at the start of a command. -/
def keywords : List String :=
  ["!", "case", "do", "done", "elif", "else", "esac", "fi", "for", "if", "in", "then", "until",
    "while", "\x7b", "\x7d"]

/-- The keywords that end what stands in front of them. -/
def closers : List String := ["do", "done", "elif", "else", "esac", "fi", "then", "\x7d"]

/-- Whether a token ends a list of commands. -/
def endsList : Token → Bool
  | operator s => s = ")" || s = ";;"
  | keyword k => closers.contains k
  | ending => true
  | _ => false

/-- How a token is called. -/
def describe : Token → String
  | word _ => "word"
  | keyword k => "\"" ++ k ++ "\""
  | operator "\n" => "newline"
  | operator s => "\"" ++ s ++ "\""
  | redirect _ _ => "redirection"
  | ending => "end of file"

/-- Whether a token is an operator. -/
def isOperator (s : String) : Token → Bool
  | operator s' => s = s'
  | _ => false

/-- Whether a token is a keyword. -/
def isKeyword (k : String) : Token → Bool
  | keyword k' => k = k'
  | _ => false

end Token

/-- What is looked for in a token. -/
structure Look where
  /-- line ends are passed over -/
  passesLines : Bool := false
  keywords : Bool := false
  aliases : Bool := false

namespace Look

/-- The start of a command. -/
def atCommand : Look := ⟨false, true, true⟩

/-- The start of a command, perhaps on a later line. -/
def afterLines : Look := ⟨true, true, true⟩

end Look

namespace Reader

/-- The token cannot stand where it is. -/
def unexpected {α : Type} (t : Token) (wanted : Option String) : Reader α :=
  let hint := (wanted.map fun k => " (expecting " ++ k ++ ")").getD ""
  refuse (t.describe ++ " unexpected" ++ hint)

/-- A word between quotes, as complaints name it. -/
def quote (s : String) : String := "\"" ++ s ++ "\""

/-- Give a token back, to be read again. -/
def unread (t : Token) : Reader Unit := modify fun x => { x with ahead := some t }

/-! ## Tokens -/

/-- Pass over blanks and a comment. -/
def skipBlanks : Nat → Reader Unit
  | 0 => pure ()
  | fuel + 1 => do
    match ← peek with
    | some ' ' | some '\t' => do skip 1; skipBlanks fuel
    | some '#' => modify fun t => { t with rest := t.rest.dropWhile (· ≠ '\n') }
    | _ => pure ()

/-- The longest operator that goes on behind one that was read. -/
def longest (s : String) (more : List Char) : Reader String := do
  match ← peek with
  | some c => if more.contains c then do skip 1; return s.push c else return s
  | none => return s

/-- The operator of a redirection. -/
def redirection : Reader String := do
  match ← take with
  | some '>' => longest ">" ['>', '|', '&']
  | _ =>
    match ← longest "<" ['<', '&', '>'] with
    | "<<" => longest "<<" ['-']
    | s => return s

section
variable (script : Bool → Reader Script)

/-- A token as it stands, with how much text is left where it starts. -/
def bareToken (isDelimiter : Bool) : Reader (Token × Nat) := do
  skipBlanks ((← size) + 1)
  let start ← size
  let operator (s : String) : Reader (Token × Nat) := return (.operator s, start)
  match ← peek with
  | none => do documents script; return (.ending, start)
  | some '\n' => do skip 1; nextLine; documents script; operator "\n"
  | some '&' => do skip 1; operator (← longest "&" ['&'])
  | some '|' => do skip 1; operator (← longest "|" ['|'])
  | some ';' => do skip 1; operator (← longest ";" [';'])
  | some '(' => do skip 1; operator "("
  | some ')' => do skip 1; operator ")"
  | some _ => do
    let w ← word script isDelimiter
    let fd := match w with
      | [.bare c] => if c.isDigit then some (digitValue c) else none
      | _ => none
    let next ← peek
    if (w.isEmpty || fd.isSome) && (next = some '<' || next = some '>') then
      return (.redirect fd (← redirection), start)
    else return (.word w, start)

/-- A token behind line ends, if they are passed over. -/
def lineToken (passesLines : Bool) : Nat → Reader (Token × Nat)
  | 0 => return (.ending, 0)
  | fuel + 1 => do
    let (t, start) ← bareToken script false
    if passesLines && t.isOperator "\n" then lineToken passesLines fuel else return (t, start)

/-- A token that is not given back.  An alias is read in place of its name,
    unless it is within its own text. -/
def freshToken (look : Look) : Nat → Reader Token
  | 0 => return .ending
  | fuel + 1 => do
    let before ← get
    let (t, start) ← lineToken script look.passesLines (before.rest.length + 1)
    -- behind an alias that ends in a blank, the next word may be one, too
    let follows := before.inUse.any fun (name, left) =>
      start ≤ left && left < before.rest.length &&
        ((before.aliases.lookup name).bind List.getLast?).any fun c => c = ' ' ∨ c = '\t'
    modify fun x => { x with inUse := x.inUse.filter fun (_, left) => left < start }
    match t with
    | .word w =>
      match bareText? w with
      | none => return t
      | some s =>
        if look.keywords && Token.keywords.contains s then return .keyword s
        else
          let now ← get
          let text := if look.aliases || follows then now.aliases.lookup s else none
          match text, now.inUse.any (·.1 = s) with
          | some cs, false =>
            modify fun x =>
              { x with rest := cs ++ x.rest, inUse := (s, x.rest.length) :: x.inUse }
            freshToken look fuel
          | _, _ => return t
    | t => return t

/-- A token. -/
def token (look : Look) : Reader Token := do
  let before ← get
  set { before with ahead := none }
  match before.ahead.filter fun t => !(look.passesLines && t.isOperator "\n") with
  | some t => return t
  | none => freshToken script look (before.rest.length + before.aliases.length + 2)

/-- Read a keyword. -/
def expect (k : String) : Reader Unit := do
  let t ← token script {}
  if t.isKeyword k then pure () else unexpected t (some (quote k))

/-! ## Redirections -/

/-- The word that a redirection needs. -/
def target (isDelimiter : Bool) : Reader Word := do
  match (← bareToken script isDelimiter).1 with
  | .word w => return w
  | t => unexpected t none

/-- The rest of a redirection. -/
def redirect (fd : Option Nat) (s : String) : Reader Redirect := do
  let file (standard : Nat) (o : Opening) : Reader Redirect :=
    return .file (fd.getD standard) o (← target script false)
  match s with
  | ">" => file 1 .emptied
  | ">|" => file 1 .forced
  | ">>" => file 1 .extended
  | "<" => file 0 .reading
  | "<>" => file 0 .both
  | ">&" => return .duplicate (fd.getD 1) (← target script false)
  | "<&" => return .duplicate (fd.getD 0) (← target script false)
  | s =>
    let w ← target script true
    let t ← get
    let pending : Pending := ⟨t.count, unquotedText w, w.any Piece.isQuote, s = "<<-"⟩
    set { t with count := t.count + 1, pending := t.pending ++ [pending] }
    return .document (fd.getD 0) ((t.known.lookup t.count).getD [])

/-- The redirections behind a command. -/
def redirects : Nat → Reader (List Redirect)
  | 0 => return []
  | fuel + 1 => do
    match ← token script .atCommand with
    | .redirect fd s =>
      let r ← redirect script fd s
      return r :: (← redirects fuel)
    | t => do unread t; return []

/-! ## Commands -/

/-- The words up to the end of a line or a semicolon. -/
def wordsToEnd : Nat → Reader (List Word)
  | 0 => return []
  | fuel + 1 => do
    match ← token script {} with
    | .word w => return w :: (← wordsToEnd fuel)
    | .operator "\n" | .operator ";" => return []
    | t => unexpected t none

/-- The words and line over which a loop goes, where none are named: the
    arguments. -/
def allArguments : List Word := [[.parameter "@" .value false [] true]]

/-- The head of a loop over words: its variable and the words. -/
def loopHead : Reader (String × List Word) := do
  let name ← match ← token script {} with
    | .word w => pure (((bareText? w).filter isName).getD "")
    | _ => pure ""
  if name = "" then refuse "Bad for loop variable"
  let t ← token script .afterLines
  if t.isKeyword "in" then return (name, ← wordsToEnd script ((← size) + 2))
  else do
    if !t.isOperator ";" then unread t
    return (name, allArguments)

/-- The word that a token stands for where a pattern is read. -/
def patternOf : Token → Word
  | .word w => w
  | .keyword k => k.toList.map .bare
  | _ => []

/-- The patterns of an arm, up to the bracket that closes them. -/
def patterns (first : Token) : Nat → Reader (List Word)
  | 0 => return []
  | fuel + 1 => do
    let t ← token script {}
    if t.isOperator "|" then do
      let next ← token script {}
      return patternOf first :: (← patterns next fuel)
    else if t.isOperator ")" then return [patternOf first]
    else unexpected t (some (quote ")"))

end

/-- Which list of commands is read. -/
inductive ListKind where
  /-- up to the end of a line -/
  | line
  /-- up to a closing word, and not empty -/
  | body
  /-- up to a closing word -/
  | block
  deriving DecidableEq

/-- The names that no script can be given. -/
def reservedNames : List String :=
  [":", ".", "break", "continue", "eval", "exec", "exit", "export", "local", "readonly", "return",
    "set", "shift", "times", "trap", "unset"]

/-- One script behind another one. -/
def follow (before : Option Script) (s : Script) : Script :=
  match before with
  | some b => .seq b s
  | none => s

mutual

/-- A script inside of a word. -/
def nested : Nat → Bool → Reader Script
  | 0, _ => return .nothing
  | fuel + 1, isBracketed => do
    let outer ← get
    set { outer with pending := [] }
    let s ← list fuel .block true none
    if isBracketed then
      let t ← token (nested fuel) {}
      if !t.isOperator ")" then unexpected t (some (quote ")"))
      documents (nested fuel)
    modify fun t => { t with pending := outer.pending }
    return s

/-- A list of commands, behind those that were read. -/
def list : Nat → ListKind → Bool → Option Script → Reader Script
  | 0, _, _, before => return before.getD .nothing
  | fuel + 1, kind, isFirst, before => do
    let t ← token (nested fuel) ⟨kind ≠ .line, true, true⟩
    let stop : Reader Script := do unread t; return before.getD .nothing
    match t with
    | .operator "\n" => return before.getD .nothing
    | .ending => stop
    | t =>
      if t.endsList && (kind = .block || (kind = .body && !isFirst)) then stop
      else do
        unread t
        let s ← andOr fuel
        let t ← token (nested fuel) {}
        let s := follow before (if t.isOperator "&" then .background s else s)
        match t with
        | .operator "&" | .operator ";" => list fuel kind false (some s)
        | .operator "\n" => do unread t; list fuel kind false (some s)
        | .ending => do unread t; return s
        | t =>
          if kind = .line then unexpected t none
          else do unread t; return s

/-- Pipelines joined by "and" and "or". -/
def andOr : Nat → Reader Script
  | 0 => return .nothing
  | fuel + 1 => do joinedTo fuel (← pipeline fuel false)

/-- What is joined to a pipeline by "and" and "or". -/
def joinedTo : Nat → Script → Reader Script
  | 0, s => return s
  | fuel + 1, s => do
    match ← token (nested fuel) {} with
    | .operator "&&" => joinedTo fuel (.both s (← pipeline fuel true))
    | .operator "||" => joinedTo fuel (.either s (← pipeline fuel true))
    | t => do unread t; return s

/-- A pipeline, which may be negated. -/
def pipeline : Nat → Bool → Reader Script
  | 0, _ => return .nothing
  | fuel + 1, passesLines => do
    let t ← token (nested fuel) ⟨passesLines, true, true⟩
    let isNegated := t.isKeyword "!"
    if !isNegated then unread t
    let first ← command fuel .atCommand
    let more ← piped fuel
    let s := if more.isEmpty then first else .pipe (first :: more)
    return if isNegated then .negate s else s

/-- The commands behind the first one of a pipeline. -/
def piped : Nat → Reader (List Script)
  | 0 => return []
  | fuel + 1 => do
    let t ← token (nested fuel) {}
    if t.isOperator "|" then
      let s ← command fuel .afterLines
      return s :: (← piped fuel)
    else do unread t; return []

/-- A command. -/
def command : Nat → Look → Reader Script
  | 0, _ => return .nothing
  | fuel + 1, look => do
    let t ← token (nested fuel) look
    let line := (← get).line
    match t with
    | .word _ | .redirect _ _ => do
      unread t
      simple fuel line true [] [] []
    | t =>
      let body ← match t with
        | .keyword "if" => branch fuel
        | .keyword "while" => do
          let condition ← list fuel .body true none
          expect (nested fuel) "do"
          let body ← list fuel .body true none
          expect (nested fuel) "done"
          pure (.loop true condition body)
        | .keyword "until" => do
          let condition ← list fuel .body true none
          expect (nested fuel) "do"
          let body ← list fuel .body true none
          expect (nested fuel) "done"
          pure (.loop false condition body)
        | .keyword "for" => do
          let (name, words) ← loopHead (nested fuel)
          let t ← token (nested fuel) .afterLines
          if !t.isKeyword "do" then unexpected t (some (quote "do"))
          let body ← list fuel .body true none
          expect (nested fuel) "done"
          pure (.each line name words body)
        | .keyword "case" => choice fuel line
        | .operator "(" => do
          let body ← list fuel .body true none
          let t ← token (nested fuel) {}
          if !t.isOperator ")" then unexpected t (some (quote ")"))
          pure (.subshell line body [])
        | .keyword "\x7b" => do
          let body ← list fuel .body true none
          expect (nested fuel) "\x7d"
          pure body
        | t => unexpected t none
      match body, ← redirects (nested fuel) ((← size) + 2) with
      | body, [] => return body
      | .subshell line body _, rs => return .subshell line body rs
      | body, rs => return .redirected line body rs

/-- A conditional behind its first word. -/
def branch : Nat → Reader Script
  | 0 => return .nothing
  | fuel + 1 => do
    let condition ← list fuel .body true none
    expect (nested fuel) "then"
    let yes ← list fuel .body true none
    match ← token (nested fuel) {} with
    | .keyword "elif" => return .branch condition yes (← branch fuel)
    | .keyword "else" => do
      let no ← list fuel .body true none
      expect (nested fuel) "fi"
      return .branch condition yes no
    | .keyword "fi" => return .branch condition yes .nothing
    | t => unexpected t (some (quote "fi"))

/-- A choice behind its first word. -/
def choice : Nat → Nat → Reader Script
  | 0, _ => return .nothing
  | fuel + 1, line => do
    match ← token (nested fuel) {} with
    | .word subject =>
      let t ← token (nested fuel) .afterLines
      if !t.isKeyword "in" then unexpected t (some (quote "in"))
      return .choose line subject (← arms fuel)
    | t => unexpected t (some "word")

/-- The arms of a choice, up to its end. -/
def arms : Nat → Reader (List (List Word × Script))
  | 0 => return []
  | fuel + 1 => do
    let t ← token (nested fuel) ⟨true, true, false⟩
    if t.isKeyword "esac" then return []
    else do
      let first ← if t.isOperator "(" then token (nested fuel) {} else pure t
      let ws ← patterns (nested fuel) first ((← size) + 2)
      let body ← list fuel .block true none
      let t ← token (nested fuel) ⟨true, true, false⟩
      if t.isKeyword "esac" then return [(ws, body)]
      else if t.isOperator ";;" then return (ws, body) :: (← arms fuel)
      else unexpected t (some (quote ";;"))

/-- A simple command, or a script that is given a name; what was read of it is
    latest first.  `isStart` says that only assignments and redirections were
    read. -/
def simple : Nat → Nat → Bool → List (String × Word) → List Word → List Redirect → Reader Script
  | 0, line, _, sets, ws, rs => return .simple line sets.reverse ws.reverse rs.reverse
  | fuel + 1, line, isStart, sets, ws, rs => do
    match ← token (nested fuel) { aliases := isStart } with
    | .word w =>
      match if isStart then assignment? w else none with
      | some a => simple fuel line true (a :: sets) ws rs
      | none => simple fuel line false sets (w :: ws) rs
    | .redirect fd s =>
      let r ← redirect (nested fuel) fd s
      simple fuel line isStart sets ws (r :: rs)
    | t =>
      match t, sets, ws, rs with
      | .operator "(", [], [w], [] => do
        let t ← token (nested fuel) {}
        if !t.isOperator ")" then unexpected t (some (quote ")"))
        let name := (bareText? w).getD ""
        if !isName name || reservedNames.contains name then refuse "Bad function name"
        return .define name (← command fuel .afterLines)
      | t, _, _, _ => do
        unread t
        return .simple line sets.reverse ws.reverse rs.reverse

end

end Reader

/-! ## Whole texts -/

namespace Script

/-- How deep what is left of a text can nest. -/
def depth (t : Text) : Nat := 16 * (t.rest.length + (t.aliases.map (·.2.length)).foldl Nat.add 0) + 64

/-- Take a complete command off a text that knows the texts for its
    redirections, or as many of them as were found when it was read before. -/
def nextFor : Nat → Text → Except SyntaxError (Script × Text)
  | 0, t => (Reader.list (depth t) .line true none) t
  | tries + 1, t => do
    let (s, after) ← (Reader.list (depth t) .line true none) t
    if after.documents.isEmpty then return (s, after)
    else nextFor tries { t with known := after.documents }

/-- How deep texts for redirections can nest in each other. -/
def documentDepth : Nat := 3

/-- Whether a text was read to its end. -/
def isOver (t : Text) : Bool :=
  match t.ahead with
  | some .ending => true
  | _ => false

/-- Take a complete command off a text. -/
def next (t : Text) : Except SyntaxError (Script × Text) :=
  nextFor documentDepth { t with ahead := none, count := 0, known := [], pending := [], documents := [] }

end Script

end Supervisor.Host.Shell
