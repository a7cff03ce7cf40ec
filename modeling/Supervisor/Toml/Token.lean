/-
  TOML documents as tokens.

  * `Token` is a mark, a run of blanks, a comment, a line end, a quoted text or
    an atom, which is a run of other characters;
  * `Token.scan` splits a text into tokens.  It never fails: a quoted text that
    is not closed or a carriage return that stands alone is a token too, and
    what is wrong with it is said where it is read.  A quoted text that ends
    with its quotes counts as closed by them, even if a backslash stands before
    the first (`quotedToken`).

  The scanner is a machine that takes one character at a time (`Scanner.feed`).
-/

namespace Supervisor.Toml

/-- The four ways to quote a text. -/
inductive Quoting where
  /-- between `'` -/
  | literal
  /-- between `"` -/
  | basic
  /-- between three `'` -/
  | longLiteral
  /-- between three `"` -/
  | longBasic
  deriving DecidableEq

/-- A text as it is written between quotes. -/
structure Quoted where
  quoting : Quoting
  body : List Char
  /-- whether the closing quotes are there -/
  closed : Bool
  deriving DecidableEq

/-- A token of a document. -/
inductive Token where
  | dot | equals | comma | openSquare | closeSquare | openCurly | closeCurly
  /-- spaces and tabs -/
  | blanks (cs : List Char)
  | comment (cs : List Char)
  | newline
  /-- a carriage return without a line feed -/
  | strayReturn
  | quoted (q : Quoted)
  | atom (cs : List Char)
  deriving DecidableEq

/-! ## Characters -/

/-- The token that a character is by itself. -/
def Token.ofMark? : Char → Option Token
  | '.' => some .dot
  | '=' => some .equals
  | ',' => some .comma
  | '[' => some .openSquare
  | ']' => some .closeSquare
  | '\x7b' => some .openCurly
  | '\x7d' => some .closeCurly
  | '\n' => some .newline
  | _ => none

/-- Whether a character is a space or a tab. -/
def isSpacing (c : Char) : Bool := c = ' ' || c = '\t'

/-- Whether a character ends an atom.  Quotes do not. -/
def endsAtom (c : Char) : Bool :=
  (Token.ofMark? c).isSome || isSpacing c || c = '#' || c = '\r'

/-! ## The scanner -/

/-- What the scanner is in.  Characters read are kept latest first. -/
inductive Mode where
  | ground
  | blanks (cs : List Char)
  | atom (cs : List Char)
  | comment (cs : List Char)
  /-- behind a carriage return -/
  | carriage
  /-- behind one or, if `twice`, two quotes -/
  | opening (quote : Char) (twice : Bool)
  /-- in a quoted text, behind a backslash if `escaped` -/
  | short (quote : Char) (cs : List Char) (escaped : Bool)
  /-- in a text between three quotes, behind a backslash if `escaped` or behind
      `run` quotes, of which the first three close the text -/
  | long (quote : Char) (cs : List Char) (escaped : Bool) (run : Nat)
  deriving DecidableEq

/-- How a text between single quotes of that character is quoted. -/
def shortQuoting (quote : Char) : Quoting := if quote = '"' then .basic else .literal

/-- How a text between three quotes of that character is quoted. -/
def longQuoting (quote : Char) : Quoting := if quote = '"' then .longBasic else .longLiteral

/-- The token of a quoted text that ends here, its characters latest first: the
    last `count` of them close it if they are quotes. -/
def quotedToken (quoting : Quoting) (quote : Char) (count : Nat) (cs : List Char) : Token :=
  if cs.take count = List.replicate count quote then
    .quoted ⟨quoting, (cs.drop count).reverse, true⟩
  else .quoted ⟨quoting, cs.reverse, false⟩

/-- The token of a text between single quotes. -/
def shortToken (quote : Char) (cs : List Char) : Token :=
  quotedToken (shortQuoting quote) quote 1 cs

/-- The token of a text between three quotes.  Its last three quotes close it,
    the ones before belong to it. -/
def longToken (quote : Char) (cs : List Char) : Token :=
  quotedToken (longQuoting quote) quote 3 cs

/-- Tokens found, and what follows them. -/
abbrev Scan := List Token × Mode

/-- A character at the start of a token. -/
def groundStep (c : Char) : Scan :=
  match Token.ofMark? c with
  | some t => ([t], .ground)
  | none =>
    if isSpacing c then ([], .blanks [c])
    else if c = '#' then ([], .comment [])
    else if c = '\r' then ([], .carriage)
    else if c = '"' || c = '\'' then ([], .opening c false)
    else ([], .atom [c])

/-- A token, and then a character at the start of the next one. -/
def endWith (t : Token) (c : Char) : Scan :=
  let (ts, mode) := groundStep c
  (t :: ts, mode)

/-- A character in a quoted text, which a line feed leaves unclosed. -/
def shortStep (quote : Char) (cs : List Char) (escaped : Bool) (c : Char) : Scan :=
  if c = '\n' then endWith (shortToken quote cs) c
  else if escaped && (c = '\\' || c = '"') then ([], .short quote (c :: cs) false)
  else if c = quote then ([shortToken quote (c :: cs)], .ground)
  else ([], .short quote (c :: cs) (quote = '"' && c = '\\'))

/-- A character in a text between three quotes. -/
def longStep (quote : Char) (cs : List Char) (escaped : Bool) (run : Nat) (c : Char) : Scan :=
  if 3 ≤ run then
    if c = quote && run < 5 then ([], .long quote (c :: cs) false (run + 1))
    else endWith (longToken quote cs) c
  else if escaped && (c = '\\' || c = '"') then ([], .long quote (c :: cs) false 0)
  else if c = quote then ([], .long quote (c :: cs) false (run + 1))
  else ([], .long quote (c :: cs) (quote = '"' && c = '\\') 0)

/-- One character. -/
def scanStep : Mode → Char → Scan
  | .ground, c => groundStep c
  | .blanks cs, c =>
    if isSpacing c then ([], .blanks (c :: cs)) else endWith (.blanks cs.reverse) c
  | .atom cs, c => if endsAtom c then endWith (.atom cs.reverse) c else ([], .atom (c :: cs))
  | .comment cs, c =>
    if c = '\n' || c = '\r' then endWith (.comment cs.reverse) c else ([], .comment (c :: cs))
  | .carriage, c => if c = '\n' then ([.newline], .ground) else endWith .strayReturn c
  | .opening quote false, c =>
    if c = quote then ([], .opening quote true) else shortStep quote [] false c
  | .opening quote true, c =>
    if c = quote then ([], .long quote [] false 0)
    else endWith (shortToken quote [quote]) c
  | .short quote cs escaped, c => shortStep quote cs escaped c
  | .long quote cs escaped run, c => longStep quote cs escaped run c

/-- The token that the end of the text completes. -/
def lastToken : Mode → List Token
  | .ground => []
  | .blanks cs => [.blanks cs.reverse]
  | .atom cs => [.atom cs.reverse]
  | .comment cs => [.comment cs.reverse]
  | .carriage => [.strayReturn]
  | .opening quote false => [shortToken quote []]
  | .opening quote true => [shortToken quote [quote]]
  | .short quote cs _ => [shortToken quote cs]
  | .long quote cs _ _ => [longToken quote cs]

/-- A scanner that has read some characters: the tokens found, latest first. -/
structure Scanner where
  mode : Mode := .ground
  found : List Token := []

/-- The scanner after one more character. -/
def Scanner.feed (s : Scanner) (c : Char) : Scanner :=
  let (ts, mode) := scanStep s.mode c
  ⟨mode, ts.reverse ++ s.found⟩

/-- The tokens at the end of the text. -/
def Scanner.finish (s : Scanner) : List Token := s.found.reverse ++ lastToken s.mode

/-- A text without the byte order mark that may stand before it. -/
def dropMark : List Char → List Char
  | c :: cs => if c = Char.ofNat 0xFEFF then cs else c :: cs
  | [] => []

/-- The tokens of a document. -/
def Token.scan (text : List Char) : List Token :=
  ((dropMark text).foldl Scanner.feed {}).finish

end Supervisor.Toml
