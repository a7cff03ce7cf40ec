/-
  Reading quoted texts.

  * `Quoted.read` is the text that a quoted text stands for: as it is between
    `'`, with escapes resolved between `"`; between three quotes a line end
    right behind them does not count, and a backslash before a line end joins
    lines;
  * `Key.read` is the text of a part of a key.
-/
import Supervisor.Toml.Fault
import Supervisor.Toml.Layout

namespace Supervisor.Toml

/-! ## Literal texts -/

/-- A text between `'`: no control but tab. -/
def readLiteral (cs : List Char) : Except Fault (List Char) :=
  if cs.all isPrinting then .ok cs else .error .malformed

/-- Whether every carriage return stands before a line feed and no other
    control but tab occurs. -/
def printsLines : List Char → Bool
  | [] => true
  | '\r' :: '\n' :: rest => printsLines rest
  | c :: rest => (c = '\n' || isPrinting c) && printsLines rest

/-- A text without the line end that it may begin with. -/
def dropLineEnd : List Char → List Char
  | '\n' :: rest => rest
  | '\r' :: '\n' :: rest => rest
  | cs => cs

/-! ## Escapes -/

/-- The characters with a short escape. -/
def shortEscapes : List (Char × Char) :=
  [('b', '\x08'), ('t', '\t'), ('n', '\n'), ('f', '\x0c'), ('r', '\r'), ('e', '\x1b'), ('"', '"'),
    ('\\', '\\')]

/-- How many hexadecimal digits follow a letter that names a character. -/
def hexLength : Char → Option Nat
  | 'x' => some 2
  | 'u' => some 4
  | 'U' => some 8
  | _ => none

/-- The value of a hexadecimal digit. -/
def hexValue? (c : Char) : Option Nat :=
  if c.isDigit then some (c.toNat - '0'.toNat)
  else if 'a' ≤ c ∧ c ≤ 'f' then some (c.toNat - 'a'.toNat + 10)
  else if 'A' ≤ c ∧ c ≤ 'F' then some (c.toNat - 'A'.toNat + 10)
  else none

/-- The number of a string of digits in a base. -/
def digitsValue (base : Nat) (ds : List Nat) : Nat := ds.foldl (fun n d => n * base + d) 0

/-- The character with a number. -/
def character? (n : Nat) : Option Char :=
  if h : n.isValidChar then some (Char.ofNatAux n h) else none

/-- What the reader of a text with escapes is in; digits are kept latest
    first. -/
inductive EscapeMode where
  | plain
  /-- behind a backslash -/
  | escape
  /-- in the digits of a character, of which `missing` are missing -/
  | hex (missing : Nat) (ds : List Nat)
  /-- behind a backslash and blanks, before the line end -/
  | joining
  /-- behind a joined line end -/
  | joined
  /-- behind a carriage return, which a line feed must follow -/
  | carriage (then_ : EscapeMode)

/-- A character behind a backslash. -/
def escapeStep (long : Bool) (c : Char) : Except Fault (List Char × EscapeMode) :=
  match shortEscapes.lookup c, hexLength c with
  | some d, _ => .ok ([d], .plain)
  | none, some k => .ok ([], .hex k [])
  | none, none =>
    if !long then .error .malformed
    else if c = '\n' then .ok ([], .joined)
    else if c = '\r' then .ok ([], .carriage .joined)
    else if isSpacing c then .ok ([], .joining)
    else .error .malformed

/-- A plain character.  Line ends may stand only in a `long` text. -/
def plainStep (long : Bool) (c : Char) : Except Fault (List Char × EscapeMode) :=
  if c = '\\' then .ok ([], .escape)
  else if isPrinting c then .ok ([c], .plain)
  else if long && c = '\n' then .ok ([c], .plain)
  else if long && c = '\r' then .ok ([c], .carriage .plain)
  else .error .malformed

/-- One character of a text with escapes. -/
def basicStep (long : Bool) : EscapeMode → Char → Except Fault (List Char × EscapeMode)
  | .plain, c => plainStep long c
  | .escape, c => escapeStep long c
  | .hex missing ds, c =>
    match hexValue? c with
    | none => .error .malformed
    | some d =>
      if 1 < missing then .ok ([], .hex (missing - 1) (d :: ds))
      else match character? (digitsValue 16 (d :: ds).reverse) with
        | some ch => .ok ([ch], .plain)
        | none => .error .noCharacter
  | .joining, c =>
    if isSpacing c then .ok ([], .joining)
    else if c = '\n' then .ok ([], .joined)
    else if c = '\r' then .ok ([], .carriage .joined)
    else .error .malformed
  | .joined, c =>
    if isSpacing c || c = '\n' then .ok ([], .joined)
    else if c = '\r' then .ok ([], .carriage .joined)
    else plainStep long c
  | .carriage then_, c =>
    if c ≠ '\n' then .error .malformed
    else match then_ with
      | .plain => .ok ([c], .plain)
      | mode => .ok ([], mode)

/-- A reader of a text with escapes: the characters read, latest first. -/
structure BasicReader where
  mode : EscapeMode := .plain
  behind : List Char := []

/-- The reader after one more character. -/
def BasicReader.feed (long : Bool) (r : BasicReader) (c : Char) : Except Fault BasicReader := do
  let (out, mode) ← basicStep long r.mode c
  return ⟨mode, out.reverse ++ r.behind⟩

/-- A text between `"`. -/
def readBasic (long : Bool) (cs : List Char) : Except Fault (List Char) := do
  let r ← cs.foldlM (BasicReader.feed long) {}
  match r.mode with
  | .plain | .joined => return r.behind.reverse
  | _ => .error .malformed

/-! ## Quoted texts and keys -/

/-- The text that a quoted text stands for. -/
def Quoted.read (q : Quoted) : Except Fault (List Char) :=
  if !q.closed then .error .malformed
  else match q.quoting with
    | .literal => readLiteral q.body
    | .basic => readBasic false q.body
    | .longLiteral =>
      let body := dropLineEnd q.body
      if printsLines body then .ok body else .error .malformed
    | .longBasic => readBasic true (dropLineEnd q.body)

/-- Whether a character may stand in a bare key. -/
def isKeyChar (c : Char) : Bool := c.isAlphanum || c = '-' || c = '_'

/-- The text of a part of a key.  It does not span lines. -/
def Key.read : Key → Except Fault (List Char)
  | .bare cs => if !cs.isEmpty && cs.all isKeyChar then .ok cs else .error .malformed
  | .quoted q =>
    match q.quoting with
    | .literal | .basic => q.read
    | .longLiteral | .longBasic => .error .malformed

/-- The texts of the parts of a key, of which there may not be too many. -/
def readKeys (keys : List Key) : Except Fault (List (List Char)) := do
  let texts ← keys.mapM Key.read
  if nestingLimit < texts.length then .error .malformed else return texts

end Supervisor.Toml
