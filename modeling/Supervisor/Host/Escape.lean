/-
  Escapes in the texts that the programs of a host write.

  * `unescape` reads the backslash escapes of a text, of which the shell and the
    programs know different ones (`Escapes`).
-/
import Supervisor.Host.Digit
import Supervisor.Host.Octets

namespace Supervisor.Host

/-- Which escapes are read. -/
structure Escapes where
  /-- a zero may stand in front of three octal digits -/
  zeroed : Bool
  /-- hexadecimal digits -/
  hex : Bool
  /-- the end of all output -/
  ends : Bool
  /-- a double quote -/
  quote : Bool
  deriving DecidableEq

namespace Escapes

/-- The escapes in the text of a shell. -/
def shellText : Escapes := ⟨true, false, true, false⟩

/-- The escapes in a format of a shell. -/
def shellFormat : Escapes := ⟨false, false, false, false⟩

/-- The escapes in the text of a program. -/
def programText : Escapes := ⟨true, true, true, false⟩

/-- The escapes in a format of a program. -/
def programFormat : Escapes := ⟨false, true, true, true⟩

end Escapes

/-- The digits at the start, `n` at most, as a byte, and the rest. -/
def byteOf (base n : Nat) (isDigit : Char → Bool) (cs : List Char) : Bytes × List Char :=
  let digits := (cs.take n).takeWhile isDigit
  ([(digitsValue base digits).toUInt8], cs.drop digits.length)

/-- The escapes of one letter. -/
def letterEscapes : List (Char × UInt8) :=
  [('a', 7), ('b', 8), ('e', 27), ('f', 12), ('n', 10), ('r', 13), ('t', 9), ('v', 11), ('\\', 92)]

/-- One escape behind a backslash: its bytes and the rest, or `none` if it ends
    all output. -/
def escape (e : Escapes) (cs : List Char) : Option (Bytes × List Char) :=
  match cs with
  | [] => some ([92], [])
  | c :: rest =>
    match letterEscapes.lookup c with
    | some b => some ([b], rest)
    | none =>
      if c = 'c' && e.ends then none
      else if c = '0' && e.zeroed then some (byteOf 8 3 isOctal rest)
      else if isOctal c then some (byteOf 8 3 isOctal cs)
      else if c = 'x' && e.hex && rest.head?.any isHex then some (byteOf 16 2 isHex rest)
      else if c = '\x22' && e.quote then some ([34], rest)
      else some ([92, Octets.byte c], rest)

/-- The bytes of a text with escapes, and whether output goes on behind it. -/
def unescapeFor (e : Escapes) : Nat → List Char → Bytes × Bool
  | 0, _ => ([], true)
  | _, [] => ([], true)
  | fuel + 1, '\\' :: rest =>
    match escape e rest with
    | none => ([], false)
    | some (bs, rest) =>
      let (more, go) := unescapeFor e fuel rest
      (bs ++ more, go)
  | fuel + 1, c :: rest =>
    let (more, go) := unescapeFor e fuel rest
    (Octets.byte c :: more, go)

/-- The bytes of a text with escapes, and whether output goes on behind it. -/
def unescape (e : Escapes) (cs : List Char) : Bytes × Bool := unescapeFor e (cs.length + 1) cs

end Supervisor.Host
