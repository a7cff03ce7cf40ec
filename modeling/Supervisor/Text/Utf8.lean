/-
  Bytes and the UTF-8 encoding.

  * `Utf8.encode` writes characters as bytes;
  * `Utf8.pieces` reads bytes as a sequence of pieces, a character for each
    well-formed sequence and `none` for each maximal ill-formed subpart;
  * `Utf8.decode?` accepts the bytes all of whose pieces are characters;
  * `Utf8.decodeLossy` puts U+FFFD for every ill-formed piece.

  The reader is a machine that takes one byte at a time (`Utf8.step`), so what
  it has read of a text is a function of the bytes read so far.
-/

namespace Supervisor

/-- A string of bytes. -/
abbrev Bytes := List UInt8

namespace Utf8

/-! ## Writing -/

/-- The one to four bytes of a character. -/
def encodeChar (c : Char) : Bytes :=
  let n := c.toNat
  if n < 0x80 then [n.toUInt8]
  else if n < 0x800 then [(0xC0 + n / 64).toUInt8, (0x80 + n % 64).toUInt8]
  else if n < 0x10000 then
    [(0xE0 + n / 4096).toUInt8, (0x80 + n / 64 % 64).toUInt8, (0x80 + n % 64).toUInt8]
  else
    [(0xF0 + n / 262144).toUInt8, (0x80 + n / 4096 % 64).toUInt8,
      (0x80 + n / 64 % 64).toUInt8, (0x80 + n % 64).toUInt8]

/-- The bytes of a text. -/
def encode (cs : List Char) : Bytes := cs.flatMap encodeChar

/-- The bytes of a string. -/
def ofString (s : String) : Bytes := encode s.toList

/-! ## Reading -/

/-- A sequence that has begun: how many bytes are missing, the range of the
    next one, and the bits read so far. -/
structure Pending where
  missing : Nat
  low : UInt8
  high : UInt8
  bits : Nat
  deriving DecidableEq

/-- What a byte yields at the start of a sequence: a character, an ill-formed
    piece, or a sequence that has begun. -/
def start (b : UInt8) : List (Option Char) × Option Pending :=
  if b < 0x80 then ([some (Char.ofNat b.toNat)], none)
  else if b < 0xC2 then ([none], none)
  else if b < 0xE0 then ([], some ⟨1, 0x80, 0xBF, b.toNat - 0xC0⟩)
  else if b = 0xE0 then ([], some ⟨2, 0xA0, 0xBF, 0⟩)
  else if b = 0xED then ([], some ⟨2, 0x80, 0x9F, 0xD⟩)
  else if b < 0xF0 then ([], some ⟨2, 0x80, 0xBF, b.toNat - 0xE0⟩)
  else if b = 0xF0 then ([], some ⟨3, 0x90, 0xBF, 0⟩)
  else if b < 0xF4 then ([], some ⟨3, 0x80, 0xBF, b.toNat - 0xF0⟩)
  else if b = 0xF4 then ([], some ⟨3, 0x80, 0x8F, 4⟩)
  else ([none], none)

/-- One byte.  A byte outside the range of a sequence that has begun ends that
    sequence as one ill-formed piece and is read anew. -/
def step : Option Pending → UInt8 → List (Option Char) × Option Pending
  | none, b => start b
  | some p, b =>
    if p.low ≤ b ∧ b ≤ p.high then
      let bits := p.bits * 64 + (b.toNat - 0x80)
      if p.missing ≤ 1 then ([some (Char.ofNat bits)], none)
      else ([], some ⟨p.missing - 1, 0x80, 0xBF, bits⟩)
    else
      let (out, next) := start b
      (none :: out, next)

/-- A reader that has taken some bytes: the sequence it is in, and the pieces
    behind it, latest first. -/
structure Reader where
  pending : Option Pending := none
  behind : List (Option Char) := []

/-- The reader after one more byte. -/
def Reader.feed (r : Reader) (b : UInt8) : Reader :=
  let (out, next) := step r.pending b
  ⟨next, out.reverse ++ r.behind⟩

/-- All pieces at the end of the bytes.  A sequence cut off by the end is one
    ill-formed piece. -/
def Reader.finish (r : Reader) : List (Option Char) :=
  (if r.pending.isSome then none :: r.behind else r.behind).reverse

/-- The pieces of a byte string. -/
def pieces (bs : Bytes) : List (Option Char) := (bs.foldl Reader.feed {}).finish

/-- The text of bytes that are well-formed throughout. -/
def decode? (bs : Bytes) : Option (List Char) := (pieces bs).mapM id

/-- The replacement character. -/
def replacement : Char := Char.ofNat 0xFFFD

/-- The text of any bytes, with U+FFFD for every ill-formed piece. -/
def decodeLossy (bs : Bytes) : List Char := (pieces bs).map (·.getD replacement)

end Utf8

end Supervisor
