/-
  Texts on a host.

  A host knows no characters, only bytes: inside of it a text is a string each
  of whose characters stands for one byte.

  * `Octets.ofString` is a text as it comes to a host, and `Octets.ofBytes` and
    `Octets.bytes` lead from bytes to such a text and back.
-/
import Supervisor.Text.Utf8

namespace Supervisor.Host.Octets

/-- The character that stands for a byte. -/
def char (b : UInt8) : Char := Char.ofNat b.toNat

/-- The byte that a character stands for. -/
def byte (c : Char) : UInt8 := c.toNat.toUInt8

/-- Bytes as characters. -/
def chars (bs : Bytes) : List Char := bs.map char

/-- Bytes as a text of a host. -/
def ofBytes (bs : Bytes) : String := String.ofList (chars bs)

/-- The bytes of characters of a host. -/
def encode (cs : List Char) : Bytes := cs.map byte

/-- The bytes of a text of a host. -/
def bytes (s : String) : Bytes := encode s.toList

/-- A text as it comes to a host. -/
def ofString (s : String) : String := ofBytes (Utf8.ofString s)

end Supervisor.Host.Octets
