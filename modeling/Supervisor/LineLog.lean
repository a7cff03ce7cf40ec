/-
  Output as log lines.

  * `splitLines` cuts bytes after each newline and keeps what stands behind the
    last one;
  * a `LineLog` holds that rest for each stream; `feed` adds bytes and gives
    the lines that are now complete, `close` gives the rests that are left;
  * the text of a line is decoded as a whole, so bytes that are cut anywhere
    give the same lines.
-/
import Supervisor.Stream
import Supervisor.Text.Utf8

namespace Supervisor

/-! ## Cutting bytes into lines -/

/-- The newline byte. -/
def newline : UInt8 := 10

/-- One more byte in front of lines and a rest. -/
def consByte (b : UInt8) : List Bytes × Bytes → List Bytes × Bytes
  | (lines, rest) =>
    if b = newline then ([b] :: lines, rest)
    else match lines with
      | [] => ([], b :: rest)
      | line :: more => ((b :: line) :: more, rest)

/-- The lines of some bytes, each with its newline, and the rest. -/
def splitLines (bs : Bytes) : List Bytes × Bytes := bs.foldr consByte ([], [])

/-! ## Lines -/

/-- A line of the log. -/
structure Line where
  stream : Stream
  text : String
  deriving DecidableEq

/-- Text without the line ends behind it. -/
def trimLineEnd (cs : List Char) : List Char :=
  (cs.reverse.dropWhile fun c => c = '\r' ∨ c = '\n').reverse

/-- The text of a line, decoded as a whole. -/
def lineText (bs : Bytes) : String := String.ofList (trimLineEnd (Utf8.decodeLossy bs))

/-- The line of some bytes on a stream. -/
def Line.ofBytes (s : Stream) (bs : Bytes) : Line := ⟨s, lineText bs⟩

/-- The bytes of each stream that have no newline yet. -/
structure LineLog where
  pending : PerStream Bytes := .both []
  deriving DecidableEq

namespace LineLog

/-- Add bytes, and give the lines that are complete. -/
def feed (l : LineLog) (s : Stream) (bs : Bytes) : List Line × LineLog :=
  let (lines, rest) := splitLines (l.pending.get s ++ bs)
  (lines.map (Line.ofBytes s), ⟨l.pending.set s rest⟩)

/-- Give what is left, unless nothing is. -/
def close (l : LineLog) : List Line :=
  Stream.all.flatMap fun s =>
    if l.pending.get s = [] then [] else [Line.ofBytes s (l.pending.get s)]

/-- The lines of writes on both streams, up to the closing of the log. -/
def linesOf (l : LineLog) : List (Stream × Bytes) → List Line
  | [] => l.close
  | (s, bs) :: rest =>
    let (lines, next) := l.feed s bs
    lines ++ next.linesOf rest

end LineLog

end Supervisor
