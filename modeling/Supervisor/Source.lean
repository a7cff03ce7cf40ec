/-
  Output of a child as it arrives over time.

  * a `Source` is one stream: what arrives and when, in order, and until when
    it is held open by the child and by others that the child has started;
  * `Source.read` is one read of at most so many bytes: it takes what has
    arrived, finds the end, or has to wait (`none`);
  * `Source.cut` is what is left when the child is killed: nothing more of its
    own arrives, those that it would have started later never exist, and only
    the others still hold the stream open.

  Times are in milliseconds on one clock.
-/
import Supervisor.Fault
import Supervisor.Text.Utf8

namespace Supervisor

/-- What a read can meet: bytes, or a failure. -/
inductive Payload where
  | data (bs : Bytes)
  | failure (f : Fault)
  deriving DecidableEq

/-- A payload with the time from which on it can be read. -/
structure Arrival where
  time : Nat
  payload : Payload
  /-- when the child started the one who wrote it, or an ancestor of that one;
      `none` if it is the child itself -/
  since : Option Nat := none
  deriving DecidableEq

/-- One whom the child has started, and who holds a stream open. -/
structure Holder where
  /-- when the child started it, or an ancestor of it -/
  since : Nat
  /-- until when it holds the stream; `none` is for ever -/
  release : Option Nat
  deriving DecidableEq

/-- A stream over time. -/
structure Source where
  arrivals : List Arrival
  /-- until when the child holds it open; `none` is for ever -/
  ownHold : Option Nat := some 0
  /-- who else does -/
  holders : List Holder := []
  deriving DecidableEq

namespace Source

/-- The later of two times, of which one may be never. -/
def later : Option Nat → Option Nat → Option Nat
  | some a, some b => some (max a b)
  | _, _ => none

/-- The time from which on the end can be read, behind all that arrives. -/
def ending (s : Source) : Option Nat :=
  s.holders.foldl (fun t h => later t h.release) s.ownHold

/-- Whether a read would not have to wait. -/
def isReady (s : Source) (now : Nat) : Bool :=
  match s.arrivals with
  | a :: _ => a.time ≤ now
  | [] => s.ending.any (· ≤ now)

/-- One read of at most `size` bytes.  What does not fit is left for the next
    one, and a read of no bytes is the end. -/
def read (s : Source) (now size : Nat) : Option (Payload × Source) :=
  if s.isReady now then
    match s.arrivals with
    | [] => some (.data [], s)
    | a :: rest =>
      match a.payload with
      | .failure f => some (.failure f, { s with arrivals := rest })
      | .data bs =>
        let left := bs.drop size
        if left = [] then some (.data bs, { s with arrivals := rest })
        else some (.data (bs.take size),
          { s with arrivals := { a with payload := .data left } :: rest })
  else none

/-- The time at which a read that waits now would go on. -/
def nextTime (s : Source) : Option Nat :=
  match s.arrivals with
  | a :: _ => some a.time
  | [] => s.ending

/-- What is left when the child is killed. -/
def cut (s : Source) (now : Nat) : Source where
  arrivals := s.arrivals.filter fun a =>
    match a.since with
    | none => a.time < now
    | some t => t ≤ now
  ownHold := some (min now (s.ownHold.getD now))
  holders := s.holders.filter (·.since ≤ now)

/-- How many reads of at most `size` bytes it takes at most to reach the end. -/
def readCount (s : Source) (size : Nat) : Nat :=
  s.arrivals.foldl (fun n a =>
    n + 1 + match a.payload with
      | .data bs => bs.length / max size 1
      | .failure _ => 0) 1

end Source

end Supervisor
