/-
  Where output goes.

  * a `Sink` takes writes on two streams; what it makes of the n-th call on a
    stream (`Verdict`) is settled when it is made: store it, refuse it with a
    failure, or bring down the task that called;
  * `Sink.write` is one call, `Sink.writes` all calls in order and
    `Sink.stored` the bytes that reached a stream;
  * `Sink.notice` writes a line of the supervisor's own to the error side.
-/
import Supervisor.Event
import Supervisor.Stream
import Supervisor.Text.Utf8

namespace Supervisor

/-- What a sink makes of a call. -/
inductive Verdict where
  | stored
  | refused
  /-- the task that called is brought down -/
  | fatal
  deriving DecidableEq

/-- A call on a sink. -/
structure Write where
  /-- when it was made -/
  time : Nat
  stream : Stream
  data : Bytes
  verdict : Verdict
  deriving DecidableEq

/-- A sink with its history. -/
structure Sink where
  /-- what becomes of the n-th call on a stream, counted from 0 -/
  policy : Stream → Nat → Verdict
  /-- how many calls were made on each stream -/
  calls : PerStream Nat := .both 0
  /-- the calls, latest first -/
  behind : List Write := []

/-- The text of a write that a sink refused. -/
def refusal : String := "sink failed"

namespace Sink

/-- A sink that stores everything. -/
def storing : Sink := { policy := fun _ _ => .stored }

/-- What the next call on a stream would meet. -/
def verdict (k : Sink) (s : Stream) : Verdict := k.policy s (k.calls.get s)

/-- A call. -/
def write (k : Sink) (time : Nat) (s : Stream) (data : Bytes) : Sink :=
  { k with
    calls := k.calls.set s (k.calls.get s + 1)
    behind := ⟨time, s, data, k.verdict s⟩ :: k.behind }

/-- All calls, in order. -/
def writes (k : Sink) : List Write := k.behind.reverse

/-- The bytes that reached a stream. -/
def stored (k : Sink) (s : Stream) : Bytes :=
  (k.writes.filter fun w => w.stream = s ∧ w.verdict = .stored).flatMap (·.data)

/-! ## Notices -/

/-- The bytes of a line: a newline is added unless it ends in one. -/
def lineBytes (line : String) : Bytes :=
  Utf8.ofString (if line.toList.getLast? = some '\n' then line else line ++ "\n")

/-- Write a line to the error side. -/
def notice (k : Sink) (time : Nat) (line : String) : Sink := k.write time .err (lineBytes line)

/-- What the log says of a notice: a refused one is noted there instead. -/
def noticeEvents (k : Sink) (line : String) : List Event :=
  match k.verdict .err with
  | .refused => [.noticeUnwritten refusal line]
  | _ => []

@[simp] theorem writes_write (k : Sink) (t : Nat) (s : Stream) (data : Bytes) :
    (k.write t s data).writes = k.writes ++ [⟨t, s, data, k.verdict s⟩] := by
  simp [write, writes]

end Sink

end Supervisor
