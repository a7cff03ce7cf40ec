/-
  The pump: forwards the two streams of a child to a sink.

  * a `DrainOrder` is how the pump is told to finish: only the first order
    sets a deadline, and the one who gives orders may leave;
  * a `Pump` waits for one of a few events at a time (`PumpEvent`): a read on a
    stream that is open, a change of the order, its deadline;
  * `Pump.step` is what one event does, if it can happen now.  Which of several
    possible events happens first is not fixed;
  * after each event the pump ends if both streams are closed, or if its
    deadline has passed (`Pump.settle`).

  A read that fails closes its stream and is told on the error side; a read
  that was merely interrupted forwards nothing and goes on.

  Assumed away are the bounds of a machine: that a buffer cannot be allocated,
  that a deadline is beyond the clock, and that a count leaves 64 bits.
-/
import Supervisor.Sink
import Supervisor.Source

namespace Supervisor

/-! ## Orders -/

/-- The order to finish, as it stands. -/
structure DrainOrder where
  deadline : Option Nat := none
  /-- the pump has not looked at it since it changed -/
  unseen : Bool := false
  /-- nobody can give an order any more -/
  closed : Bool := false
  deriving DecidableEq

namespace DrainOrder

/-- Order to finish within `grace`; only the first order counts, and nobody gives
    one after leaving.  Any `now + grace` is a time: a grace period near the longest there
    is, with which the sum overflows the clock, is assumed away. -/
def give (o : DrainOrder) (now grace : Nat) : DrainOrder :=
  if o.closed || o.deadline.isSome then o
  else { o with deadline := some (now + grace), unseen := true }

/-- Leave. -/
def close (o : DrainOrder) : DrainOrder := { o with closed := true }

end DrainOrder

/-! ## The pump -/

/-- How a pump ended. -/
inductive PumpEnd where
  /-- both streams were closed -/
  | closed
  /-- the deadline passed before -/
  | deadline
  /-- the sink brought it down -/
  | fatal
  deriving DecidableEq

/-- Where a pump is. -/
inductive PumpStage where
  | fresh
  | waiting
  | ended (how : PumpEnd)
  deriving DecidableEq

/-- A pump.  Its two buffers, one for each stream, are taken to be there whatever their
    size: the settings accept sizes above 2^63 - 1 bytes, at which allocating them would
    bring the pump down.  Byte counts are natural numbers and not words of 64 bits, which
    no run of real length overflows. -/
structure Pump where
  bufferSize : Nat
  /-- the streams that are open -/
  sources : PerStream (Option Source)
  order : DrainOrder := {}
  /-- the deadline it obeys -/
  deadline : Option Nat := none
  /-- it still listens to orders -/
  listening : Bool := true
  /-- how many bytes it has taken from each stream -/
  taken : PerStream Nat := .both 0
  stage : PumpStage := .fresh
  deriving DecidableEq

/-- What a pump that ended by itself reports. -/
structure PumpReport where
  taken : PerStream Nat
  deadlineElapsed : Bool
  deriving DecidableEq

/-- What a pump can go on with. -/
inductive PumpEvent where
  /-- it begins, and looks at the order -/
  | start
  | read (s : Stream)
  /-- the order has changed, or nobody can change it -/
  | order
  /-- the deadline has passed -/
  | timer
  deriving DecidableEq

namespace Pump

/-- All events. -/
def events : List PumpEvent := [.start, .read .out, .read .err, .order, .timer]

/-- The streams that are open. -/
def isOpen (p : Pump) : PerStream Bool := p.sources.map Option.isSome

/-- Whether a deadline is obeyed that has passed. -/
def isOverdue (p : Pump) (now : Nat) : Bool := p.deadline.any (· ≤ now)

/-- The bytes that one read takes at most: a buffer has room for one. -/
def readSize (p : Pump) : Nat := max p.bufferSize 1

/-- Look at the order. -/
def look (p : Pump) : Pump :=
  { p with deadline := p.order.deadline, order := { p.order with unseen := false } }

/-- End at the deadline. -/
def expire (p : Pump) : Pump × List Event :=
  ({ p with stage := .ended .deadline }, [.graceElapsed p.isOpen])

/-- Go on waiting, unless there is a reason to end. -/
def settle (p : Pump) (now : Nat) : Pump × List Event :=
  if p.isOpen = .both false then ({ p with stage := .ended .closed }, [])
  else if p.isOverdue now then p.expire
  else ({ p with stage := .waiting }, [])

/-- Brought down by the sink. -/
def fall (p : Pump) : Pump := { p with stage := .ended .fatal }

/-- A pump with its sink and the events it has logged. -/
structure Result where
  pump : Pump
  sink : Sink
  events : List Event := []

/-- Settle after something was logged. -/
def Result.settle (r : Result) (now : Nat) : Result :=
  let (p, more) := r.pump.settle now
  { r with pump := p, events := r.events ++ more }

/-- Forward what was read.  The end of a stream, and a failure, close it. -/
def forward (p : Pump) (k : Sink) (now : Nat) (s : Stream) (rest : Source) : Payload → Result
  | .data [] => Result.settle ⟨{ p with sources := p.sources.set s none }, k, []⟩ now
  | .data bs => offer bs
  | .failure f =>
    if f.kind = .interrupted then offer []
    else
      let line := "error reading " ++ s.name ++ ": " ++ f.message
      let events := .readFailed s f.message :: k.noticeEvents line
      let next : Result := ⟨{ p with sources := p.sources.set s none }, k.notice now line, events⟩
      if k.verdict .err = .fatal then { next with pump := next.pump.fall } else next.settle now
where
  /-- Offer bytes to the sink, and keep the stream. -/
  offer (bs : Bytes) : Result :=
    let p : Pump := { p with
      sources := p.sources.set s (some rest)
      taken := p.taken.set s (p.taken.get s + bs.length) }
    match k.verdict s with
    | .stored => Result.settle ⟨p, k.write now s bs, []⟩ now
    | .refused => Result.settle ⟨p, k.write now s bs, [.writeFailed s refusal]⟩ now
    | .fatal => ⟨p.fall, k.write now s bs, []⟩

/-- What an event does, if it can happen now. -/
def step (p : Pump) (k : Sink) (now : Nat) : PumpEvent → Option Result
  | .start =>
    if p.stage = .fresh then some (Result.settle ⟨p.look, k, []⟩ now) else none
  | .read s =>
    if p.stage = .waiting then do
      let (payload, rest) ← (← p.sources.get s).read now p.readSize
      return p.forward k now s rest payload
    else none
  | .order =>
    if p.stage = .waiting ∧ p.listening then
      if p.order.unseen then some (Result.settle ⟨p.look, k, []⟩ now)
      else if p.order.closed then
        some (Result.settle ⟨{ p with listening := false }, k, []⟩ now)
      else none
    else none
  | .timer =>
    if p.stage = .waiting ∧ p.isOverdue now then
      let (p, events) := p.expire
      some ⟨p, k, events⟩
    else none

/-- Whether it can go on now. -/
def isReady (p : Pump) (k : Sink) (now : Nat) : Bool :=
  events.any fun e => (p.step k now e).isSome

/-- The times at which it could go on. -/
def times (p : Pump) : List Nat :=
  if p.stage = .waiting then
    p.deadline.toList ++ Stream.all.filterMap fun s => (p.sources.get s).bind Source.nextTime
  else []

/-- Whether it has ended. -/
def isEnded (p : Pump) : Bool :=
  match p.stage with
  | .ended _ => true
  | _ => false

/-- The report of a pump that ended by itself. -/
def report? (p : Pump) : Option PumpReport :=
  match p.stage with
  | .ended .closed => some ⟨p.taken, false⟩
  | .ended .deadline => some ⟨p.taken, true⟩
  | _ => none

end Pump

end Supervisor
