/-
  A pump on a clock of its own.

  * a `Pump.Run` is a pump with its sink, the time, and the orders that are
    still to be given, each at its time;
  * `Pump.Run.step` is one move: an event of the pump, the next order, or time
    that passes;
  * a run is prompt if time passes only while nothing can happen, and never
    past the next thing that can (`Pump.Run.mayPass`);
  * `Pump.Run.run` makes prompt moves up to a time limit.
-/
import Supervisor.Pump

namespace Supervisor.Pump

/-- Something the one who gives orders does. -/
inductive Order where
  | drain (grace : Nat)
  | leave
  deriving DecidableEq

/-- Carry out an order. -/
def obey (p : Pump) (now : Nat) : Order → Pump
  | .drain grace => { p with order := p.order.give now grace }
  | .leave => { p with order := p.order.close }

/-- A pump on a clock. -/
structure Run where
  now : Nat := 0
  pump : Pump
  sink : Sink
  /-- the orders to come, in order; one whose time has passed comes at once -/
  orders : List (Nat × Order) := []
  /-- what was logged, latest first -/
  behind : List Event := []

/-- A move of a run. -/
inductive Move where
  | event (e : PumpEvent)
  | order
  | pass (ms : Nat)
  deriving DecidableEq

namespace Run

/-- One move, if it can be made. -/
def step (r : Run) : Move → Option Run
  | .event e => do
    let next ← r.pump.step r.sink r.now e
    return { r with
      pump := next.pump, sink := next.sink, behind := next.events.reverse ++ r.behind }
  | .order =>
    match r.orders with
    | [] => none
    | (time, o) :: rest =>
      if time ≤ r.now then some { r with pump := r.pump.obey r.now o, orders := rest } else none
  | .pass ms => some { r with now := r.now + ms }

/-- The moves that take no time. -/
def instant : List Move := .order :: Pump.events.map .event

/-- Whether something can happen now. -/
def isReady (r : Run) : Bool := instant.any fun m => (r.step m).isSome

/-- The times at which something could happen. -/
def times (r : Run) : List Nat := r.pump.times ++ (r.orders.head?.map (·.1)).toList

/-- The next time at which something could happen. -/
def nextTime (r : Run) : Option Nat := r.times.min?

/-- Whether so much time may pass in a prompt run. -/
def mayPass (r : Run) (ms : Nat) : Bool :=
  !r.isReady && r.nextTime.all (r.now + ms ≤ ·)

/-- The next move of a prompt run, or none if nothing will happen until
    `limit`. -/
def next (r : Run) (limit : Nat) : Option Run :=
  match instant.findSome? r.step with
  | some r => some r
  | none =>
    match r.nextTime with
    | some t => if t ≤ limit then r.step (.pass (t - r.now)) else none
    | none => none

/-- Make prompt moves until the pump has ended or nothing will happen. -/
def runFor (limit : Nat) : Nat → Run → Run
  | 0, r => r
  | fuel + 1, r =>
    if r.pump.isEnded then r
    else match r.next limit with
      | some r => runFor limit fuel r
      | none => r

/-- As many moves as there can be: each read, order and deadline is one, and
    there is at most one wait before each. -/
def moveCount (r : Run) : Nat :=
  let reads := Stream.all.foldl (fun n s =>
    n + ((r.pump.sources.get s).map (·.readCount r.pump.readSize)).getD 0) 0
  2 * (reads + 2 * r.orders.length + 4)

/-- The whole run, up to a time limit. -/
def run (r : Run) (limit : Nat) : Run := runFor limit r.moveCount r

end Run

end Supervisor.Pump
