/-
  A run status with those that watch it.

  * a `Watch` is a status and the receivers that were made of it, in order;
  * a `Use` moves the status on, makes a receiver or reads one; `Watch.step` is what it does,
    and `Watch.reply?` what it returns;
  * `Watch.run` and `Watch.replies` are those of uses one after the other.
-/
import Supervisor.RunStatus

namespace Supervisor

/-- What is done with a status that is watched. -/
inductive Use where
  /-- move it on -/
  | advance (next : RunState)
  /-- make a receiver, which gets the next number -/
  | subscribe
  /-- read a receiver -/
  | read (i : Nat)
  deriving DecidableEq

/-- What a use returns. -/
inductive Reply where
  /-- whether the state has moved -/
  | moved (b : Bool)
  /-- the number of a new receiver -/
  | receiver (i : Nat)
  /-- whether a receiver had a change to see, and the state -/
  | seen (changed : Bool) (state : RunState)
  deriving DecidableEq

/-- A status that is watched. -/
structure Watch where
  status : RunStatus := {}
  receivers : List Receiver := []
  deriving DecidableEq

namespace Watch

/-- What a use does.  A receiver that was read has seen the current state. -/
def step (w : Watch) : Use → Watch
  | .advance next => { w with status := w.status.advance next }
  | .subscribe => { w with receivers := w.receivers ++ [w.status.subscribe] }
  | .read i => { w with receivers := w.receivers.set i w.status.subscribe }

/-- What a use returns, unless it names a receiver that there is not. -/
def reply? (w : Watch) : Use → Option Reply
  | .advance next => some (.moved (w.status.canAdvance next))
  | .subscribe => some (.receiver w.receivers.length)
  | .read i => w.receivers[i]?.map fun r => .seen (w.status.hasChanged r) w.status.state

/-- Uses one after the other. -/
def run (w : Watch) (uses : List Use) : Watch := uses.foldl step w

/-- What they return. -/
def replies (w : Watch) : List Use → List (Option Reply)
  | [] => []
  | u :: uses => w.reply? u :: (w.step u).replies uses

end Watch

end Supervisor
