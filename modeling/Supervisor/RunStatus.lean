/-
  The shared status of one run.

  * `RunState` is the life of a run, in order: not started, running, finished;
  * `RunStatus` holds the state with a version, the outcome and the pid;
  * `RunStatus.advance` moves the state forward only, and bumps the version
    exactly when it moves;
  * a `Receiver` remembers the version it saw last, so an unseen change is a
    version that differs;
  * the outcome is stored before the state is published as finished
    (`storeOutcome`, `clearPid`, `publish`, in that order).
-/
import Supervisor.Outcome

namespace Supervisor

/-! ## Run state -/

/-- The life of a run. -/
inductive RunState where
  | notStarted
  | running
  | finished
  deriving DecidableEq

namespace RunState

/-- The place of a state in the order. -/
def rank : RunState → Nat
  | notStarted => 0
  | running => 1
  | finished => 2

instance : LE RunState := ⟨fun a b => a.rank ≤ b.rank⟩
instance : LT RunState := ⟨fun a b => a.rank < b.rank⟩
instance (a b : RunState) : Decidable (a ≤ b) := inferInstanceAs (Decidable (a.rank ≤ b.rank))
instance (a b : RunState) : Decidable (a < b) := inferInstanceAs (Decidable (a.rank < b.rank))

/-- Whether a run has begun. -/
def isStarted (s : RunState) : Bool := s ≠ notStarted

/-- The name of a state. -/
def name : RunState → String
  | notStarted => "NotStarted"
  | running => "Running"
  | finished => "Finished"

end RunState

/-! ## Run status -/

/-- The status that a handle and its runner share. -/
structure RunStatus where
  state : RunState := .notStarted
  /-- how often the state has moved -/
  version : Nat := 0
  outcome : Option Outcome := none
  pid : Option Nat := none
  deriving DecidableEq

namespace RunStatus

/-- Whether a state lies ahead. -/
def canAdvance (s : RunStatus) (next : RunState) : Bool := s.state < next

/-- Move forward; a state that does not lie ahead changes nothing. -/
def advance (s : RunStatus) (next : RunState) : RunStatus :=
  if s.canAdvance next then { s with state := next, version := s.version + 1 } else s

/-- Record the outcome; the first one stays. -/
def storeOutcome (s : RunStatus) (o : Outcome) : RunStatus :=
  { s with outcome := s.outcome <|> some o }

/-- Forget the pid. -/
def clearPid (s : RunStatus) : RunStatus := { s with pid := none }

/-- Publish the end of the run. -/
def publish (s : RunStatus) : RunStatus := s.advance .finished

/-- The exit code, as long as the run is not finished that of an unfinished one. -/
def exitCode (s : RunStatus) : Int :=
  if s.state = .finished then (s.outcome.map Outcome.exitCode).getD unfinishedCode
  else unfinishedCode

end RunStatus

/-! ## Receivers -/

/-- An observer of the state. -/
structure Receiver where
  /-- the version it saw last -/
  seen : Nat
  deriving DecidableEq

namespace RunStatus

/-- A new receiver has seen the current state. -/
def subscribe (s : RunStatus) : Receiver := ⟨s.version⟩

/-- Whether a receiver has a change to see. -/
def hasChanged (s : RunStatus) (r : Receiver) : Bool := r.seen ≠ s.version

end RunStatus

end Supervisor
