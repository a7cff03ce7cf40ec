/-
  A handle: what a caller holds of one child.

  * before the start a handle can be configured (`Handle.configure`,
    `Handle.createControl`) and started (`Handle.start`); each of these fails,
    and changes nothing, once the run has begun;
  * a `StopControl` is enabled and attached at first; activating it disables
    it, the end of the run disables and detaches it.
-/
import Supervisor.Runner

namespace Supervisor

/-- Something a user can stop a run with. -/
structure StopControl where
  label : String
  enabled : Bool := true
  attached : Bool := true
  deriving DecidableEq

/-- A stop control as the log shows it. -/
def StopControl.shown (c : StopControl) : String :=
  "StopControl \x7b label: " ++ Text.quote c.label ++ ", enabled: " ++ Event.boolText c.enabled ++
    ", attached: " ++ Event.boolText c.attached ++ " \x7d"

/-- A handle with its run. -/
structure Handle where
  command : List String
  sink : Sink
  options : Options := {}
  control : Option StopControl := none
  status : RunStatus := {}
  /-- how many copies of it callers hold -/
  copies : Nat := 1
  runner : Option Runner := none

namespace Handle

/-- A handle for a command. -/
def create (command : List String) (sink : Sink) : Except Error Handle :=
  if command = [] then .error .emptyCommand else .ok { command, sink }

/-- Refuse an operation once the run has begun. -/
def guard (h : Handle) (op : Operation) : Except Error Unit :=
  if h.status.state = .notStarted then .ok () else .error (.alreadyStarted op h.status.state)

/-- Change an option. -/
def configure (h : Handle) (c : Change) : Except Error Handle := do
  h.guard c.operation
  return { h with options := h.options.apply c }

/-- Make the stop control, unless there is one. -/
def createControl (h : Handle) (label : String) : Except Error Handle := do
  h.guard .createStopControl
  return { h with control := h.control <|> some { label } }

/-- What would be launched now. -/
def spec (h : Handle) : LaunchSpec := ⟨h.command, h.options⟩

/-- Begin the run, where tasks can be spawned. -/
def start (h : Handle) (canSpawn : Bool) : Except Error Handle := do
  h.guard .start
  if canSpawn then
    return { h with
      status := h.status.advance .running
      runner := some { spec := h.spec, controlled := h.control.isSome } }
  else .error .noRuntime

/-- Whether the stop control can be activated. -/
def isControlEnabled (h : Handle) : Bool := h.control.any (·.enabled)

/-- Disable the stop control. -/
def disableControl (h : Handle) : Handle :=
  { h with control := h.control.map fun c => { c with enabled := false } }

/-- Detach the stop control. -/
def detachControl (h : Handle) : Handle :=
  { h with control := h.control.map fun c => { c with attached := false } }

/-- A handle as the log shows it. -/
def shown (h : Handle) : String :=
  "SubprocessHandle \x7b command: " ++ Text.quoteList h.command ++ ", state: " ++
    h.status.state.name ++ ", outcome: " ++ Outcome.shownOption h.status.outcome ++ ", .. \x7d"

end Handle

end Supervisor
