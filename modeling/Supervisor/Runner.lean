/-
  The runner: owns one child for its whole life.

  * `Phase` is how its life is told in the log;
  * `Stage` is where its program stands, one constructor for each point
    between two accesses to shared state;
  * a `Child` is a launched process until it is reaped;
  * from `leaving` on a runner tears down, whatever brought it there: leave
    the registry, disable and detach the stop control, record the outcome,
    forget the pid, and publish the end, in that order.
-/
import Supervisor.Launch
import Supervisor.Pump

namespace Supervisor

/-- The phases of a runner. -/
inductive Phase where
  | created | launching | running | draining | terminated
  deriving DecidableEq

/-- The name of a phase. -/
def Phase.name : Phase → String
  | created => "Created"
  | launching => "Launching"
  | running => "Running"
  | draining => "Draining"
  | terminated => "Terminated"

/-- Where the program of a runner stands. -/
inductive Stage where
  | created
  | registering
  | launching
  /-- the launch failed, which is still to be told -/
  | failing (f : Fault)
  | waiting
  /-- the child is gone, and the pump is still to be told -/
  | ended (o : Outcome)
  | draining (o : Outcome)
  /-- the output is over, and what to tell is still to be decided -/
  | telling (o : Outcome)
  /-- a line is still to be written -/
  | noting (o : Outcome) (line : String)
  /-- the last phase is still to be entered -/
  | closing (o : Outcome)
  /-- still to leave the registry -/
  | leaving (o : Outcome)
  /-- still to disable the stop control -/
  | disabling (o : Outcome)
  /-- still to detach it -/
  | detaching (o : Outcome)
  /-- still to record the outcome -/
  | recording (o : Outcome)
  /-- still to forget the pid -/
  | forgetting (o : Outcome)
  /-- still to publish the end -/
  | publishing (o : Outcome)
  | gone
  deriving DecidableEq

/-- A launched process. -/
structure Child where
  pid : Nat
  /-- when it was launched -/
  launched : Nat
  /-- when and how it ends by itself -/
  exit : Option (Nat × WaitStatus)
  /-- it has ended, and its status was taken -/
  reaped : Bool := false
  deriving DecidableEq

namespace Child

/-- The status of a child that has ended by itself. -/
def status? (c : Child) (now : Nat) : Option WaitStatus :=
  if c.reaped then none
  else match c.exit with
    | some (time, status) => if time ≤ now then some status else none
    | none => none

end Child

/-- A runner. -/
structure Runner where
  spec : LaunchSpec
  /-- it was handed the stop control -/
  controlled : Bool := false
  stage : Stage := .created
  phase : Phase := .created
  child : Option Child := none
  pump : Option Pump := none
  /-- its sink brought it down -/
  fell : Bool := false
  deriving DecidableEq

namespace Runner

/-- The program that it runs. -/
def program (r : Runner) : String := r.spec.program

/-- Enter a phase. -/
def enter (r : Runner) (next : Phase) : Runner := { r with phase := next }

/-- What the log says of a phase that is entered. -/
def phaseEvent (r : Runner) (next : Phase) : Event := .phase r.program r.phase.name next.name

/-- Stand at a stage. -/
def goto (r : Runner) (s : Stage) : Runner := { r with stage := s }

/-- Brought down by the sink: tear down with the outcome that was set. -/
def fall (r : Runner) : Runner := { r with stage := .leaving .killed, fell := true }

/-- The text of a launch that failed. -/
def launchError (r : Runner) (f : Fault) : String :=
  "spawning '" ++ r.program ++ "': " ++ f.message

/-- The line of a launch that failed. -/
def launchNotice (r : Runner) (f : Fault) : String :=
  "failed to launch '" ++ r.program ++ "': " ++ r.launchError f

/-- The line at the end of a run, if any: a forced end is told unless a sweep
    is going on, another end if that was asked for. -/
def lastNotice (r : Runner) (shuttingDown : Bool) (o : Outcome) : Option String :=
  if o.isForced then
    if shuttingDown then none else some "process killed"
  else if r.spec.options.showExitCode then some ("process " ++ o.text)
  else none

/-- The child that was just launched, and a pump for its output. -/
def adopt (r : Runner) (now pid bufferSize : Nat) (p : Process) : Runner :=
  { r with
    child := some { pid, launched := now, exit := p.exit }
    pump := some { bufferSize, sources := p.output.map some } }

/-- The child is gone: it was reaped, and the others still write. -/
def reap (r : Runner) : Runner :=
  { r with child := r.child.map fun c => { c with reaped := true } }

/-- Kill the child and reap it. -/
def kill (r : Runner) (now : Nat) : Runner :=
  { r.reap with
    pump := r.pump.map fun p =>
      { p with sources := p.sources.map fun s => s.map (·.cut now) } }

/-- The times at which it, its child or its pump could go on. -/
def times (r : Runner) : List Nat :=
  (if r.stage = .waiting then
    (r.child.bind fun c => c.exit.map (·.1)).toList else []) ++
  (r.pump.map (·.times)).getD []

end Runner

end Supervisor
