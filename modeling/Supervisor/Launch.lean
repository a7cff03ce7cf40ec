/-
  What it takes to launch a child, and what a launched child does.

  * `Options` may be changed until the start (`Options.apply`), a `LaunchSpec`
    is the command with the options as they stood then;
  * a `Process` is how a launched child behaves over time: what it writes, and
    when and how it ends by itself;
  * an `Environment` is what the host provides: settings, whether it has exit
    hooks, the launching of processes, and how a process ends whose output
    nobody reads.
-/
import Supervisor.Error
import Supervisor.Source
import Supervisor.Stream

namespace Supervisor

/-- What can be chosen before the start. -/
structure Options where
  /-- exempt from sweeps -/
  survivor : Bool := false
  /-- tell the outcome of a run that ends by itself -/
  showExitCode : Bool := false
  workingDir : Option String := none
  /-- variables of the child, a later one of the same name wins -/
  env : List (String × String) := []
  deriving DecidableEq

/-- A change of an option. -/
inductive Change where
  | survivor (b : Bool)
  | showExitCode (b : Bool)
  | workingDir (dir : String)
  | env (key value : String)
  deriving DecidableEq

/-- The operation that makes a change. -/
def Change.operation : Change → Operation
  | survivor _ => .setSurvivor
  | showExitCode _ => .setExitCodeShown
  | workingDir _ => .setWorkingDir
  | env _ _ => .setEnv

/-- Make a change. -/
def Options.apply (o : Options) : Change → Options
  | .survivor b => { o with survivor := b }
  | .showExitCode b => { o with showExitCode := b }
  | .workingDir dir => { o with workingDir := some dir }
  | .env key value => { o with env := o.env ++ [(key, value)] }

/-- What is launched. -/
structure LaunchSpec where
  command : List String
  options : Options := {}
  deriving DecidableEq

/-- The program of a command. -/
def programOf (command : List String) : String := command.head?.getD ""

/-- The program of a launch. -/
def LaunchSpec.program (s : LaunchSpec) : String := programOf s.command

/-- The behaviour of a launched child, on the clock of its launch. -/
structure Process where
  output : PerStream Source
  /-- when and how it ends by itself; `none` is never -/
  exit : Option (Nat × WaitStatus)
  deriving DecidableEq

/-- What the host provides. -/
structure Environment where
  settings : Settings := {}
  hasHooks : Bool := false
  /-- launch at a time -/
  launch : LaunchSpec → Nat → Except Fault Process
  /-- when and how a child launched at a time ends by itself if nobody reads
      what it writes after another time -/
  exitUnread : LaunchSpec → Nat → Nat → Option (Nat × WaitStatus)

/-- A host without any program. -/
def Environment.withoutPrograms (settings : Settings) (hasHooks : Bool) : Environment where
  settings
  hasHooks
  launch := fun _ _ => .error .noSuchFile
  exitUnread := fun _ _ _ => none

end Supervisor
