/-
  Errors that a caller is told.

  * `Error` lists their causes, `Error.kind` sorts them and `Error.message` is
    their text;
  * only configuration mistakes are told this way: a launch that fails, a
    stream that cannot be read and a forced end are recorded in the outcome and
    the log instead.
-/
import Supervisor.Fault
import Supervisor.RunStatus
import Supervisor.Settings
import Supervisor.Toml.Fault

namespace Supervisor

/-- What may be asked of a handle only before its start. -/
inductive Operation where
  | setSurvivor | setExitCodeShown | setWorkingDir | setEnv | createStopControl | start
  deriving DecidableEq

/-- The name of an operation. -/
def Operation.name : Operation → String
  | setSurvivor => "set_survivor"
  | setExitCodeShown => "set_exit_code_shown"
  | setWorkingDir => "set_working_dir"
  | setEnv => "set_env"
  | createStopControl => "create_stop_control"
  | start => "start"

/-- The kinds of error. -/
inductive ErrorKind where
  | invalidArgument | illegalState | config | io | toml | other
  deriving DecidableEq

/-- How the text of an error of a kind begins. -/
def ErrorKind.heading : ErrorKind → String
  | invalidArgument => "Invalid argument: "
  | illegalState => "Illegal state: "
  | config => "Configuration error: "
  | io => "IO error: "
  | toml => "TOML parsing error: "
  | other => ""

/-- An error. -/
inductive Error where
  /-- a command without a program -/
  | emptyCommand
  /-- an operation that came after the start -/
  | alreadyStarted (op : Operation) (state : RunState)
  /-- a start where no task can be spawned -/
  | noRuntime
  /-- a limit that is zero -/
  | zeroLimit (l : Limit)
  /-- a file that cannot be read -/
  | io (f : Fault)
  /-- a settings file that is wrong -/
  | toml (f : Toml.Fault)
  /-- an error that is stated in words -/
  | stated (kind : ErrorKind) (text : String)
  deriving DecidableEq

namespace Error

/-- The kind of an error. -/
def kind : Error → ErrorKind
  | emptyCommand => .invalidArgument
  | alreadyStarted _ _ | noRuntime => .illegalState
  | zeroLimit _ => .config
  | io _ => .io
  | toml _ => .toml
  | stated k _ => k

/-- The text of an error without its heading, where it is promised. -/
def detail? : Error → Option String
  | emptyCommand => some "command must contain at least the executable"
  | alreadyStarted op state =>
    some (op.name ++ " called on a subprocess that is " ++ state.name)
  | noRuntime => some "start requires a Tokio runtime"
  | zeroLimit l => some ("runner." ++ l.key ++ " must be greater than zero")
  | io f => some f.message
  | toml f => f.message?
  | stated _ text => some text

/-- The text of an error. -/
def message (e : Error) : String := e.kind.heading ++ e.detail?.getD ""

/-- The text of an error with the cause below it, where it has one. -/
def report (e : Error) : String :=
  match e with
  | io f => e.message ++ "\n\nCaused by:\n    " ++ f.message
  | toml f => e.message ++ "\n\nCaused by:\n    " ++ f.message?.getD ""
  | e => e.message

end Error

end Supervisor
