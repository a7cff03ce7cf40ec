/-
  What the supervisor tells its log.

  * `Event` lists the events, with what they carry;
  * `Event.level`, `Event.origin`, `Event.message` and `Event.fields` are how
    an event is written: its level, the part of the program it comes from, a
    fixed text, and named values in order;
  * `Event.shown` is an event as it is written to the log.
-/
import Supervisor.Outcome
import Supervisor.Settings
import Supervisor.Stream
import Supervisor.Text.Control
import Supervisor.Text.Duration
import Supervisor.Text.Line
import Supervisor.Text.Quoted

namespace Supervisor

/-- An event. -/
inductive Event where
  /-- a notice that the sink refused -/
  | noticeUnwritten (error notice : String)
  /-- a stream that could not be read any further -/
  | readFailed (s : Stream) (error : String)
  /-- output that the sink refused -/
  | writeFailed (s : Stream) (error : String)
  /-- a drain that ended at its deadline, with the streams still open -/
  | graceElapsed (isOpen : PerStream Bool)
  /-- the task that forwards output came down -/
  | pumpFailed
  /-- a runner that registered after a sweep had begun -/
  | registrationRefused (id : Nat) (label : String)
  /-- a runner that a sweep gave up on -/
  | joinTimedOut (id : Nat) (label : String)
  /-- a stop that gave up waiting -/
  | stopTimedOut (command : List String) (bound : Nat)
  | launchFailed (program error : String)
  | runnerSpawned (command : List String)
  | stopping (command : List String) (bound : Nat)
  | started (program : String) (pid : Nat) (survivor : Bool)
  | exited (program : String) (outcome : Outcome)
  | killing (program : String)
  | sweepBegun (count : Nat) (bound : Nat)
  | sweepEnded (stopped timedOut : Nat)
  | interrupted
  | survivorLeft (pid : Option Nat)
  | finished (outcome : Option Outcome)
  | line (process : String) (s : Stream) (text : String)
  /-- a runner that enters a phase -/
  | phase (program source target : String)
  | settingsLoaded (settings : Settings)
  deriving DecidableEq

/-- A value of a field: text is quoted in a log line, other values are not. -/
inductive FieldValue where
  | plain (text : String)
  | text (text : String)
  deriving DecidableEq

/-- The value as text. -/
def FieldValue.raw : FieldValue → String
  | plain t => t
  | text t => t

/-- The value in a log line. -/
def FieldValue.shown : FieldValue → String
  | plain t => t
  | text t => Text.quote t

namespace Event

/-- The level of an event. -/
def level : Event → Level
  | pumpFailed | launchFailed .. => .error
  | noticeUnwritten .. | readFailed .. | writeFailed .. | graceElapsed .. | registrationRefused ..
  | joinTimedOut .. | stopTimedOut .. => .warn
  | line _ s _ => s.level
  | phase .. | settingsLoaded _ => .debug
  | _ => .info

/-- The part of the program that an event comes from. -/
def origin : Event → String
  | noticeUnwritten .. | line .. => "procwatch::sink"
  | readFailed .. | writeFailed .. | graceElapsed .. => "procwatch::exec::pump"
  | pumpFailed | launchFailed .. | started .. | exited .. | killing .. | phase .. =>
    "procwatch::exec::runner"
  | registrationRefused .. | joinTimedOut .. | sweepBegun .. | sweepEnded .. | interrupted =>
    "procwatch::shutdown"
  | stopTimedOut .. | runnerSpawned .. | stopping .. => "procwatch::handle"
  | survivorLeft .. | finished .. | settingsLoaded _ => "procwatch"

/-- The text of an event. -/
def message : Event → String
  | noticeUnwritten .. => "failed to write notice to sink"
  | readFailed .. => "error reading child output"
  | writeFailed s _ => "failed to forward " ++ s.name ++ " to sink"
  | graceElapsed .. => "grace period elapsed; closing output streams"
  | pumpFailed => "output pump task failed"
  | registrationRefused .. => "registration during shutdown; cancelling runner"
  | joinTimedOut .. => "runner did not stop within join bound"
  | stopTimedOut .. => "subprocess runner did not finish within stop timeout"
  | launchFailed .. => "failed to launch subprocess"
  | runnerSpawned .. => "starting subprocess runner"
  | stopping .. => "stopping subprocess"
  | started .. => "subprocess started"
  | exited .. => "subprocess exited"
  | killing .. => "stop requested; killing subprocess"
  | sweepBegun .. => "shutdown sweep: stopping subprocesses"
  | sweepEnded .. => "shutdown sweep finished"
  | interrupted => "Ctrl+C received; running exit hook"
  | survivorLeft .. => "interrupted; leaving survivor subprocess running"
  | finished .. => "subprocess finished"
  | line _ _ text => text
  | phase .. => "runner phase"
  | settingsLoaded _ => "loaded settings"

/-- A truth value in a log line. -/
def boolText (b : Bool) : String := if b then "true" else "false"

/-- A pid in a log line. -/
def pidText : Option Nat → String
  | none => "None"
  | some p => "Some(" ++ toString p ++ ")"

/-- The named values of an event, in order. -/
def fields : Event → List (String × FieldValue)
  | noticeUnwritten error notice => [("error", .plain error), ("notice", .plain notice)]
  | readFailed s error => [("stream", .text s.name), ("error", .plain error)]
  | writeFailed _ error => [("error", .plain error)]
  | graceElapsed o =>
    [("stdout_open", .plain (boolText o.out)), ("stderr_open", .plain (boolText o.err))]
  | pumpFailed | interrupted => []
  | registrationRefused id label | joinTimedOut id label =>
    [("runner", .plain (toString id)), ("label", .plain label)]
  | stopTimedOut command bound | stopping command bound =>
    [("command", .plain (Text.quoteList command)), ("bound", .plain (Text.durationText bound))]
  | launchFailed program error => [("program", .plain program), ("error", .plain error)]
  | runnerSpawned command => [("command", .plain (Text.quoteList command))]
  | started program pid survivor =>
    [("program", .plain program), ("pid", .plain (pidText (some pid))),
      ("survivor", .plain (boolText survivor))]
  | exited program outcome =>
    [("program", .plain program), ("exit_code", .plain (toString outcome.exitCode)),
      ("outcome", .plain outcome.text)]
  | killing program => [("program", .plain program)]
  | sweepBegun count bound =>
    [("count", .plain (toString count)), ("join_timeout", .plain (Text.durationText bound))]
  | sweepEnded stopped timedOut =>
    [("stopped", .plain (toString stopped)), ("timed_out", .plain (toString timedOut))]
  | survivorLeft pid => [("pid", .plain (pidText pid))]
  | finished outcome => [("outcome", .plain (Outcome.shownOption outcome))]
  | line process s _ => [("process", .plain process), ("stream", .text s.name)]
  | phase program source target =>
    [("program", .plain program), ("from", .plain source), ("to", .plain target)]
  | settingsLoaded settings => [("settings", .plain settings.shown)]

/-- Whether an event reports something that went wrong. -/
def isWarning (e : Event) : Bool :=
  match e with
  | line .. => false
  | e => e.level = .warn ∨ e.level = .error

/-- An event as it is written to the log, without its time.  Its text, which
    may be what a child wrote, is disarmed. -/
def shown (e : Event) : String :=
  e.level.shown ++ " " ++ e.origin ++ ": " ++ Text.disarm e.message ++
    "".intercalate (e.fields.map fun (k, v) => " " ++ k ++ "=" ++ v.shown)

/-- The lines that an event takes in the log: more than one if a name in it
    holds a line feed. -/
def shownLines (e : Event) : List String := (Text.lines e.shown.toList).map String.ofList

end Event

end Supervisor
