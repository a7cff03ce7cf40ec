/-
  The program: run one command under supervision, and exit with its code.

  * `Program.run` loads the settings, starts the command and waits for it,
    while an interrupt may come;
  * `Program.codeOf` is the code for an outcome: that of a command that ended
    by itself, 128 and the signal, and 1 for anything else;
  * `Program.execute` is the whole program, from its arguments to its exit
    code, what it printed and what it logged.
-/
import Supervisor.CommandLine.Usage
import Supervisor.Host.Launch
import Supervisor.LineLog
import Supervisor.Session
import Supervisor.Settings.Load

namespace Supervisor.Program

/-- An interrupt from the keyboard, some time after some output. -/
structure Interrupt where
  output : Bytes
  delay : Nat := 0
  deriving DecidableEq

/-- What came of a run. -/
structure Report where
  result : Except Error Int
  sink : Sink := .storing
  /-- the name under which lines are logged, if output goes through the log -/
  logName : Option String := none
  events : List Event := []

/-- The code for an outcome. -/
def codeOf : Option Outcome → Int
  | some (.exited code) => code
  | some o => if 0 < o.exitCode then o.exitCode else 1
  | none => 1

/-- The code of a program that was interrupted and left a survivor behind. -/
def interruptedCode : Int := 1

/-! ## One command -/

/-- The changes of options that a command line asks for. -/
def changes (c : CommandLine) : List Change :=
  [.survivor c.survivor, .showExitCode c.showExitCode] ++ (c.cwd.map .workingDir).toList

/-- A world in which the command is started and waited for. -/
def started (env : Environment) (c : CommandLine) : World :=
  Session.actAll env ([.create c.command .storing] ++ (changes c).map (.configure 0) ++
    [.start 0 true, .call .wait 0]) {}

/-- Whether the wait for the command is over. -/
def isOver (w : World) : Bool := Session.areReturned 0 w

/-- The pid of the command. -/
def pidOf (w : World) : Option Nat := (w.handle? 0).bind (·.status.pid)

/-- The host runs its hooks, and the wait goes on. -/
def sweep (env : Environment) (w : World) : World :=
  let hooks := List.replicate w.coordinator.hooksPending Action.sweep
  let w := w.note (hooks.map fun _ => .interrupted)
  Session.await env isOver (Session.actAll env (.takeHooks :: hooks) w)

/-- The end of a run: what the handle recorded. -/
def conclude (w : World) : Except Error Int × World :=
  let outcome := (w.handle? 0).bind (·.status.outcome)
  (.ok (codeOf outcome), w.note [.finished outcome])

/-- Wait for the command, with an interrupt that may come.  An interrupted
    survivor is left behind. -/
def supervise (env : Environment) (c : CommandLine) (interrupt : Option Interrupt) (w : World) :
    Except Error Int × World :=
  match interrupt with
  | none => conclude (Session.await env isOver w)
  | some i =>
    let heard (w : World) : Bool := Session.hasOutput 0 .out i.output w
    let w := Session.await env (fun w => isOver w || heard w) w
    if isOver w then conclude w
    else
      let w := w.awaitUntil env (w.now + i.delay) isOver
      if isOver w then conclude w
      else if c.survivor then (.ok interruptedCode, w.note [.survivorLeft (pidOf w)])
      else conclude (sweep env w)

/-- Run the command of a command line, in a working directory of a host. -/
def run (here : Host.Trail) (c : CommandLine) (interrupt : Option Interrupt) : Report :=
  let logName := match c.sink with
    | .console => none
    | .log => some (programOf c.command)
  match Settings.loadOrDefault (here.contentAt (Host.Octets.ofString c.config)) with
  | .error e => { result := .error e }
  | .ok settings =>
    match Handle.create c.command .storing with
    | .error e => { result := .error e, events := [.settingsLoaded settings] }
    | .ok _ =>
      let env := Host.environmentOf here settings true
      let (result, w) := supervise env c interrupt (started env c)
      { result
        sink := ((w.handle? 0).map (·.sink)).getD .storing
        logName
        events := .settingsLoaded settings :: w.log }

namespace Report

/-- The lines of output that went through the log. -/
def lines (r : Report) : List Line :=
  if r.logName.isSome then
    let log : LineLog := {}
    log.linesOf (r.sink.writes.map fun w => (w.stream, w.data))
  else []

/-- The bytes of output that went to the console. -/
def console (r : Report) (s : Stream) : Bytes :=
  if r.logName.isSome then [] else r.sink.stored s

/-- All that was logged, the lines of output last. -/
def log (r : Report) : List Event :=
  r.events ++ r.lines.map fun l => .line (r.logName.getD "") l.stream l.text

end Report

/-! ## The whole program -/

/-- What the program leaves. -/
structure Execution where
  exitCode : Int
  stdout : Bytes := []
  /-- what it wrote there beside the lines of its log -/
  stderr : Bytes := []
  /-- what its log shows -/
  log : List Event := []

/-- The text of an error that ends the program. -/
def errorText (e : Error) : String := programName ++ " error: " ++ e.report ++ "\n"

/-- The lines of a log that do not begin an event. -/
def continuations (log : List Event) : Bytes :=
  Utf8.ofString ("".intercalate (log.flatMap fun e => e.shownLines.tail.map (· ++ "\n")))

/-- The whole program, with the setting of the log in its environment. -/
def execute (here : Host.Trail) (args : List String) (logSetting : Option Bytes)
    (interrupt : Option Interrupt) : Execution :=
  match CommandLine.parse args with
  | .error e =>
    let text := Utf8.ofString e.text
    if e.cause.isRequest then { exitCode := e.cause.exitCode, stdout := text }
    else { exitCode := e.cause.exitCode, stderr := text }
  | .ok c =>
    let logger : Logger := ⟨some (Level.choose c.logLevel logSetting)⟩
    let r := run here c interrupt
    let log := r.log.filter fun e => logger.shows e.level
    match r.result with
    | .ok code =>
      { exitCode := code
        stdout := r.console .out
        stderr := continuations log ++ r.console .err
        log }
    | .error e =>
      { exitCode := 1
        stdout := r.console .out
        stderr := continuations log ++ r.console .err ++ Utf8.ofString (errorText e)
        log }

end Supervisor.Program
