/-
  Signals of a host.

  * `Signal.number?` reads a signal by its name or its number, and `Signal.name`
    is its name;
  * `Signal.effect` is what a signal does to a process that does not handle
    it, and `Signal.description` what is said of one that it has ended.
-/
import Supervisor.Host.Digit

namespace Supervisor.Host.Signal

/-- The numbers of the signals that have a name of their own. -/
def numbers : List (String × Nat) :=
  [("HUP", 1), ("INT", 2), ("QUIT", 3), ("ILL", 4), ("TRAP", 5), ("ABRT", 6), ("BUS", 7),
    ("FPE", 8), ("KILL", 9), ("USR1", 10), ("SEGV", 11), ("USR2", 12), ("PIPE", 13), ("ALRM", 14),
    ("TERM", 15), ("CHLD", 17), ("CONT", 18), ("STOP", 19), ("TSTP", 20), ("TTIN", 21), ("TTOU", 22),
    ("URG", 23), ("XCPU", 24), ("XFSZ", 25), ("VTALRM", 26), ("PROF", 27), ("WINCH", 28), ("IO", 29),
    ("PWR", 30), ("SYS", 31)]

/-- Other names that some programs know. -/
def otherNumbers : List (String × Nat) := [("IOT", 6), ("STKFLT", 16), ("CLD", 17), ("POLL", 29)]

/-- The highest number of a signal. -/
def highest : Nat := 64

/-- The first of the signals that are counted, not named. -/
def firstCounted : Nat := 34

/-- How many of them are counted from the first one. -/
def countedUp : Nat := 15

/-- The name of a signal; some have none but their number. -/
def name (n : Nat) : String :=
  match numbers.find? (·.2 = n) with
  | some (s, _) => s
  | none =>
    if n = 0 then "EXIT"
    else if n < firstCounted || highest < n then toString n
    else if n = firstCounted then "RTMIN"
    else if n ≤ firstCounted + countedUp then "RTMIN+" ++ toString (n - firstCounted)
    else if n = highest then "RTMAX"
    else "RTMAX-" ++ toString (highest - n)

/-- A text in capital letters. -/
def capital (s : String) : String := String.ofList (s.toList.map Char.toUpper)

/-- The signal that a text names to a shell, from a least number on. -/
def number? (least : Nat) (text : String) : Option Nat :=
  match decimal? text.toList with
  | some n => if n ≤ highest then some n else none
  | none => (List.range (highest + 1)).find? fun n => least ≤ n && name n = capital text

/-- The signal that a text names to a program. -/
def ofText? (text : String) : Option Nat :=
  match decimal? text.toList with
  | some n => if n ≤ highest then some n else none
  | none =>
    let cs := (capital text).toList
    let cs := if "SIG".toList.isPrefixOf cs then cs.drop 3 else cs
    let short := String.ofList cs
    (otherNumbers.lookup short).or
      ((List.range (highest + 1)).find? fun n => name n = short && (decimal? cs).isNone)

/-- What a signal does by default. -/
inductive Effect where
  | ends
  | ignored
  /-- the process stands still -/
  | stops
  deriving DecidableEq

/-- The default effect of a signal. -/
def effect (n : Nat) : Effect :=
  if n = 0 ∨ n = 17 ∨ n = 18 ∨ n = 23 ∨ n = 28 then .ignored
  else if 19 ≤ n ∧ n ≤ 22 then .stops
  else .ends

/-- What is said of a process that a signal has ended, from signal 1 on. -/
def descriptions : List String :=
  ["Hangup", "Interrupt", "Quit", "Illegal instruction", "Trace/breakpoint trap", "Aborted",
    "Bus error", "Floating point exception", "Killed", "User defined signal 1",
    "Segmentation fault", "User defined signal 2", "Broken pipe", "Alarm clock", "Terminated",
    "Stack fault", "Child exited", "Continued", "Stopped (signal)", "Stopped",
    "Stopped (tty input)", "Stopped (tty output)", "Urgent I/O condition",
    "CPU time limit exceeded", "File size limit exceeded", "Virtual timer expired",
    "Profiling timer expired", "Window changed", "I/O possible", "Power failure",
    "Bad system call"]

/-- What is said of a process that a signal has ended. -/
def description (n : Nat) : String :=
  match descriptions[n - 1]? with
  | some s => s
  | none =>
    if n < firstCounted then "Unknown signal " ++ toString n
    else "Real-time signal " ++ toString (n - firstCounted)

/-- Whether a process can handle a signal. -/
def isHandled (n : Nat) : Bool := n ≠ 9 ∧ n ≠ 19

end Supervisor.Host.Signal
