/-
  How a run of a child ends.

  * `WaitStatus` is the word that waiting for a child yields, `WaitStatus.ofWord`
    its three cases: an exit with a code, a death by a signal, or neither;
  * `Outcome` is how the run is recorded, `Outcome.ofStatus` from a status the
    child reported on its own;
  * `Outcome.exitCode` is the one number for it: the code, 128 and the signal,
    or a negative number that no child can report.
-/

namespace Supervisor

/-! ## Wait status -/

/-- What waiting for a child reports. -/
inductive WaitStatus where
  | exited (code : Nat)
  | signaled (signal : Nat)
  /-- stopped or continued -/
  | neither
  deriving DecidableEq

/-- The case of a status word: the low seven bits are 0 for an exit, whose code
    is the next byte, a signal number up to 126, or 127 for neither. -/
def WaitStatus.ofWord (word : Int) : WaitStatus :=
  let w := (word % 65536).toNat
  if w % 128 = 0 then .exited (w / 256)
  else if w % 128 = 127 then .neither
  else .signaled (w % 128)

/-! ## Outcome -/

/-- How a run ended. -/
inductive Outcome where
  /-- on its own, with a code -/
  | exited (code : Int)
  /-- by a signal that the supervisor did not send -/
  | signaled (signal : Int)
  /-- by the supervisor -/
  | killed
  /-- it never began -/
  | launchFailed
  deriving DecidableEq

/-- The code of a run that has not ended. -/
def unfinishedCode : Int := -1

/-- The code of a run that the supervisor ended. -/
def killedCode : Int := -2

/-- The code of a run that never began. -/
def launchFailedCode : Int := -3

namespace Outcome

/-- The outcome for a status that the child reported on its own. -/
def ofStatus : WaitStatus → Outcome
  | .exited code => exited code
  | .signaled signal => signaled signal
  | .neither => killed

/-- The code of an outcome, a number of 32 bits. -/
def exitCode : Outcome → Int
  | exited code => code
  | signaled signal => (128 + signal).bmod 4294967296
  | killed => killedCode
  | launchFailed => launchFailedCode

/-- Whether the supervisor ended the run. -/
def isForced : Outcome → Bool
  | killed => true
  | _ => false

/-- The outcome in words. -/
def text : Outcome → String
  | exited code => "exited with code " ++ toString code
  | signaled signal => "terminated by signal " ++ toString signal
  | killed => "killed"
  | launchFailed => "failed to launch"

/-- The outcome as the log shows it. -/
def shown : Outcome → String
  | exited code => "Exited(" ++ toString code ++ ")"
  | signaled signal => "Signaled(" ++ toString signal ++ ")"
  | killed => "Killed"
  | launchFailed => "LaunchFailed"

/-- An outcome that may be missing, as the log shows it. -/
def shownOption : Option Outcome → String
  | none => "None"
  | some o => "Some(" ++ o.shown ++ ")"

end Outcome

end Supervisor
