/-
  The limits that a supervisor works with.

  * `Limit` names the four of them, in the order of their declaration;
  * `Settings` gives each a value, times in milliseconds;
  * `Settings.firstZero` is the first limit that is zero, which no settings in
    use may have;
  * `Settings.shown` is the text of settings in the log.
-/
import Supervisor.Text.Duration

namespace Supervisor

/-- The four limits. -/
inductive Limit where
  /-- how long output is still forwarded once a drain has begun -/
  | gracePeriod
  /-- how long a stop waits for its run -/
  | stopTimeout
  /-- how long a sweep waits for each run -/
  | joinTimeout
  /-- how many bytes one read takes at most -/
  | bufferSize
  deriving DecidableEq

namespace Limit

/-- All limits, in order. -/
def all : List Limit := [gracePeriod, stopTimeout, joinTimeout, bufferSize]

/-- The key of a limit in a settings file. -/
def key : Limit → String
  | gracePeriod => "grace_period_ms"
  | stopTimeout => "stop_timeout_ms"
  | joinTimeout => "shutdown_join_timeout_ms"
  | bufferSize => "read_buffer_size"

/-- The value of a limit that no file sets. -/
def default : Limit → Nat
  | bufferSize => 8192
  | _ => 10000

end Limit

/-- A value for each limit. -/
structure Settings where
  gracePeriod : Nat := Limit.default .gracePeriod
  stopTimeout : Nat := Limit.default .stopTimeout
  joinTimeout : Nat := Limit.default .joinTimeout
  bufferSize : Nat := Limit.default .bufferSize
  deriving DecidableEq

namespace Settings

/-- The value of a limit. -/
def get (s : Settings) : Limit → Nat
  | .gracePeriod => s.gracePeriod
  | .stopTimeout => s.stopTimeout
  | .joinTimeout => s.joinTimeout
  | .bufferSize => s.bufferSize

/-- Settings by limit. -/
def ofValues (value : Limit → Nat) : Settings where
  gracePeriod := value .gracePeriod
  stopTimeout := value .stopTimeout
  joinTimeout := value .joinTimeout
  bufferSize := value .bufferSize

/-- The first limit that is zero. -/
def firstZero (s : Settings) : Option Limit := Limit.all.find? fun l => s.get l = 0

/-- The text of settings in the log. -/
def shown (s : Settings) : String :=
  "Settings \x7b grace_period: " ++ Text.durationText s.gracePeriod ++
    ", stop_timeout: " ++ Text.durationText s.stopTimeout ++
    ", shutdown_join_timeout: " ++ Text.durationText s.joinTimeout ++
    ", read_buffer_size: " ++ toString s.bufferSize ++ " \x7d"

end Settings

end Supervisor
