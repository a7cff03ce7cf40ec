/-
  Log levels and the choice of the level that is installed.

  * `Level` are the five levels, `Level.ofName?` reads a name from the
    environment: blanks around it and its case do not matter, and `warning` is
    another name of `warn`;
  * `Level.choose` takes the level asked for, else the one that the
    environment names, else `info`;
  * a `Logger` is installed once (`Logger.install`).
-/
import Supervisor.Text.Blank
import Supervisor.Text.Utf8

namespace Supervisor

/-- The log levels. -/
inductive Level where
  | error | warn | info | debug | trace
  deriving DecidableEq

namespace Level

/-- The place of a level: a log shows the levels up to its own. -/
def rank : Level → Nat
  | error => 0
  | warn => 1
  | info => 2
  | debug => 3
  | trace => 4

/-- All levels. -/
def all : List Level := [error, warn, info, debug, trace]

/-- The name of a level as it is written by a user. -/
def name : Level → String
  | error => "error"
  | warn => "warn"
  | info => "info"
  | debug => "debug"
  | trace => "trace"

/-- The name of a level as the log shows it. -/
def shown : Level → String
  | error => "ERROR"
  | warn => "WARN"
  | info => "INFO"
  | debug => "DEBUG"
  | trace => "TRACE"

/-- The environment variable that may name a level. -/
def variableName : String := "PROCWATCH_LOG"

/-- The names that the environment may give a level. -/
def names : List (String × Level) :=
  ("warning", warn) :: all.map fun l => (l.name, l)

/-- The level that a text names.  Lower case is that of ASCII: no other
    character has a letter of these names as its lower case. -/
def ofName? (text : List Char) : Option Level :=
  names.lookup (String.ofList ((Text.trim text).map Char.toLower))

/-- The level that the bytes of an environment variable name. -/
def ofVariable? (value : Option Bytes) : Option Level := do
  ofName? (← Utf8.decode? (← value))

/-- The level to install: as asked, else as the environment says, else `info`. -/
def choose (asked : Option Level) (setting : Option Bytes) : Level :=
  (asked <|> ofVariable? setting).getD info

end Level

/-- The log of a program: the highest level it shows, once it is installed. -/
structure Logger where
  level : Option Level := none
  deriving DecidableEq

namespace Logger

/-- Install a level; only the first call succeeds. -/
def install (g : Logger) (level : Level) : Option Logger :=
  if g.level.isSome then none else some ⟨some level⟩

/-- Whether the log shows a level. -/
def shows (g : Logger) (level : Level) : Bool :=
  match g.level with
  | none => false
  | some l => level.rank ≤ l.rank

end Logger

end Supervisor
