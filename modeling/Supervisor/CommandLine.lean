/-
  The command line: options, then the command of the child.

  * `CommandLine` is what it asks for; a `Choice` is one option with its value,
    and `CommandLine.ofChoices` puts choices together;
  * `CommandLine.parse` reads arguments.  The first argument that is neither an
    option nor the value of one begins the command, which takes all that
    follows as it is; `--` before it is dropped;
  * `Choice.word` spells a choice as one argument;
  * `UsageError` lists what can be wrong, and the requests for help.

  The parser takes one argument at a time.  An option whose value is the next
  argument is `Pending` until the argument after that value is met, and only
  then is its value looked at.
-/
import Supervisor.Level
import Supervisor.Settings.Load

namespace Supervisor

/-! ## Options -/

/-- Where the output of the child goes. -/
inductive SinkChoice where
  | console
  | log
  deriving DecidableEq

/-- The name of a sink. -/
def SinkChoice.name : SinkChoice → String
  | console => "console"
  | log => "log"

/-- The options. -/
inductive OptionName where
  | config | logLevel | survivor | showExitCode | sink | cwd
  deriving DecidableEq

namespace OptionName

/-- All options, in the order of the help. -/
def all : List OptionName := [config, logLevel, survivor, showExitCode, sink, cwd]

/-- The name of an option, without dashes. -/
def name : OptionName → String
  | config => "config"
  | logLevel => "log-level"
  | survivor => "survivor"
  | showExitCode => "show-exit-code"
  | sink => "sink"
  | cwd => "cwd"

/-- The name of the value of an option, if it takes one. -/
def valueName? : OptionName → Option String
  | config => some "PATH"
  | logLevel => some "LEVEL"
  | survivor | showExitCode => none
  | sink => some "SINK"
  | cwd => some "DIR"

/-- Whether an option takes a value. -/
def takesValue (o : OptionName) : Bool := o.valueName?.isSome

/-- The values that an option may have, where they are few. -/
def possibleValues : OptionName → List String
  | logLevel => Level.all.map Level.name
  | sink => [SinkChoice.console.name, SinkChoice.log.name]
  | _ => []

/-- The option with a name. -/
def ofName? (name : String) : Option OptionName := all.find? fun o => o.name = name

end OptionName

/-- An option with its value. -/
inductive Choice where
  | config (path : String)
  | logLevel (l : Level)
  | survivor
  | showExitCode
  | sink (s : SinkChoice)
  | cwd (dir : String)
  deriving DecidableEq

namespace Choice

/-- The option of a choice. -/
def option : Choice → OptionName
  | config _ => .config
  | logLevel _ => .logLevel
  | survivor => .survivor
  | showExitCode => .showExitCode
  | sink _ => .sink
  | cwd _ => .cwd

/-- A choice spelled as one argument. -/
def word : Choice → String
  | config path => "--config=" ++ path
  | logLevel l => "--log-level=" ++ l.name
  | survivor => "--survivor"
  | showExitCode => "--show-exit-code"
  | sink s => "--sink=" ++ s.name
  | cwd dir => "--cwd=" ++ dir

end Choice

/-- What a command line asks for. -/
structure CommandLine where
  config : String := Settings.defaultFile
  logLevel : Option Level := none
  survivor : Bool := false
  showExitCode : Bool := false
  sink : SinkChoice := .console
  cwd : Option String := none
  command : List String
  deriving DecidableEq

namespace CommandLine

/-- A command line with one more choice. -/
def choose (c : CommandLine) : Choice → CommandLine
  | .config path => { c with config := path }
  | .logLevel l => { c with logLevel := some l }
  | .survivor => { c with survivor := true }
  | .showExitCode => { c with showExitCode := true }
  | .sink s => { c with sink := s }
  | .cwd dir => { c with cwd := some dir }

/-- The command line of some choices and a command. -/
def ofChoices (choices : List Choice) (command : List String) : CommandLine :=
  choices.foldl choose { command }

end CommandLine

/-! ## Errors -/

/-- An option that takes no value, or a request. -/
inductive Flag where
  | option (o : OptionName)
  | help
  | version
  deriving DecidableEq

/-- The causes for which no command line is returned. -/
inductive UsageCause where
  /-- help is asked for, in full or in brief -/
  | help (full : Bool)
  | version
  /-- an option without a value -/
  | missingValue (o : OptionName)
  /-- a value that is none of the possible ones -/
  | invalidValue (o : OptionName) (value : String)
  /-- an option that is given twice -/
  | repeated (o : OptionName)
  /-- a value for a flag -/
  | unexpectedValue (flag : Flag) (value : String)
  /-- no command -/
  | missingCommand
  deriving DecidableEq

/-- A cause, and the options that had been read when it was found. -/
structure UsageError where
  cause : UsageCause
  used : List OptionName
  deriving DecidableEq

/-! ## Parsing -/

/-- The choice of an option with a value. -/
def OptionName.choice (o : OptionName) (value : String) : Except UsageCause Choice :=
  match o with
  | .config => if value = "" then .error (.missingValue o) else .ok (.config value)
  | .cwd => .ok (.cwd value)
  | .survivor => .ok .survivor
  | .showExitCode => .ok .showExitCode
  | .logLevel =>
    match Level.all.find? (·.name = value), value with
    | some l, _ => .ok (.logLevel l)
    | none, "" => .error (.missingValue o)
    | none, v => .error (.invalidValue o v)
  | .sink =>
    match [SinkChoice.console, .log].find? (·.name = value), value with
    | some s, _ => .ok (.sink s)
    | none, "" => .error (.missingValue o)
    | none, v => .error (.invalidValue o v)

namespace CommandLine

/-- An option that waits for its value, or whose value has not been looked at. -/
structure Pending where
  option : OptionName
  value : Option String := none
  deriving DecidableEq

/-- What has been read of the options, latest first. -/
structure Progress where
  choices : List Choice := []
  pending : Option Pending := none
  deriving DecidableEq

namespace Progress

/-- The options read so far, in order. -/
def used (p : Progress) : List OptionName := p.choices.reverse.map Choice.option

/-- Fail at this point. -/
def fail {α : Type} (p : Progress) (cause : UsageCause) : Except UsageError α :=
  .error ⟨cause, p.used⟩

/-- Take an option with its value: it may be given once. -/
def take (p : Progress) (o : OptionName) (value : String) : Except UsageError Progress :=
  if o ∈ p.used then p.fail (.repeated o)
  else match o.choice value with
    | .ok c => .ok { p with choices := c :: p.choices }
    | .error cause => p.fail cause

/-- Settle the pending option. -/
def settle (p : Progress) : Except UsageError Progress :=
  match p.pending with
  | none => .ok p
  | some ⟨o, none⟩ => p.fail (.missingValue o)
  | some ⟨o, some value⟩ => { p with pending := none }.take o value

end Progress

/-- What a word is, by its form. -/
inductive Word where
  | option (o : OptionName) (value : Option String)
  | help (full : Bool) (value : Option String)
  | version (value : Option String)
  /-- `--` -/
  | separator
  | other
  deriving DecidableEq

/-- The text before the first equals sign, and the text behind it. -/
def splitEquals (cs : List Char) : List Char × Option (List Char) :=
  match cs.dropWhile (· ≠ '=') with
  | [] => (cs, none)
  | _ :: value => (cs.takeWhile (· ≠ '='), some value)

/-- The form of a word.  Short options may stand together, if all of them are
    known. -/
def Word.ofString (s : String) : Word :=
  match s.toList with
  | ['-', '-'] => .separator
  | '-' :: '-' :: cs =>
    let (name, value) := splitEquals cs
    let value := value.map String.ofList
    match String.ofList name with
    | "help" => .help true value
    | "version" => .version value
    | name =>
      match OptionName.ofName? name with
      | some o => .option o value
      | none => .other
  | '-' :: c :: cs =>
    if (c :: cs).all (fun d => d = 'h' || d = 'V') then
      if c = 'h' then .help false none else .version none
    else .other
  | _ => .other

/-- The command line at the first word of the command. -/
def Progress.finish (p : Progress) (command : List String) : Except UsageError CommandLine := do
  let p ← p.settle
  if command.isEmpty then p.fail .missingCommand
  else return ofChoices p.choices.reverse command

/-- Read the words behind the program's name. -/
def parseWords : Progress → List String → Except UsageError CommandLine
  | p, [] => p.finish []
  | p, w :: rest =>
    match Word.ofString w with
    | .separator => p.finish rest
    | .help _ (some value) => p.fail (.unexpectedValue .help value)
    | .help full none => do (← p.settle).fail (.help full)
    | .version (some value) => p.fail (.unexpectedValue .version value)
    | .version none => do (← p.settle).fail .version
    | .option o (some value) =>
      if o.takesValue then do parseWords (← (← p.settle).take o value) rest
      else p.fail (.unexpectedValue (.option o) value)
    | .option o none =>
      if o.takesValue then do
        let p ← p.settle
        parseWords { p with pending := some ⟨o, none⟩ } rest
      else do parseWords (← (← p.settle).take o "") rest
    | .other =>
      match p.pending with
      | some ⟨o, none⟩ => parseWords { p with pending := some ⟨o, some w⟩ } rest
      | _ => p.finish (w :: rest)

/-- Read the arguments, of which the first is the program's name. -/
def parse (args : List String) : Except UsageError CommandLine :=
  parseWords {} (args.drop 1)

end CommandLine

end Supervisor
