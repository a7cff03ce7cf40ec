/-
  The texts of the command line: help, version and usage errors.

  * `UsageCause.headline` is how the text of an error begins;
  * `UsageError.text` is the whole text, with the possible values, a hint at a
    similar one, and how the program is called (`UsageError.brief` is its first
    line);
  * help and version are not errors: they go to the standard output and the
    program ends with code 0 (`UsageCause.isRequest`).
-/
import Supervisor.CommandLine
import Supervisor.Decimal.Binary64
import Supervisor.Text.Control
import Supervisor.Text.Line

namespace Supervisor

/-- The name of the program. -/
def programName : String := "procwatch"

/-- The text of the version. -/
def versionText : String := programName ++ " 0.1.0\n"

/-- An option as errors and usage show it. -/
def OptionName.shown (o : OptionName) : String :=
  match o.valueName? with
  | some v => "--" ++ o.name ++ " <" ++ v ++ ">"
  | none => "--" ++ o.name

/-! ## Help -/

/-- What the help says about an option: in brief, and below that in full. -/
def OptionName.about : OptionName → String × List String
  | config => ("Path to the settings file (TOML). A missing file means defaults", [])
  | logLevel =>
    ("Logging level (error, warn, info, debug, trace)",
      ["If omitted, `PROCWATCH_LOG` or a default level will be used."])
  | survivor => ("Leave the child running when procwatch itself is interrupted", [])
  | showExitCode => ("Print the exit code notice when the child exits", [])
  | sink => ("Where child output goes: straight to the console, or through the log", [])
  | cwd => ("Working directory for the child", [])

/-- The value of an option that is not given. -/
def OptionName.default? : OptionName → Option String
  | config => some Settings.defaultFile
  | sink => some SinkChoice.console.name
  | _ => none

/-- The list of possible values in brackets. -/
def possibleText (values : List String) : String :=
  "[possible values: " ++ ", ".intercalate values ++ "]"

/-- What the help says in brackets about the values of an option. -/
def OptionName.remarks (o : OptionName) : List String :=
  (o.default?.map fun d => "[default: " ++ d ++ "]").toList ++
    if o.possibleValues.isEmpty then [] else [possibleText o.possibleValues]

/-- The first line of the help. -/
def aboutProgram : String := "Run a command, stream its output, and make sure it dies with us."

/-- How the program is called. -/
def fullUsage : String := "Usage: " ++ programName ++ " [OPTIONS] <COMMAND>..."

/-- What the command is. -/
def aboutCommand : String := "Command to run, followed by its arguments"

/-- A text followed by blanks up to a width. -/
def padded (width : Nat) (s : String) : String :=
  s ++ String.ofList (List.replicate (width - s.length) ' ')

/-- The brief help. -/
def briefHelp : String :=
  let line (left about : String) : String := "  " ++ padded 25 left ++ about ++ "\n"
  let options := OptionName.all.map fun o =>
    line ("    " ++ o.shown) (" ".intercalate (o.about.1 :: o.remarks))
  aboutProgram ++ "\n\n" ++ fullUsage ++ "\n\nArguments:\n  <COMMAND>...  " ++ aboutCommand ++
    "\n\nOptions:\n" ++ "".intercalate options ++
    line "-h, --help" "Print help (see more with '--help')" ++
    line "-V, --version" "Print version"

/-- The full help. -/
def fullHelp : String :=
  let indented (s : String) : String := "          " ++ s ++ "\n"
  let gap := indented ""
  let option (o : OptionName) : String :=
    let (brief, more) := o.about
    let head := if more.isEmpty then brief else brief ++ "."
    let remarks := o.remarks.map indented
    "      " ++ o.shown ++ "\n" ++ indented head ++
      "".intercalate (more.map fun m => gap ++ indented m) ++
      (if remarks.isEmpty then "" else gap ++ "".intercalate remarks)
  aboutProgram ++ "\n\n" ++ fullUsage ++ "\n\nArguments:\n  <COMMAND>...\n" ++
    indented aboutCommand ++ "\nOptions:\n" ++
    "".intercalate (OptionName.all.map fun o => option o ++ "\n") ++
    "  -h, --help\n" ++ indented "Print help (see a summary with '-h')" ++ "\n" ++
    "  -V, --version\n" ++ indented "Print version"

/-! ## Similar words -/

/-- The indices of the characters of `b` that match those of `a`, each at most
    once, no further away than `reach`. -/
def matchedIndices (reach : Nat) (b : List Char) : Nat → List Char → List (Nat × Nat) → List (Nat × Nat)
  | _, [], found => found.reverse
  | i, c :: rest, found =>
    let hit := (List.range b.length).find? fun j =>
      i ≤ j + reach && j ≤ i + reach && b[j]? = some c && !found.any (·.2 = j)
    match hit with
    | some j => matchedIndices reach b (i + 1) rest ((i, j) :: found)
    | none => matchedIndices reach b (i + 1) rest found

/-- A positive fraction. -/
abbrev Fraction := Nat × Nat

namespace Fraction

/-- The nearest fraction that is a number of 64 bits. -/
def rounded (f : Fraction) : Fraction :=
  match Binary64.ofFraction? false f.1 f.2 with
  | some x =>
    let (p, q) := powerFraction 2 x.exponent
    (x.mantissa * p, q)
  | none => f

/-- The sum of two fractions, rounded. -/
def plus (f g : Fraction) : Fraction := rounded (f.1 * g.2 + g.1 * f.2, f.2 * g.2)

/-- Whether a fraction is below another. -/
def isBelow (f g : Fraction) : Bool := f.1 * g.2 < g.1 * f.2

end Fraction

/-- How similar two words are, if they share a character: the mean of the parts
    of both that match and of the part of the matches that stand in order, each
    step rounded to 64 bits. -/
def similarity? (a b : List Char) : Option Fraction :=
  let longer := max a.length b.length
  let found := matchedIndices (longer / 2 - 1) b 0 a []
  let m := found.length
  if m = 0 then none
  else
    let other := (found.map (·.2)).mergeSort (· ≤ ·)
    let swapped := ((found.map (·.2)).zip other).countP fun (x, y) => b[x]? ≠ b[y]?
    let ofA := Fraction.rounded (m, a.length)
    let ofB := Fraction.rounded (m, b.length)
    let (num, den) := (ofA.plus ofB).plus (Fraction.rounded (m - swapped / 2, m))
    some (Fraction.rounded (num, 3 * den))

/-- A word must be more similar than this. -/
def leastSimilarity : Fraction := Fraction.rounded (7, 10)

/-- The most similar of some words, if one is similar enough; of several the
    last. -/
def similarWord? (w : String) (words : List String) : Option String :=
  let better (best : Option (String × Fraction)) (v : String) : Option (String × Fraction) :=
    match similarity? w.toList v.toList with
    | none => best
    | some f =>
      if !leastSimilarity.isBelow f || best.any fun (_, g) => f.isBelow g then best
      else some (v, f)
  (words.foldl better none).map (·.1)

/-! ## Errors -/

/-- A flag as errors and usage show it. -/
def Flag.shown : Flag → String
  | option o => o.shown
  | help => "--help"
  | version => "--version"

namespace UsageCause

/-- Whether it is a request, which is no error. -/
def isRequest : UsageCause → Bool
  | help _ | version => true
  | _ => false

/-- The code that the program ends with. -/
def exitCode (c : UsageCause) : Int := if c.isRequest then 0 else 2

/-- How the text of an error begins, or the whole text that is asked for.  A value
    in it is coloured, which shows on terminals only. -/
def headline : UsageCause → String
  | help full => if full then fullHelp else briefHelp
  | version => versionText
  | missingValue o => "error: a value is required for '" ++ o.shown ++ "' but none was supplied"
  | invalidValue o value =>
    "error: invalid value '" ++ Text.colored value ++ "' for '" ++ o.shown ++ "'"
  | repeated o => "error: the argument '" ++ o.shown ++ "' cannot be used multiple times"
  | unexpectedValue flag value =>
    "error: unexpected value '" ++ Text.colored value ++ "' for '" ++ flag.shown ++
      "' found; no more were expected"
  | missingCommand => "error: the following required arguments were not provided:"

end UsageCause

/-- How the program is called, with some words before the command. -/
def usageLine (words : List String) (command : String) : String :=
  "Usage: " ++ " ".intercalate (programName :: words ++ [command])

/-- The command in a usage line. -/
def commandWord : String := "<COMMAND>..."

/-- All options and the command as alternatives. -/
def alternatives : String :=
  "<" ++ "|".intercalate (OptionName.all.map OptionName.shown ++ ["COMMAND"]) ++ ">"

/-- How the program is called with a flag.  Where options were given before it,
    all of them are shown as alternatives, and so is the flag if it is one. -/
def flagUsage (used : List OptionName) (flag : Flag) : String :=
  match used, flag with
  | [], _ => usageLine [flag.shown] commandWord
  | _, .option _ => usageLine [] alternatives
  | _, _ => usageLine [flag.shown] alternatives

namespace UsageError

/-- What follows the first line of an error. -/
def details (e : UsageError) : String :=
  let possible (o : OptionName) : String :=
    if o.possibleValues.isEmpty then "" else "\n  " ++ possibleText o.possibleValues
  match e.cause with
  | .help _ | .version => ""
  | .missingValue o => possible o ++ "\n"
  | .invalidValue o value =>
    possible o ++ "\n" ++
      match similarWord? value o.possibleValues with
      | some v => "\n  tip: a similar value exists: '" ++ v ++ "'\n"
      | none => ""
  | .repeated _ => "\n\n" ++ fullUsage ++ "\n"
  | .unexpectedValue flag _ => "\n\n" ++ flagUsage e.used flag ++ "\n"
  | .missingCommand =>
    "\n  " ++ commandWord ++ "\n\n" ++ usageLine (e.used.map OptionName.shown) commandWord ++ "\n"

/-- The whole text of an error, coloured. -/
def colored (e : UsageError) : String :=
  e.cause.headline ++ e.details ++ "\nFor more information, try '--help'.\n"

/-- What is written of an error, or the whole text that is asked for.  A value in
    it cannot steer a terminal. -/
def text (e : UsageError) : String :=
  if e.cause.isRequest then e.cause.headline else Text.stripStream e.colored

/-- The first line of an error, or the whole text that is asked for. -/
def brief (e : UsageError) : String :=
  if e.cause.isRequest then e.cause.headline else Text.firstLine (Text.strip e.colored)

end UsageError

end Supervisor
