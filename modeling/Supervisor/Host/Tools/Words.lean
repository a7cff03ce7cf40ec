/-
  Small programs that write words and numbers.

  * `Tools.echo` and `Tools.printf` are both programs and built-in commands of
    the shell, which differ in what they take for an escape;
  * `Tools.withOptions` reads the options of a program first.
-/
import Supervisor.Host.Effect
import Supervisor.Host.Format
import Supervisor.Host.Options
import Supervisor.Host.Quote

namespace Supervisor.Host.Tools

/-- A small program whose options are read first; the code is for options that
    it does not know. -/
def withOptions (rules : OptionRules) (code : Nat) (run : Voice → Place → Chosen → Effect) : Tool :=
  fun v p args =>
    match rules.read args with
    | .ok c => run v p c
    | .error why => v.refuse code why

/-- Refuse a word that is too many. -/
def extra (v : Voice) (code : Nat) (word : String) : Effect :=
  v.refuse code ("extra operand " ++ Quote.escaped word)

/-- Refuse to run without words. -/
def missing (v : Voice) (code : Nat) : Effect := v.refuse code "missing operand"

/-! ## Words -/

/-- The words of a shell's `echo`: escapes are read. -/
def echoEscaped (args : List String) : Effect :=
  let (words, newline) := match args with
    | "-n" :: rest => (rest, false)
    | args => (args, true)
  let (bs, goes) := unescape .shellText (" ".intercalate words).toList
  .print (if newline && goes then bs ++ [10] else bs)

/-- Whether a word is made of options of `echo`. -/
def isEchoOption (s : String) : Bool :=
  match s.toList with
  | '-' :: c :: rest => (c :: rest).all fun c => c = 'n' || c = 'e' || c = 'E'
  | _ => false

/-- The words of the program `echo`: escapes are read only if asked. -/
def echoPlain (args : List String) : Effect :=
  let options := args.takeWhile isEchoOption
  let letters := options.flatMap fun o => o.toList.drop 1
  let words := " ".intercalate (args.drop options.length)
  let escapes := (letters.reverse.find? fun c => c = 'e' || c = 'E') = some 'e'
  let (bs, goes) := if escapes then unescape .programText words.toList
    else (Octets.bytes words, true)
  .print (if letters.contains 'n' || !goes then bs else bs ++ [10])

/-- Words with blanks between them. -/
def echo : Tool := fun v _ args => if v.inShell then echoEscaped args else echoPlain args

/-! ## Formats -/

/-- What is said about a problem with an argument or a format. -/
def problemText (v : Voice) (p : Format.Problem) : String :=
  match p, v.inShell with
  | .notNumeric a, true => a ++ ": expected numeric value"
  | .notNumeric a, false => Quote.escaped a ++ ": expected a numeric value"
  | .partlyNumeric a, true => a ++ ": not completely converted"
  | .partlyNumeric a, false => Quote.escaped a ++ ": value not completely converted"
  | .outOfRange a, true => a ++ ": Numerical result out of range"
  | .outOfRange a, false => Quote.escaped a ++ ": Numerical result out of range"
  | .ignored a, _ =>
    "warning: " ++ a ++ ": character(s) following character constant have been ignored"
  | .incomplete _, true => "missing format character"
  | .invalid d, true => d ++ ": invalid directive"
  | .incomplete d, false | .invalid d, false => d ++ ": invalid conversion specification"

/-- The code for a problem. -/
def problemCode (v : Voice) : Format.Problem → Nat
  | .ignored _ => 0
  | .incomplete _ | .invalid _ => if v.inShell then 2 else 1
  | _ => 1

/-- Arguments by a format. -/
def printf : Tool := fun v _ args =>
  match if args.head? = some "--" then args.drop 1 else args with
  | [] =>
    if v.inShell then v.complain 2 "usage: printf format [arg ...]" else missing v 1
  | format :: rest =>
    let dialect := if v.inShell then Format.Dialect.shell else Format.Dialect.program
    let (written, left) := Format.write dialect format rest
    let writes := written.parts.map fun
      | .bytes bs => (1, bs)
      | .problem p => (2, v.line (problemText v p))
    let code := written.parts.foldl (fun code part =>
      match part with
      | .bytes _ => code
      | .problem p => max code (problemCode v p)) 0
    if v.inShell then
      -- a shell says what is wrong before it writes
      let (out, err) := writes.partition (·.1 = 1)
      Effect.joined { writes := err ++ out, code }
    else
      let excess := match left, written.goes with
        | a :: _, true =>
          [(2, v.line ("warning: ignoring excess arguments, starting with " ++ Quote.escaped a))]
        | _, _ => []
      Effect.joined { writes := writes ++ excess, code }

/-! ## Lines without end -/

/-- How often a program without end repeats its line. -/
def repeatCount : Nat := 100000

/-- A line again and again. -/
def yes : Tool := withOptions {} 1 fun _ _ c =>
  let text := Utility.line (if c.operands = [] then "y" else " ".intercalate c.operands)
  { Effect.print (List.replicate repeatCount text).flatten with endless := true }

/-! ## Paths -/

/-- The parts of a path without the slashes at its end. -/
def pathNames (path : String) : List (List Char) :=
  (pathParts path.toList).reverse.dropWhile (· = []) |>.reverse

/-- The last name of a path, without an ending that is named. -/
def lastNameOf (ending : String) (path : String) : String :=
  let name := (pathNames path).getLast?.getD (if path = "" then [] else ['/'])
  let ending := ending.toList
  let short := name.take (name.length - ending.length)
  String.ofList (if short ≠ [] ∧ short ++ ending = name then short else name)

/-- The last names of paths. -/
def basename : Tool :=
  withOptions ⟨"az", "s", [("multiple", 'a'), ("suffix", 's'), ("zero", 'z')], false⟩ 1 fun v _ c =>
    let line (s : String) : Bytes := Octets.bytes s ++ [if c.has 'z' then 0 else 10]
    match c.operands, c.has 'a' || c.has 's' with
    | [], _ => missing v 1
    | names, true => .print (names.flatMap fun n => line (lastNameOf ((c.value? 's').getD "") n))
    | [name], _ => .print (line (lastNameOf "" name))
    | [name, ending], _ => .print (line (lastNameOf ending name))
    | _ :: _ :: a :: _, _ => extra v 1 a

/-- A path without its last name. -/
def folderOf (path : String) : String :=
  let isTop := path ≠ "" && path.toList.all (· = '/')
  match (pathNames path).dropLast.reverse.dropWhile (· = []) |>.reverse with
  | [] => if isTop || (beginsWith '/' path) then "/" else "."
  | parts => "/".intercalate (parts.map String.ofList)

/-- Paths without their last names. -/
def dirname : Tool := withOptions ⟨"z", "", [("zero", 'z')], false⟩ 1 fun v _ c =>
  let line (s : String) : Bytes := Octets.bytes s ++ [if c.has 'z' then 0 else 10]
  if c.operands = [] then missing v 1 else .print (c.operands.flatMap fun a => line (folderOf a))

/-! ## Numbers -/

/-- A number with decimals, as a count of some fraction. -/
structure Scaled where
  value : Int
  places : Nat

/-- A number that is written with decimals. -/
def scaled? (s : String) : Option Scaled :=
  let (negative, cs) := match s.toList with
    | '-' :: rest => (true, rest)
    | '+' :: rest => (false, rest)
    | cs => (false, cs)
  let whole := cs.takeWhile (· ≠ '.')
  let places := cs.drop (whole.length + 1)
  match decimal? (whole ++ places) with
  | some n => some ⟨if negative then -n else n, places.length⟩
  | none => none

/-- A count of some fraction in decimals. -/
def scaledText (places : Nat) (n : Int) : String :=
  (if n < 0 then "-" else "") ++ String.ofList (Magnitude.withPoint false places n.natAbs)

/-- A text with zeros behind its sign up to a width. -/
def zeroPadded (width : Nat) (s : String) : String :=
  let zeros := List.replicate (width - s.length) '0'
  String.ofList (match s.toList with
    | '-' :: rest => '-' :: zeros ++ rest
    | cs => zeros ++ cs)

/-- How many numbers are written at most. -/
def numberLimit : Nat := 1000000

/-- Numbers one below the other. -/
def sequence (v : Voice) (c : Chosen) (first step last : String) : Effect :=
  match [first, step, last].find? fun a => (scaled? a).isNone with
  | some a => v.refuse 1 ("invalid floating point argument: " ++ Quote.escaped a)
  | none =>
    let of (a : String) : Scaled := (scaled? a).getD ⟨0, 0⟩
    let places := max (of first).places (of step).places
    let common := max places (of last).places
    let at_ (a : String) : Int := (of a).value * Int.pow 10 (common - (of a).places)
    let (a, s, b) := (at_ first, at_ step, at_ last)
    if s = 0 then v.refuse 1 ("invalid Zero increment value: " ++ Quote.escaped step)
    else
      let count := min numberLimit (if s < 0 then ((a - b) / (-s) + 1).toNat else ((b - a) / s + 1).toNat)
      let texts := (List.range count).map fun (i : Nat) =>
        scaledText places ((a + s * i) / Int.pow 10 (common - places))
      let width := (texts.map String.length).foldl max 0
      let texts := if c.has 'w' then texts.map (zeroPadded width) else texts
      if texts = [] then {}
      else .print (Utility.line (((c.value? 's').getD "\n").intercalate texts))

/-- Whether a word is a negative number. -/
def isNegative (a : String) : Bool :=
  match a.toList with
  | '-' :: c :: _ => c.isDigit || c = '.'
  | _ => false

/-- Numbers one below the other. -/
def seq : Tool := fun v p args =>
  let run (c : Chosen) : Effect :=
    match c.operands with
    | [] => missing v 1
    | [b] => sequence v c "1" "1" b
    | [a, b] => sequence v c a "1" b
    | [a, s, b] => sequence v c a s b
    | _ :: _ :: _ :: w :: _ => extra v 1 w
  let rules : OptionRules := ⟨"w", "s", [("equal-width", 'w'), ("separator", 's')], false⟩
  -- a negative number is no option
  let front := args.takeWhile (!isNegative ·)
  match rules.read front with
  | .ok c => run { c with operands := c.operands ++ args.drop front.length }
  | .error _ => withOptions rules 1 (fun _ _ c => run c) v p args

/-! ## The host -/

/-- The environment, or variables of it. -/
def printenv : Tool := withOptions ⟨"0", "", [("null", '0')], false⟩ 2 fun _ p c =>
  let line (s : String) : Bytes := Octets.bytes s ++ [if c.has '0' then 0 else 10]
  if c.operands = [] then .print (p.env.flatMap fun (k, s) => line (k ++ "=" ++ s))
  else
    let values := c.operands.map fun n => p.env.lookup n
    { Effect.print ((values.filterMap id).flatMap line) with
      code := if values.any Option.isNone then 1 else 0 }

/-- What kind of host it is. -/
def uname : Tool := withOptions ⟨"asnrvmpio", "", [("all", 'a'), ("kernel-name", 's')], true⟩ 1 fun v _ c =>
  match c.operands with
  | a :: _ => extra v 1 a
  | [] => .print (Utility.line "Linux")

/-- Who runs the program. -/
def whoami : Tool := withOptions {} 1 fun v _ c =>
  match c.operands with
  | a :: _ => extra v 1 a
  | [] => .print (Utility.line "root")

/-- The number or name of the user. -/
def identity : Tool := withOptions ⟨"ugnrG", "", [("user", 'u'), ("group", 'g'), ("name", 'n')], true⟩ 1 fun _ _ c =>
  .print (Utility.line (
    if !c.has 'u' && !c.has 'g' && !c.has 'G' then "uid=0(root) gid=0(root) groups=0(root)"
    else if c.has 'n' then "root" else "0"))

/-- The working directory. -/
def pwd : Tool := withOptions ⟨"LP", "", [("logical", 'L'), ("physical", 'P')], true⟩ 1 fun v p c =>
  let warning := if c.operands = [] then [] else v.line "ignoring non-option arguments"
  .both (Utility.line p.here.path) warning 0

end Supervisor.Host.Tools
