/-
  Programs that run another one.

  * `Wrapper.read` is what such a program does with its arguments: something on
    its own, or it runs a program, in an environment and for some time
    (`Wrapping`);
  * `Wrapper.splitWords` cuts a text into words, with quotes and escapes.
-/
import Supervisor.Host.Signal
import Supervisor.Host.Tools.Waiting

namespace Supervisor.Host

/-- For how long a program may run. -/
structure Limit where
  /-- `none` is for ever -/
  time : Option Nat
  signal : Nat
  /-- when it is killed after that -/
  killAfter : Option Nat := none
  /-- the code of the program counts in any case -/
  keepsCode : Bool := false

/-- A program that is run by another one. -/
structure Wrapping where
  name : String
  args : List String
  env : List (String × String)
  /-- the directory in which it runs -/
  folder : Option String := none
  /-- the signals that it ignores -/
  ignores : List Nat := []
  limit : Option Limit := none
  /-- how one speaks of a program that cannot be run -/
  complaint : String → String
  /-- what one says more of a program that is missing -/
  advice : String → Option String := fun _ => none

/-- What a program that can run another one does. -/
inductive Wrapped where
  | effect (e : Effect)
  | program (w : Wrapping)

namespace Wrapper

/-! ## Words in a text -/

/-- Words as far as they are cut. -/
structure Splitting where
  /-- the complete ones, latest first -/
  done : List String := []
  /-- the one that is not complete, its latest character first -/
  current : Option (List Char) := none
  /-- the quote that is open -/
  quote : Option Char := none

namespace Splitting

/-- A character of a word. -/
def add (s : Splitting) (cs : List Char) : Splitting :=
  { s with current := some (cs.reverse ++ s.current.getD []) }

/-- The word is complete. -/
def cut (s : Splitting) : Splitting :=
  { s with current := none, done := (s.current.map fun cs => String.ofList cs.reverse).toList ++ s.done }

/-- All words. -/
def words (s : Splitting) : List String := s.cut.done.reverse

end Splitting

/-- Whether a character separates words. -/
def isSpace (c : Char) : Bool := c = ' ' || ('\t' ≤ c && c ≤ '\r')

/-- The characters that letters behind a backslash stand for. -/
def letterEscapes : List (Char × Char) :=
  [('f', Char.ofNat 12), ('n', '\n'), ('r', '\r'), ('t', '\t'), ('v', Char.ofNat 11), ('"', '"'),
    ('#', '#'), ('$', '$'), ('\'', '\''), ('\\', '\\')]

/-- Cut a text into words; the number bounds how many characters it has. -/
def splitFor (env : List (String × String)) : Nat → Splitting → List Char → Except String (List String)
  | 0, s, _ => .ok s.words
  | _, s, [] =>
    if s.quote.isSome then .error "no terminating quote in -S string" else .ok s.words
  | fuel + 1, s, c :: rest =>
    let literal : Except String (List String) := splitFor env fuel (s.add [c]) rest
    let single := s.quote = some '\''
    if c = '\'' && s.quote ≠ some '"' || c = '"' && !single then
      let open_ := if s.quote.isSome then none else some c
      splitFor env fuel { s.add [] with quote := open_ } rest
    else if isSpace c && s.quote.isNone then splitFor env fuel s.cut rest
    else if c = '#' && s.current.isNone && s.quote.isNone then .ok s.words
    else if c = '\\' then
      match rest with
      | [] => if single then literal else .error "invalid backslash at end of string in -S"
      | e :: more =>
        if single && e ≠ '\\' && e ≠ '\'' then literal
        else if e = '_' then
          if s.quote.isNone then splitFor env fuel s.cut more else splitFor env fuel (s.add [' ']) more
        else if e = 'c' then
          if s.quote.isSome then .error "'\\c' must not appear in double-quoted -S string"
          else .ok s.words
        else match letterEscapes.lookup e with
          | some x => splitFor env fuel (s.add [x]) more
          | none => .error ("invalid sequence '\\" ++ String.ofList [e] ++ "' in -S")
    else if c = '$' && !single then
      let isNameChar (c : Char) : Bool := c.isAlphanum || c = '_'
      let name := (rest.drop 1).takeWhile isNameChar
      match rest.head?, (rest.drop 1).drop name.length with
      | some '\x7b', '\x7d' :: more =>
        if name = [] || (name.head?.any Char.isDigit) then wrong (c :: rest)
        else match env.lookup (String.ofList name) with
          | some v => splitFor env fuel (s.add v.toList) more
          | none => splitFor env fuel s more
      | _, _ => wrong (c :: rest)
    else literal
where
  /-- Something else than a name in braces is to be expanded. -/
  wrong (cs : List Char) : Except String (List String) :=
    .error ("only $\x7bVARNAME\x7d expansion is supported, error at: " ++ String.ofList cs)

/-- Cut a text into words, with quotes, escapes and variables. -/
def splitWords (env : List (String × String)) (text : String) : Except String (List String) :=
  splitFor env (text.length + 1) {} text.toList

/-! ## Environments -/

/-- The options of the program that changes the environment. -/
def envRules : OptionRules :=
  ⟨"i0v", "uCS", [("ignore-environment", 'i'), ("null", '0'), ("unset", 'u'), ("chdir", 'C'),
    ("split-string", 'S'), ("debug", 'v')], false⟩

/-- The name and the value that a word sets. -/
def setting (a : String) : String × String :=
  let name := a.toList.takeWhile (· ≠ '=')
  (String.ofList name, String.ofList (a.toList.drop (name.length + 1)))

/-- An environment with a variable set. -/
def setIn (env : List (String × String)) (v : String × String) : List (String × String) :=
  if env.any (·.1 = v.1) then env.map fun old => if old.1 = v.1 then v else old else env ++ [v]

/-- Advice about words that stand in one. -/
def splitAdvice (v : Voice) : String := v.who ++ ": use -[v]S to pass options in shebang lines"

/-- What is wrong with an option, with advice about blanks. -/
def refuseOption (v : Voice) (why : String) : Effect :=
  match why.toList.reverse with
  | '\'' :: c :: '\'' :: _ =>
    if isSpace c then v.refuse 125 (why ++ "\n" ++ splitAdvice v) else v.refuse 125 why
  | _ => v.refuse 125 why

/-- The options and other words, with those that stand in one word taken
    apart; the number bounds how often. -/
def envOptions (v : Voice) (env : List (String × String)) : Nat → List String → Except Effect Chosen
  | 0, args => .ok ⟨[], args⟩
  | fuel + 1, args =>
    match envRules.readUpTo ['S'] args with
    | .error why => .error (refuseOption v why)
    | .ok c =>
      match c.options.getLast? with
      | some ('S', text) =>
        match splitWords env text with
        | .error why => .error (v.complain 125 why)
        | .ok words => do
          let more ← envOptions v env fuel (words ++ c.operands)
          return { more with options := c.options.dropLast ++ more.options }
      | _ => .ok c

/-- How often words may stand in one. -/
def splitDepth : Nat := 50

/-- Run a program in a changed environment, or show that. -/
def readEnv (v : Voice) (old : List (String × String)) (args : List String) : Wrapped :=
  match envOptions v old splitDepth args with
  | .error e => .effect e
  | .ok c =>
    let isBare := c.operands.head? = some "-"
    let words := if isBare then c.operands.drop 1 else c.operands
    let unset := (c.options.filter (·.1 = 'u')).map (·.2)
    match unset.find? fun n => n = "" || n.toList.contains '=' with
    | some n => .effect (v.complain 125 ("cannot unset " ++ Quote.escaped n ++ ": Invalid argument"))
    | none =>
      let env := if c.has 'i' || isBare then [] else old.filter fun (n, _) => !unset.contains n
      let settings := words.takeWhile fun a => a.toList.contains '='
      let env := settings.foldl (fun env a => setIn env (setting a)) env
      match words.drop settings.length with
      | [] =>
        if (c.value? 'C').isSome then
          .effect (v.refuse 125 "must specify command with --chdir (-C)")
        else
          let final : UInt8 := if c.has '0' then 0 else 10
          .effect (.print (env.flatMap fun (k, s) => Octets.bytes (k ++ "=" ++ s) ++ [final]))
      | name :: args =>
        if c.has '0' then .effect (v.refuse 125 "cannot specify --null (-0) with command")
        else .program
          { name, args, env, folder := c.value? 'C'
            complaint := fun name => v.who ++ ": " ++ Quote.escaped name
            advice := fun name =>
              if name.toList.any isSpace then some (splitAdvice v) else none }

/-! ## Limits -/

/-- The signal that ends a program by default. -/
def termination : Nat := 15

/-- Run a program for some time. -/
def readTimeout (v : Voice) (env : List (String × String)) (args : List String) : Wrapped :=
  let rules : OptionRules :=
    ⟨"v", "ks", [("kill-after", 'k'), ("signal", 's'), ("verbose", 'v'), ("foreground", 'F'),
      ("preserve-status", 'P')], false⟩
  let interval (a : String) : Except Effect (Option Nat) :=
    match Tools.interval? a with
    | some t => .ok t
    | none => .error (v.refuse 125 ("invalid time interval " ++ Quote.escaped a))
  let read : Except Effect Wrapped := do
    let c ← (rules.read args).mapError (v.refuse 125)
    let limit : Limit ← c.options.foldlM (fun (l : Limit) (o, a) => do
      match o with
      | 'k' => return { l with killAfter := ← interval a }
      | 's' =>
        match Signal.ofText? a with
        | some n => return { l with signal := n }
        | none => .error (v.refuse 125 (Quote.escaped a ++ ": invalid signal"))
      | 'P' => return { l with keepsCode := true }
      | _ => return l) { time := none, signal := termination }
    match c.operands with
    | time :: name :: args =>
      let time ← interval time
      return .program
        { name, args, env
          limit := some { limit with time := if time = some 0 then none else time }
          complaint := fun name => v.who ++ ": failed to run command " ++ Quote.escaped name }
    | _ => .error { writes := [(2, Utility.line (Utility.hint v.who))], code := 125 }
  match read with
  | .ok w => w
  | .error e => .effect e

/-! ## Others -/

/-- Whether a word is a whole number. -/
def isWhole (a : String) : Bool :=
  match a.toList with
  | '-' :: ds | '+' :: ds | ds => (decimal? ds).isSome

/-- Run a program with less priority, which changes nothing here. -/
def readNice (v : Voice) (env : List (String × String)) (args : List String) : Wrapped :=
  let args := match args with
    | a :: rest =>
      match a.toList with
      | '-' :: ds => if isWhole (String.ofList ds) then "-n" :: String.ofList ds :: rest else args
      | _ => args
    | [] => []
  let rules : OptionRules := ⟨"", "n", [("adjustment", 'n')], false⟩
  match rules.read args with
  | .error why => .effect (v.refuse 125 why)
  | .ok c =>
    match (c.value? 'n').filter fun a => !isWhole a, c.operands with
    | some a, _ => .effect (v.complain 125 ("invalid adjustment " ++ Quote.escaped a))
    | none, [] =>
      if c.has 'n' then .effect (v.refuse 125 "a command must be given with an adjustment")
      else .effect (.print (Utility.line "0"))
    | none, name :: args =>
      .program { name, args, env, complaint := fun name => v.who ++ ": " ++ Quote.escaped name }

/-- The signal of a terminal that is gone. -/
def hangUp : Nat := 1

/-- Run a program that outlives its terminal. -/
def readNohup (v : Voice) (env : List (String × String)) (args : List String) : Wrapped :=
  let rules : OptionRules := { isMixed := false }
  match rules.read args with
  | .error why => .effect (v.refuse 125 why)
  | .ok c =>
    match c.operands with
    | [] => .effect (v.refuse 125 "missing operand")
    | name :: args =>
      .program
        { name, args, env, ignores := [hangUp]
          complaint := fun name => v.who ++ ": failed to run command " ++ Quote.forShell name }

/-- Run a program in a session of its own. -/
def readSetsid (env : List (String × String)) (args : List String) : Wrapped :=
  let v : Voice := ⟨false, "setsid"⟩
  let rules : OptionRules := ⟨"cfw", "", [("ctty", 'c'), ("fork", 'f'), ("wait", 'w')], false⟩
  match rules.read args with
  | .error why => .effect (v.refuse 1 why)
  | .ok c =>
    match c.operands with
    | [] => .effect (v.refuse 1 "no command specified")
    | name :: args =>
      .program { name, args, env, complaint := fun name => "setsid: failed to execute " ++ name }

/-- Run a program with other buffers, which changes nothing here. -/
def readStdbuf (v : Voice) (env : List (String × String)) (args : List String) : Wrapped :=
  let rules : OptionRules :=
    ⟨"", "ioe", [("input", 'i'), ("output", 'o'), ("error", 'e')], false⟩
  match rules.read args with
  | .error why => .effect (v.refuse 125 why)
  | .ok c =>
    match c.operands with
    | [] => .effect (v.refuse 125 "missing operand")
    | name :: args =>
      if c.options = [] then .effect (v.refuse 125 "you must specify a buffering mode option")
      else .program
        { name, args, env
          complaint := fun name => v.who ++ ": failed to run command " ++ Quote.forShell name }

/-- What a program that can run another one does, if it is such a program. -/
def read (called name : String) (env : List (String × String)) (args : List String) : Option Wrapped :=
  let v : Voice := ⟨false, called⟩
  match name with
  | "env" => some (readEnv v env args)
  | "timeout" => some (readTimeout v env args)
  | "nice" => some (readNice v env args)
  | "nohup" => some (readNohup v env args)
  | "setsid" => some (readSetsid env args)
  | "stdbuf" => some (readStdbuf v env args)
  | _ => none

end Wrapper

end Supervisor.Host
