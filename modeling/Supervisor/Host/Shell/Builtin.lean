/-
  The built-in commands of a shell that need no script to be run.

  * a `Builtin` changes a shell, or says why it cannot; `Shell.builtins` are all
    of them by name;
  * `specials` are the ones whose failures the shell does not survive.
-/
import Supervisor.Host.Locate
import Supervisor.Host.Shell
import Supervisor.Host.Shell.Field
import Supervisor.Host.Shell.Option
import Supervisor.Host.Tools

namespace Supervisor.Host.Shell

/-- A built-in command: the shell behind it, or why it fails. -/
abbrev Builtin := Shell → List String → Except String Shell

/-- Write a text, which ends well. -/
def say (sh : Shell) (text : String) : Shell := (sh.write 1 (Octets.bytes text)).setStatus 0

/-- Carry out a small program that is built in. -/
def carryOut (sh : Shell) (name : String) (e : Effect) : Shell :=
  let (out, err) := e.writes.partition (·.1 = 1)
  let sh := err.foldl (fun sh (fd, bs) => sh.write fd bs) sh
  if e.out ≠ [] && (sh.writeFault 1).isSome then sh.complain 1 (name ++ ": I/O error")
  else (out.foldl (fun sh (fd, bs) => sh.write fd bs) sh).setStatus e.code

/-- A whole number without a sign. -/
def numberArg (a : String) : Except String Nat :=
  match (decimal? a.toList).filter (· ≤ 2147483647) with
  | some n => .ok n
  | none => .error ("Illegal number: " ++ a)

/-- The code that a command names, or the last one. -/
def codeArg (sh : Shell) (args : List String) : Except String Nat :=
  match args with
  | [] => .ok sh.status
  | a :: _ => numberArg a

/-! ## Leaving -/

/-- Exit.  Where something is done on a signal, the status in front of it
    counts. -/
def exitWith : Builtin := fun sh args => do
  let n ← match args with
    | [] => pure (sh.trapStatus.getD sh.status)
    | a :: _ => numberArg a
  return (sh.setStatus n).exit n

/-- Return from a script that was called by its name. -/
def returnWith : Builtin := fun sh args => do
  return { sh with jump := some .back, status := ← sh.codeArg args }

/-- Leave loops, as many as are named and there are. -/
def jumpTo (jump : Nat → Jump) : Builtin := fun sh args => do
  let wanted ← match args with
    | [] => pure 1
    | a :: _ => numberArg a
  if wanted = 0 then .error ("Illegal number: " ++ args.head?.getD "")
  if sh.loops = 0 then return sh.setStatus 0
  else return { sh with jump := some (jump (min wanted sh.loops)), status := 0 }

/-! ## Variables -/

/-- A text between single quotes, with those that it holds between double ones. -/
def quoted (cs : List Char) : List Char := go (cs.length + 1) cs
where
  /-- The parts of the text; the number bounds how many. -/
  go : Nat → List Char → List Char
    | 0, _ => []
    | fuel + 1, cs =>
      let first := cs.takeWhile (· ≠ '\'')
      let rest := cs.drop first.length
      let quotes := rest.takeWhile (· = '\'')
      let more := rest.drop quotes.length
      '\'' :: first ++ '\'' ::
        (if quotes = [] then []
        else '"' :: quotes ++ '"' :: (if more = [] then [] else go fuel more))

/-- Variables as commands that set them. -/
def variableLines (sh : Shell) (front : String) (p : Variable → Bool) : Bytes :=
  let shown := (sh.bindings.filter fun (_, v) => p v).mergeSort fun a b => a.1 ≤ b.1
  shown.flatMap fun (name, v) =>
    let value := match v.value with
      | some s => "=" ++ String.ofList (quoted s.toList)
      | none => ""
    Utility.line (front ++ name ++ value)

/-- The name and value that a word with an equals sign sets. -/
def splitSetting (a : String) : String × Option String :=
  let name := a.toList.takeWhile (· ≠ '=')
  (String.ofList name, if name.length = a.length then none
    else some (String.ofList (a.toList.drop (name.length + 1))))

/-- Mark variables, and set those that are given a value. -/
def declare (word : String) (mark : Variable → Variable) (isMarked : Variable → Bool) : Builtin :=
  fun sh args => do
    let (options, names) ← readFlags "p" args
    if names = [] || !options.isEmpty then
      return (sh.write 1 (sh.variableLines (word ++ " ") isMarked)).setStatus 0
    else names.foldlM (fun sh a => do
      let (name, value) := splitSetting a
      let sh ← match value with
        | some v => sh.assign name v
        | none => if isName name then pure sh else .error (name ++ ": bad variable name")
      return sh.setVariable name (some (mark ((sh.bindings.lookup name).getD {})))) (sh.setStatus 0)

/-- Export variables. -/
def exportAll : Builtin :=
  declare "export" (fun v => { v with isExported := true }) Variable.isExported

/-- Fix variables. -/
def fixAll : Builtin :=
  declare "readonly" (fun v => { v with isFixed := true }) Variable.isFixed

/-- Hide a variable until the script that was called by its name is over. -/
def hide (sh : Shell) (name : String) : Shell :=
  match sh.hidden with
  | [] => sh
  | frame :: rest =>
    if frame.any (·.1 = name) then sh
    else { sh with hidden := ((name, sh.bindings.lookup name) :: frame) :: rest }

/-- Give variables back what they were. -/
def reveal (sh : Shell) (frame : List (String × Option Variable)) : Shell :=
  frame.foldl (fun sh (name, v) =>
    if name = "-" then { sh with options := ((v.bind Variable.value).getD "").toList }
    else sh.setVariable name v) sh

/-- Set variables of a script that was called by its name. -/
def localAll : Builtin := fun sh args =>
  if sh.hidden.isEmpty then .error "not in a function"
  else args.foldlM (fun sh a => do
    let (name, value) := splitSetting a
    if name = "-" then
      -- the options are given back, too
      let saved : Variable := { value := some (String.ofList sh.options) }
      match sh.hidden with
      | frame :: rest => return { sh with hidden := (("-", some saved) :: frame) :: rest }
      | [] => return sh
    let sh := if isName name then sh.hide name else sh
    match value with
    | some v => sh.assign name v
    | none => if isName name then .ok sh else .error (name ++ ": bad variable name")) (sh.setStatus 0)

/-- Remove variables, or scripts with a name. -/
def unsetAll : Builtin := fun sh args => do
  let (options, names) ← readFlags "vf" args
  if options.getLast? = some 'f' then
    return { sh with functions := sh.functions.filter fun (n, _) => !names.contains n, status := 0 }
  else names.foldlM unassign (sh.setStatus 0)

/-- Drop arguments. -/
def shiftArgs : Builtin := fun sh args => do
  let n ← match args with
    | [] => pure 1
    | a :: _ => numberArg a
  if sh.args.length < n then .error "can't shift that many"
  else return { sh with args := sh.args.drop n, status := 0, optionIndex := 1, optionOffset := none }

/-- The options of a shell, each with whether it is on. -/
def optionLines (sh : Shell) (asCommands : Bool) : Bytes :=
  let names := optionNames.map (fun (c, n) => (n, sh.isOn c)) ++ [("nolog", false), ("debug", false)]
  if asCommands then
    names.flatMap fun (n, on) => Utility.line ("set " ++ (if on then "-" else "+") ++ "o " ++ n)
  else
    Utility.line "Current option settings" ++ names.flatMap fun (n, on) =>
      let gap := String.ofList (List.replicate (16 - n.length) ' ')
      Utility.line (n ++ gap ++ (if on then "on" else "off"))

/-- Set options and arguments. -/
def configure : Builtin := fun sh args => do
  if args = [] then return (sh.write 1 (sh.variableLines "" fun v => v.value.isSome)).setStatus 0
  if args = ["-o"] || args = ["+o"] then
    return (sh.write 1 (sh.optionLines (args = ["+o"]))).setStatus 0
  let words ← readOptions false [] args
  let sh := { sh with options := changeOptions sh.options words.changes, status := 0 }
  if words.rest = [] && !words.isClosed then return sh
  else return { sh with args := words.rest, optionIndex := 1, optionOffset := none }

/-! ## Reading -/

/-- The characters of a line, and whether its end was found.  A backslash guards
    the next character, and joins lines, unless all is taken as it is. -/
def lineGlyphs (raw : Bool) : Nat → Bytes → List Segment × Nat × Bool
  | 0, _ => ([], 0, false)
  | _, [] => ([], 0, false)
  | fuel + 1, b :: rest =>
    let next (s : List Segment) (used : Nat) (rest : Bytes) : List Segment × Nat × Bool :=
      let (more, n, found) := lineGlyphs raw fuel rest
      (s ++ more, n + used, found)
    if b = 10 then ([], 1, true)
    else if b = 0 then next [] 1 rest
    else if b = 92 && !raw then
      match rest with
      | [] => ([], 1, false)
      | 10 :: rest => next [] 2 rest
      | c :: rest => next [.fixed [.guarded (Octets.char c)]] 2 rest
    else
      match lineGlyphs raw fuel rest with
      | (.loose gs :: more, n, found) => (.loose (.active (Octets.char b) :: gs) :: more, n + 1, found)
      | (more, n, found) => (.loose [.active (Octets.char b)] :: more, n + 1, found)

/-- Give variables the fields of a line. -/
def spread (sh : Shell) : List String → List String → Except String Shell
  | [], _ => .ok sh
  | name :: names, fields => do
    spread (← sh.assign name (fields.head?.getD "")) names (fields.drop 1)

/-- Read a line into variables. -/
def readLine : Builtin := fun sh args => do
  let (options, names) ← readValued "r" "p" args
  if names = [] then .error "arg count"
  match sh.supplyAt 0 with
  | .error _ => do return (← sh.spread names []).setStatus 1
  | .ok s =>
    let bs := s.bytes
    let (segments, used, found) := lineGlyphs (options.any (·.1 = 'r')) (bs.length + 1) bs
    let time := if found then Supply.timeOf used s.chunks else s.ending
    let sh := sh.pass time
    if sh.halt.isSome then return sh
    let sh := sh.setSupply 0 { s with chunks := Supply.dropFrom used s.chunks }
    let fields := (fieldsUpTo names.length sh.separators segments).map fun gs => String.ofList (plain gs)
    return (← sh.spread names fields).setStatus (if found then 0 else 1)

/-- What came of looking for the next option. -/
structure OptionStep where
  /-- the letter, or a sign for what is wrong -/
  letter : Char := '?'
  argument : Option String := none
  complaint : Option String := none
  isOver : Bool := false
  index : Nat
  offset : Option Nat := none

/-- The next option among some words. -/
def nextOption (rules : List Char) (words : List String) (index : Nat) (offset : Option Nat) :
    OptionStep :=
  let quiet := rules.head? = some ':'
  let current := words[index - 2]?
  let left := match offset with
    | some n => if index ≤ 1 then [] else ((current.getD "").toList).drop n
    | none => []
  -- the word, the letters in it, and the next word
  let start : Option (List Char × Nat) :=
    if left ≠ [] then some (left, index)
    else match (words[index - 1]?).map String.toList with
      | some ('-' :: c :: cs) => if c = '-' && cs = [] then none else some (c :: cs, index + 1)
      | _ => none
  match start with
  | none =>
    let isClosed := left = [] && words[index - 1]? = some "--"
    { isOver := true, index := if isClosed then index + 1 else index }
  | some ([], index) => { isOver := true, index }
  | some (c :: rest, index) =>
    let size := ((words[index - 2]?).getD "").length
    let offset := some (size - rest.length)
    let text := String.ofList [c]
    match rules.findIdx? (· = c) with
    | none =>
      if quiet then { argument := some text, index, offset }
      else { complaint := some ("Illegal option -" ++ text), index, offset }
    | some i =>
      if rules[i + 1]? ≠ some ':' then { letter := c, argument := some "", index, offset }
      else if rest ≠ [] then { letter := c, argument := some (String.ofList rest), index }
      else match words[index - 1]? with
        | some w => { letter := c, argument := some w, index := index + 1 }
        | none =>
          if quiet then { letter := ':', argument := some text, index, offset }
          else { complaint := some ("No arg for -" ++ text ++ " option"), index, offset }

/-- Look for the next option among the arguments. -/
def getOptions : Builtin := fun sh args =>
  match args with
  | rules :: name :: words => do
    let words := if words = [] then sh.args else words
    let step := nextOption rules.toList words (max 1 sh.optionIndex) sh.optionOffset
    let sh := match step.complaint with
      | some text => sh.write 2 (Utility.line text)
      | none => sh
    let sh ← match step.argument, step.isOver with
      | some a, _ => sh.assign "OPTARG" a
      | none, true => pure sh
      | none, false => sh.unassign "OPTARG"
    let sh ← sh.assign "OPTIND" (toString step.index)
    let sh ← sh.assign name (String.ofList [step.letter])
    return { sh with
      optionIndex := step.index
      optionOffset := step.offset
      status := if step.isOver then 1 else 0 }
  | _ => .error "Usage: getopts optstring var [arg...]"

/-! ## The working directory -/

/-- Go to a directory, if it is one. -/
def enter? (sh : Shell) (path : String) : Option Shell :=
  match sh.here.resolve path.toList with
  | .error _ => none
  | .ok t =>
    if !t.entry.any Entry.isDirectory then none
    else
      let old := (sh.get "PWD").getD sh.here.path
      let exported (sh : Shell) (name value : String) : Shell :=
        let v := (sh.bindings.lookup name).getD {}
        sh.setVariable name (some { v with value := some value, isExported := true })
      some { exported (exported { sh with here := t } "OLDPWD" old) "PWD" t.path with status := 0 }

/-- Whether a path is not looked for in other directories. -/
def isFixedPath (path : String) : Bool :=
  match pathParts path.toList with
  | first :: _ => first = [] || first = ['.'] || first = ['.', '.']
  | [] => true

/-- Change the working directory. -/
def changeDirectory : Builtin := fun sh args => do
  let (_, words) ← readFlags "LP" args
  let wanted := match words with
    | [] => (sh.get "HOME").getD ""
    | "-" :: _ => (sh.get "OLDPWD").getD ""
    | w :: _ => w
  let isBack := words.head? = some "-"
  let folders := match sh.get "CDPATH" with
    | some p => if isFixedPath wanted then [] else searchDirectories p
    | none => []
  let named := folders.findSome? fun d =>
    let path := if d = "" then wanted else d ++ "/" ++ wanted
    (sh.enter? path).map fun sh => (sh, decide (d ≠ ""))
  match named.or ((sh.enter? (if wanted = "" then "." else wanted)).map fun sh => (sh, false)) with
  | none => .error ("can't cd to " ++ wanted)
  | some (sh, isNamed) => return if isNamed || isBack then sh.say (sh.here.path ++ "\n") else sh

/-- The working directory. -/
def workingDirectory : Builtin := fun sh args => do
  let _ ← readFlags "LP" args
  return sh.carryOut "pwd" (Effect.print (Utility.line sh.here.path))

/-! ## Signals and jobs -/

/-- What is done on signals, as commands that set it. -/
def trapLines (sh : Shell) : Bytes :=
  (sh.traps.mergeSort fun a b => a.1 ≤ b.1).flatMap fun (n, action) =>
    Utility.line ("trap -- " ++ String.ofList (quoted action) ++ " " ++ Signal.name n)

/-- Set or remove what is done on signals, up to one that is not known. -/
def setTraps (action : Option (List Char)) : Shell → List String → Shell
  | sh, [] => sh.setStatus 0
  | sh, name :: rest =>
    match Signal.number? 0 name with
    | none => (sh.write 2 (Utility.line ("trap: " ++ name ++ ": bad trap"))).setStatus 1
    | some n =>
      let others := sh.traps.filter (·.1 ≠ n)
      setTraps action { sh with traps := (action.map fun a => (n, a)).toList ++ others } rest

/-- Set, remove or show what is done on signals. -/
def trap : Builtin := fun sh args => do
  let (_, words) ← readFlags "" args
  match words with
  | [] => return (sh.write 1 sh.trapLines).setStatus 0
  | [name] => return setTraps none sh [name]
  | action :: names =>
    if (decimal? action.toList).any (· ≤ Signal.highest) then return setTraps none sh words
    else return setTraps (if action = "-" then none else some action.toList) sh names

/-- The job that a word names: by its pid, or by its number behind a percent
    sign. -/
def jobOf (sh : Shell) (a : String) : Except String (Option Job) :=
  match a.toList with
  | '%' :: ds =>
    let job := match decimal? ds with
      | some n => if n = 0 then none else sh.jobs[n - 1]?
      | none => if ds = [] || ds = ['%'] || ds = ['+'] then sh.jobs.getLast? else none
    match job with
    | some j => .ok (some j)
    | none => .error ("No such job: " ++ a)
  | _ => do
    let pid ← numberArg a
    return sh.jobs.find? (·.pid = pid)

/-- Wait for jobs.  Of one that is waited for by its number, the shell says what
    has ended it.  A signal that the shell handles ends the wait. -/
def waitFor : Builtin := fun sh args => do
  let (_, words) ← readFlags "" args
  let wanted ← if words = [] then pure (sh.jobs.map some) else words.mapM sh.jobOf
  let found := wanted.filterMap id
  let limit := found.foldl (fun t j => Source.later t j.ends) (some sh.now)
  let handled (n : Nat) : Bool := (sh.traps.lookup n).any (· ≠ [])
  match sh.signalUntil limit handled with
  | some r => return (sh.pass (some r.time)).setStatus (128 + r.signal)
  | none =>
    let fresh := if words = [] then [] else found.filter fun j => j.ends.any (sh.now ≤ ·)
    let code := if words = [] then 0
      else ((wanted.getLast?.getD none).map fun j => codeOf j.status).getD 127
    let sh := sh.pass limit
    return (fresh.foldl (fun (sh : Shell) j => sh.announce j.status) sh).setStatus code

/-- The state of a job in words. -/
def jobState (sh : Shell) (j : Job) : String :=
  if j.ends.all (sh.now < ·) then "Running"
  else match j.status with
    | .exited 0 | .neither => "Done"
    | .exited n => "Done(" ++ toString n ++ ")"
    | .signaled n => Signal.description n

/-- How wide the state of a job is. -/
def jobWidth : Nat := 27

/-- Show jobs; those that have ended are forgotten. -/
def showJobs : Builtin := fun sh args => do
  let (options, _) ← readFlags "lp" args
  let numbered := sh.jobs.zipIdx.reverse
  if options.contains 'p' then
    return (sh.write 1 (numbered.flatMap fun (j, _) => Utility.line (toString j.pid))).setStatus 0
  let isRunning (j : Job) : Bool := sh.jobState j = "Running"
  -- the mark of a job is its place among those that are left
  let lines := (numbered.foldl (fun (acc : Bytes × Nat) (j, i) =>
    let mark := match acc.2 with | 0 => "+" | 1 => "-" | _ => " "
    let state := sh.jobState j
    let gap := String.ofList (List.replicate (jobWidth - state.length) ' ')
    (acc.1 ++ Utility.line ("[" ++ toString (i + 1) ++ "] " ++ mark ++ " " ++ state ++ gap),
      if isRunning j then acc.2 + 1 else acc.2)) ([], 0)).1
  return { sh.write 1 lines with jobs := sh.jobs.filter isRunning, status := 0 }

/-- How signals are sent. -/
def killUsage : String :=
  "Usage: kill [-s sigspec | -signum | -sigspec] [pid | job]... or\nkill -l [exitstatus]"

/-- Send a signal to one process. -/
def sendSignal (n : Nat) (sh : Shell) (target : String) : Except String Shell := do
  let pid ← if beginsWith '%' target then
      pure (((← sh.jobOf target).map Job.pid).getD 0)
    else match target.toList with
      | '-' :: ds => do
        let _ ← (numberArg (String.ofList ds)).mapError fun _ => "Illegal number: " ++ target
        pure 0
      | _ => numberArg target
  let request : Request := ⟨sh.now, pid, n⟩
  if pid = sh.pid then
    match sh.haltOf n with
    | some h => return sh.stop h
    | none => return if n = 0 then sh else { sh with requests := request :: sh.requests }
  else if sh.shellPid ≤ pid && pid < sh.nextPid then
    return if n = 0 then sh else { sh with sent := request :: sh.sent }
  else return sh.complain 1 "No such process\n"

/-- Send a signal to processes. -/
def sendAll (n : Nat) (targets : List String) (sh : Shell) : Except String Shell :=
  match if targets.head? = some "--" then targets.drop 1 else targets with
  | [] => .error killUsage
  | targets => targets.foldlM (fun sh t => if sh.isDone then .ok sh else sendSignal n sh t) (sh.setStatus 0)

/-- Name a signal, or all of them. -/
def listSignals (sh : Shell) (args : List String) : Except String Shell :=
  match args with
  | [] =>
    let names := "0" :: (List.range Signal.highest).map fun n => Signal.name (n + 1)
    .ok (sh.carryOut "kill" (Effect.print (names.flatMap Utility.line)))
  | a :: _ => do
    let n ← numberArg a
    let n := if 128 < n then n - 128 else n
    if 0 < n && n ≤ Signal.highest then
      return sh.carryOut "kill" (Effect.print (Utility.line (Signal.name n)))
    else .error ("invalid signal number or exit status: " ++ a)

/-- Send a signal to processes, or name one. -/
def kill : Builtin := fun sh args =>
  let named (name : String) (rest : List String) : Except String Shell :=
    match Signal.number? 1 name with
    | some n => sendAll n rest sh
    | none => .error ("invalid signal number or name: " ++ name)
  match args with
  | [] => .error killUsage
  | "-l" :: rest => listSignals sh rest
  | "--" :: rest => sendAll 15 rest sh
  | "-s" :: name :: rest => named name rest
  | "-s" :: [] => .error "No arg for -s option"
  | a :: rest =>
    match a.toList with
    | '-' :: c :: cs =>
      match Signal.number? 1 (String.ofList (c :: cs)) with
      | some n => sendAll n rest sh
      | none =>
        if c = 's' then named (String.ofList cs) rest
        else .error ("Illegal option -" ++ String.ofList [c])
    | _ => sendAll 15 (a :: rest) sh

/-! ## Aliases -/

/-- Set or show aliases. -/
def alias_ : Builtin := fun sh args =>
  let shown (name : String) (cs : List Char) : String := name ++ "=" ++ String.ofList (quoted cs) ++ "\n"
  if args = [] then
    let all := sh.aliases.mergeSort fun a b => a.1 ≤ b.1
    .ok (sh.say (String.join (all.map fun (n, cs) => shown n cs)))
  else .ok (args.foldl (fun sh a =>
    match splitSetting a with
    | (name, some text) =>
      { sh with aliases := sh.aliases.filter (·.1 ≠ name) ++ [(name, text.toList)] }
    | (name, none) =>
      match sh.aliases.lookup name with
      | some cs => { sh.say (shown name cs) with status := sh.status }
      | none => (sh.write 2 (Utility.line ("alias: " ++ name ++ " not found"))).setStatus 1)
    (sh.setStatus 0))

/-- Remove aliases. -/
def unalias : Builtin := fun sh args => do
  let (options, names) ← readFlags "a" args
  if options.contains 'a' then return { sh with aliases := [], status := 0 }
  else return names.foldl (fun sh name =>
    if sh.aliases.any (·.1 = name) then { sh with aliases := sh.aliases.filter (·.1 ≠ name) }
    else (sh.write 2 (Utility.line ("unalias: " ++ name ++ " not found"))).setStatus 1) (sh.setStatus 0)

/-! ## Modes and limits -/

/-- A number in octal digits, four at least. -/
def octal (n : Nat) : String :=
  let ds := Nat.toDigits 8 n
  String.ofList (List.replicate (4 - ds.length) '0' ++ ds)

/-- The permissions that a mask leaves, in letters. -/
def maskLetters (mask : Nat) : String :=
  let part (who : String) (shift : Nat) : String :=
    let left := 7 - mask / Nat.pow 8 shift % 8
    who ++ "=" ++ (if 4 ≤ left then "r" else "") ++ (if left / 2 % 2 = 1 then "w" else "") ++
      (if left % 2 = 1 then "x" else "")
  ",".intercalate [part "u" 2, part "g" 1, part "o" 0]

/-- Show or set which permissions new files do not get. -/
def setMask : Builtin := fun sh args => do
  let (options, words) ← readFlags "S" args
  match words with
  | [] => return sh.say ((if options.contains 'S' then maskLetters sh.mask else octal sh.mask) ++ "\n")
  | w :: _ =>
    if w.toList.all isOctal && w ≠ "" then
      let n := digitsValue 8 w.toList
      if 511 < n then .error ("Illegal number: " ++ w) else return { sh with mask := n, status := 0 }
    else if w.toList.head?.any Char.isDigit then .error ("Illegal number: " ++ w)
    else match Modes.change? w (511 - sh.mask) with
      | some n => return { sh with mask := 511 - n, status := 0 }
      | none => .error ("Illegal mode: " ++ w)

/-- The limits of a process that are not endless. -/
def limits : List (Char × String) := [('c', "0"), ('s', "8192"), ('n', "1024")]

/-- Show or set limits of the process, which have no effect here. -/
def setLimits : Builtin := fun sh args => do
  let (options, words) ← readFlags "HSatfdscmlpnvwr" args
  match words with
  | [] =>
    let letter := (options.filter fun c => c ≠ 'H' && c ≠ 'S').getLast?.getD 'f'
    return sh.say ((limits.lookup letter).getD "unlimited" ++ "\n")
  | [w] =>
    if w = "unlimited" || (decimal? w.toList).isSome then return sh.setStatus 0 else .error "bad number"
  | _ => .error "too many arguments"

/-- How long the process and those that it started have run. -/
def times : Builtin := fun sh _ =>
  .ok (sh.say "0m0.000000s 0m0.000000s\n0m0.000000s 0m0.000000s\n")

/-! ## Commands by name -/

/-- The small programs that a shell has built in. -/
def builtinTools : List (String × Tool) :=
  [("echo", Tools.echo), ("printf", Tools.printf), ("test", Condition.test), ("[", Condition.bracket)]

/-- A small program as a built-in command. -/
def ofTool (name : String) (tool : Tool) : Builtin := fun sh args =>
  .ok (sh.carryOut name (tool ⟨true, sh.who⟩ sh.place args))

/-- The built-in commands that need no script to be run. -/
def builtins : List (String × Builtin) :=
  [(":", fun sh _ => .ok (sh.setStatus 0)), ("true", fun sh _ => .ok (sh.setStatus 0)),
    ("false", fun sh _ => .ok (sh.setStatus 1)), ("exit", exitWith), ("return", returnWith),
    ("break", jumpTo .leave), ("continue", jumpTo .next), ("export", exportAll), ("readonly", fixAll),
    ("local", localAll), ("unset", unsetAll), ("shift", shiftArgs), ("set", configure),
    ("read", readLine), ("getopts", getOptions), ("cd", changeDirectory), ("chdir", changeDirectory),
    ("pwd", workingDirectory), ("trap", trap), ("wait", waitFor), ("jobs", showJobs), ("kill", kill),
    ("alias", alias_), ("unalias", unalias), ("umask", setMask), ("ulimit", setLimits),
    ("times", times), ("bg", fun _ _ => .error "No current job"), ("fg", fun _ _ => .error "No current job")] ++
    builtinTools.map fun (name, tool) => (name, ofTool name tool)

/-- The built-in commands that need scripts or programs to be run. -/
def scriptCommands : List String := [".", "eval", "exec", "command", "type", "hash"]

/-- The commands whose failures the shell does not survive. -/
def specials : List String :=
  [":", ".", "break", "continue", "eval", "exec", "exit", "export", "local", "readonly", "return",
    "set", "shift", "times", "trap", "unset"]

/-- Whether a command is built in. -/
def isBuiltin (name : String) : Bool := scriptCommands.contains name || (builtins.lookup name).isSome

/-- The commands that set variables by their arguments. -/
def declarators : List String := ["export", "readonly", "local"]

end Supervisor.Host.Shell
