/-
  Which program a name stands for.

  * `locate` finds a program as launching does: a name with a slash is a path,
    another one is looked for in the directories of a search path;
  * what is found is a program of the host or a script (`Program`), which names
    the program it is for (`ScriptLine`); one that names none is refused, or
    taken for one of the shell where that is the custom.
-/
import Supervisor.Host.Files

namespace Supervisor.Host

/-- Something that can be executed. -/
inductive Program where
  /-- a program of the host -/
  | builtin (name : String)
  /-- a script at a path, with the program that it is for, as the script names
      it and what that is, and an argument for that one -/
  | script (path : String) (called : String) (interpreter : Program) (argument : Option String)

/-! ## Scripts -/

/-- Whether a byte is a space or a tab. -/
def isBlankByte (b : UInt8) : Bool := b = 32 || b = 9

/-- How much of a file is looked at for the program that it names. -/
def scriptBuffer : Nat := 256

/-- What the first line of a script names. -/
inductive ScriptLine where
  /-- the file is no script that names a program -/
  | unfit
  | names (interpreter : Bytes) (argument : Bytes)
  deriving DecidableEq

/-- Bytes without the blanks at their end. -/
def withoutFinalBlanks (bs : Bytes) : Bytes := (bs.reverse.dropWhile isBlankByte).reverse

/-- The first line of a script.  Behind its mark it has the path of a program
    and an argument, with blanks around them; a line that is too long may lose
    the end of the argument, not of the path.  Blanks at the end of the file
    belong to the argument, and a zero ends the path or the argument. -/
def ScriptLine.ofContent (content : Bytes) : ScriptLine :=
  match content with
  | 35 :: 33 :: rest =>
    let seen := rest.take (scriptBuffer - 2)
    let hasEnd := seen.contains 10
    let isShort := rest.length < scriptBuffer - 2
    let line := if hasEnd then seen.takeWhile (· ≠ 10)
      else if isShort then seen else seen.take (scriptBuffer - 3)
    let line := line.dropWhile isBlankByte
    let line := (if hasEnd || !isShort then withoutFinalBlanks line else line).takeWhile (· ≠ 0)
    let path := line.takeWhile fun b => !isBlankByte b
    let isCut := !hasEnd && !isShort && !(seen.dropWhile isBlankByte).any isBlankByte
    if isCut || (path = [] && (hasEnd || !isShort)) then .unfit
    else .names path ((line.drop path.length).dropWhile isBlankByte)
  | _ => .unfit

/-- How many scripts in a row may each name the next. -/
def scriptDepth : Nat := 5

/-- The program for scripts that name none. -/
def scriptShell : String := "sh"

/-- Where the program for scripts that name none is. -/
def scriptShellPath : String := "/bin/" ++ scriptShell

/-- The format of a file is not known. -/
def formatFault : Fault := .system 8

/-- More scripts name each other than may. -/
def depthFault : Fault := .system 40

/-- What is handed over to a program is too long. -/
def sizeFault : Fault := .system 7

/-- What a path can be executed as, where `depth` scripts may still name the
    next. -/
def executableAt (here : Trail) (depth : Nat) (path : List Char) : Except Fault Program := do
  match ← here.find path with
  | .program name => return .builtin name
  | .file content true =>
    match ScriptLine.ofContent content with
    | .unfit => .error formatFault
    | .names [] _ => .error .permissionDenied
    | .names interpreter argument =>
      let called := Octets.chars interpreter
      let inner ← match depth with
        | 0 => exhausted called
        | depth + 1 => executableAt here depth called
      let argument := if argument = [] then none else some (Octets.ofBytes argument)
      return .script (String.ofList path) (String.ofList called) inner argument
  | _ => .error .permissionDenied
where
  /-- Fail, because of the path or of the depth. -/
  exhausted (path : List Char) : Except Fault Program := do
    match ← here.find path with
    | .program _ | .file _ true => .error depthFault
    | _ => .error .permissionDenied

/-- Whether a path can be executed, and as what.  A file of unknown format is a
    script of the shell if `custom` says so; `oversized` says that too much is
    handed over to any program. -/
def executable (here : Trail) (custom oversized : Bool) (path : String) : Except Fault Program :=
  match executableAt here scriptDepth path.toList with
  | .ok p => if oversized then .error sizeFault else .ok p
  | .error f =>
    if f ≠ formatFault then .error f
    else if oversized then .error sizeFault
    else if custom then .ok (.script path scriptShellPath (.builtin scriptShell) none)
    else .error f

/-! ## Searching -/

/-- The directories of a search path; an empty one is the working directory. -/
def searchDirectories (path : String) : List String :=
  (path.toList.foldr (fun c acc =>
    if c = ':' then [] :: acc
    else match acc with
      | [] => [[c]]
      | d :: rest => (c :: d) :: rest) [[]]).map String.ofList

/-- Look for a name in directories.  A file that may not be executed is
    remembered, what is missing is passed over. -/
def search (here : Trail) (custom oversized : Bool) (name : String) :
    List String → Bool → Except Fault Program
  | [], denied => .error (if denied then .permissionDenied else .noSuchFile)
  | d :: rest, denied =>
    match executable here custom oversized ((if d = "" then "." else d) ++ "/" ++ name) with
    | .ok p => .ok p
    | .error f =>
      if f = .permissionDenied then search here custom oversized name rest true
      else if f = .noSuchFile ∨ f = .notDirectory then search here custom oversized name rest denied
      else .error f

/-- The path of the first file in some directories that may be executed, as a
    shell looks for it; `f` is why none was found so far. -/
def firstExecutable (here : Trail) (name : String) (f : Fault) : List String → Except Fault String
  | [] => .error f
  | d :: rest =>
    let path := if d = "" then name else d ++ "/" ++ name
    match here.find path.toList with
    | .ok (.program _) | .ok (.file _ true) => .ok path
    | .ok _ => firstExecutable here name .permissionDenied rest
    | .error .noSuchFile | .error .notDirectory => firstExecutable here name f rest
    | .error other => firstExecutable here name other rest

/-- The path of the first file in some directories. -/
def firstFile (here : Trail) (name : String) : List String → Option String
  | [] => none
  | d :: rest =>
    let path := if d = "" then name else d ++ "/" ++ name
    match here.find path.toList with
    | .ok (.program _) | .ok (.file ..) => some path
    | _ => firstFile here name rest

/-- The search path of an environment that has none. -/
def defaultSearchPath : String := "/bin:/usr/bin"

/-- The program that a name stands for. -/
def locate (here : Trail) (custom oversized : Bool) (searchPath : Option String) (name : String) :
    Except Fault Program :=
  if name = "" then .error .noSuchFile
  else if name.toList.contains '/' then executable here custom oversized name
  else if nameLimit < name.length then .error .nameTooLong
  else
    let directories := searchDirectories (searchPath.getD defaultSearchPath)
    search here custom oversized name directories false

end Supervisor.Host
