/-
  What the names of commands stand for.

  * a `Meaning` is what a name stands for in a shell, and `Meaning.describe` says
    so, in words or as a command.
-/
import Supervisor.Host.Shell.Builtin
import Supervisor.Host.Shell.Reader

namespace Supervisor.Host.Shell

/-- What a name stands for. -/
inductive Meaning where
  | keyword
  | aliased (text : List Char)
  | function
  | builtin (isSpecial : Bool)
  /-- a program at a path, which may have been looked for before -/
  | program (path : String) (wasFound : Bool)
  | unknown

/-- The directories in which a shell looks for programs, if nobody says
    otherwise. -/
def standardPath : String := "/usr/local/sbin:/usr/local/bin:/usr/sbin:/usr/bin:/sbin:/bin"

/-- The directories in which programs are looked for; a shell without a search
    path has none. -/
def searchPath (sh : Shell) (isStandard : Bool) : List String :=
  if isStandard then searchDirectories standardPath
  else match sh.get "PATH" with
    | some p => searchDirectories p
    | none => []

/-- What is said of a program that cannot be run. -/
def launchText (f : Fault) : String :=
  if f = .noSuchFile ∨ f = .notDirectory then "not found" else Utility.faultText f

/-- Why a program is not found. -/
def absence (sh : Shell) (name : String) : String :=
  match firstExecutable sh.here name .noSuchFile (sh.searchPath false) with
  | .error f => launchText f
  | .ok _ => ""

/-- What a name stands for. -/
def meaningOf (sh : Shell) (isStandard : Bool) (name : String) : Meaning :=
  if Token.keywords.contains name then .keyword
  else match sh.aliases.lookup name with
    | some text => .aliased text
    | none =>
      if sh.functions.any (·.1 = name) then .function
      else if isBuiltin name then .builtin (specials.contains name)
      else if name.toList.contains '/' then
        if (sh.here.find name.toList).isOk then .program name false else .unknown
      else match firstExecutable sh.here name .noSuchFile (sh.searchPath isStandard) with
        | .ok path => .program path (sh.found.contains name)
        | .error _ => .unknown

namespace Meaning

/-- Say in words what a name stands for. -/
def inWords (name : String) : Meaning → String
  | keyword => name ++ " is a shell keyword"
  | aliased text => name ++ " is an alias for " ++ String.ofList text
  | function => name ++ " is a shell function"
  | builtin true => name ++ " is a special shell builtin"
  | builtin false => name ++ " is a shell builtin"
  | program path wasFound =>
    name ++ " is " ++ (if wasFound then "a tracked alias for " else "") ++ path
  | unknown => name ++ ": not found"

/-- What a name stands for as a command, if it stands for something. -/
def asCommand? (name : String) : Meaning → Option String
  | aliased text => some ("alias " ++ name ++ "=" ++ String.ofList (quoted text))
  | program path _ => some path
  | unknown => none
  | _ => some name

end Meaning

/-- The code for a name that stands for nothing. -/
def notFoundCode : Nat := 127

/-- The shell remembers a program that it has found. -/
def remember (sh : Shell) (name : String) (m : Meaning) : Shell :=
  match m with
  | .program _ false =>
    if name.toList.contains '/' then sh else { sh with found := sh.found ++ [name] }
  | _ => sh

/-- Say what a name stands for. -/
def describe (isVerbose isStandard : Bool) (sh : Shell) (name : String) : Shell :=
  let m := sh.meaningOf isStandard name
  let text := if isVerbose then some (m.inWords name) else m.asCommand? name
  let code := match m with
    | .unknown => notFoundCode
    | _ => sh.status
  let sh := match text with
    | some t => sh.write 1 (Utility.line t)
    | none => sh
  (sh.remember name m).setStatus code

/-- Say what names stand for. -/
def describeAll : Builtin := fun sh args =>
  .ok (args.foldl (describe true false) (sh.setStatus 0))

/-- Say what a name stands for, in one way or another. -/
def describeOne : Builtin := fun sh args => do
  let (options, words) ← readFlags "pvV" args
  let verbose := (options.filter (· ≠ 'p')).getLast?
  match verbose, words with
  | some o, name :: _ => return describe (o = 'V') (options.contains 'p') (sh.setStatus 0) name
  | _, _ => return sh.setStatus 0

/-- Look for programs, to remember them, or show those that are remembered. -/
def hash : Builtin := fun sh args => do
  let (options, names) ← readFlags "r" args
  if options.contains 'r' then return { sh with found := [], status := 0 }
  else if names = [] then
    let paths := sh.found.filterMap fun n =>
      (firstExecutable sh.here n .noSuchFile (sh.searchPath false)).toOption
    return (sh.write 1 (paths.flatMap Utility.line)).setStatus 0
  else return names.foldl (fun sh name =>
    match sh.meaningOf false name with
    | .unknown => sh.complain 1 (name ++ ": " ++ sh.absence name)
    | m => sh.remember name m) (sh.setStatus 0)

end Supervisor.Host.Shell
