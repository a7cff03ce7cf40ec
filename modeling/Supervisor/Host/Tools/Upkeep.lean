/-
  Small programs that make, change and remove files.

  Most of them take their files one after the other, and go on behind one that
  fails (`Tools.overFiles`).
-/
import Supervisor.Host.Modes
import Supervisor.Host.Tools.Words

namespace Supervisor.Host.Tools

open Utility (faultText)

/-- Why something cannot be done with a file. -/
def cannot (what name : String) (f : Fault) : String :=
  what ++ " " ++ Quote.forShell name ++ ": " ++ faultText f

/-- Change files one after the other. -/
def overFiles (v : Voice) (here : Trail) (step : Trail → String → Except String Trail)
    (files : List String) : Effect :=
  files.foldl (fun e name =>
    match step (e.here.getD here) name with
    | .ok here => { e with here := some here }
    | .error why => { e with writes := e.writes ++ [(2, v.line why)], code := 1 }) {}

/-- A path without the slashes at its end. -/
def trimSlashes (path : String) : String :=
  match (path.toList.reverse.dropWhile (· = '/')).reverse with
  | [] => path
  | cs => String.ofList cs

/-- The last name of a path. -/
def lastName (path : String) : String :=
  String.ofList ((trimSlashes path).toList.reverse.takeWhile (· ≠ '/')).reverse

/-- A file of that name is there already. -/
def existsFault : Fault := .system 17

/-- A directory has entries. -/
def notEmptyFault : Fault := .system 39

/-! ## Making -/

/-- Make a file, unless there is something. -/
def makeFile (here : Trail) (name : String) : Except String Trail :=
  match here.find name.toList, here.placeOf name.toList with
  | .ok _, _ => .ok here
  | .error _, .ok names => .ok (here.put names (.file [] false))
  | .error _, .error f => .error (cannot "cannot touch" name f)

/-- Make a directory. -/
def makeDirectory (here : Trail) (name : String) : Except String Trail :=
  let path := (trimSlashes name).toList
  match here.find path, here.placeOf path with
  | .ok _, _ => .error (cannot "cannot create directory" name existsFault)
  | .error _, .ok names => .ok (here.put names (.directory []))
  | .error _, .error f => .error (cannot "cannot create directory" name f)

/-- The paths of the directories on the way to a path, and the path. -/
def pathsTo (path : String) : List String :=
  let parts := pathParts (trimSlashes path).toList
  (List.range parts.length).map fun i =>
    "/".intercalate ((parts.take (i + 1)).map String.ofList)

/-- Make a directory and those on the way to it, unless they are there. -/
def makeDirectories (here : Trail) (name : String) : Except String Trail :=
  (pathsTo name).foldlM (fun here path =>
    match here.find (if path = "" then ['/'] else path.toList) with
    | .ok e =>
      if e.isDirectory then .ok here
      else .error (cannot "cannot create directory" path
        (if path = trimSlashes name then existsFault else .notDirectory))
    | .error _ => makeDirectory here path) here

/-- Write what comes in to files, too, which with `keeps` keep what they hold. -/
def writeFiles (v : Voice) (p : Place) (keeps : Bool) (files : List String) : Effect :=
  let write (here : Trail) (name : String) : Except String Trail :=
    let complaint (f : Fault) : String := Quote.asNeeded name ++ ": " ++ faultText f
    match here.find name.toList, here.placeOf name.toList with
    | .ok (.directory _), _ => .error (complaint .isDirectory)
    | .ok (.file content x), .ok names =>
      .ok (here.put names (.file ((if keeps then content else []) ++ p.input) x))
    | .ok _, _ => .ok here
    | .error _, .ok names => .ok (here.put names (.file p.input false))
    | .error _, .error f => .error (complaint f)
  let e := overFiles v p.here write files
  -- without complaints it passes on what it reads
  { e with
    writes := e.writes ++ [(1, p.input)]
    reads := if e.writes = [] then .along else .all }

/-! ## Removing -/

/-- Remove a file, or with `inner` a directory and what is in it.  What is
    missing counts as removed if `lenient`. -/
def remove (inner lenient : Bool) (here : Trail) (name : String) : Except String Trail :=
  match here.resolve name.toList with
  | .error f => if lenient then .ok here else .error (cannot "cannot remove" name f)
  | .ok t =>
    if t.entry.any Entry.isDirectory && !inner then .error (cannot "cannot remove" name .isDirectory)
    else .ok (here.remove t.names)

/-- Remove an empty directory. -/
def removeDirectory (here : Trail) (name : String) : Except String Trail :=
  let refuse (f : Fault) : Except String Trail := .error (cannot "failed to remove" name f)
  match here.resolve name.toList with
  | .error f => refuse f
  | .ok t =>
    match t.entry with
    | some (.directory []) => .ok (here.remove t.names)
    | some (.directory _) => refuse notEmptyFault
    | _ => refuse .notDirectory

/-! ## Copying -/

/-- Copy a file, or move it, to a path or into a directory. -/
def transfer (moves recursive : Bool) (target : String) (here : Trail) (name : String) :
    Except String Trail := do
  let source ← match here.resolve name.toList with
    | .ok t => pure t
    | .error f => .error (cannot "cannot stat" name f)
  let isDirectory := source.entry.any Entry.isDirectory
  if isDirectory && !moves && !recursive then
    .error ("-r not specified; omitting directory " ++ Quote.forShell name)
  let into := match here.find target.toList with
    | .ok e => e.isDirectory
    | .error _ => false
  let path := if into then trimSlashes target ++ "/" ++ lastName name else target
  match here.placeOf path.toList, source.entry with
  | .ok names, some e =>
    if names = source.names then
      .error (Quote.forShell name ++ " and " ++ Quote.forShell path ++ " are the same file")
    else
      let there := here.put names e
      return if moves then there.remove source.names else there
  | .error f, _ =>
    let what := if moves then "cannot move " ++ Quote.forShell name ++ " to"
      else if isDirectory then "cannot create directory" else "cannot create regular file"
    .error (cannot what path f)
  | _, none => return here

/-- Copy or move files: the last word says where to. -/
def transferAll (v : Voice) (p : Place) (moves recursive : Bool) (words : List String) : Effect :=
  match words.reverse with
  | [] => v.refuse 1 "missing file operand"
  | [name] => v.refuse 1 ("missing destination file operand after " ++ Quote.forShell name)
  | target :: sources =>
    let isFolder := match p.here.find target.toList with
      | .ok e => e.isDirectory
      | .error _ => false
    if 1 < sources.length && !isFolder then
      let f := match p.here.find target.toList with
        | .ok _ => .notDirectory
        | .error f => f
      v.complain 1 ("target " ++ Quote.forShell target ++ ": " ++ faultText f)
    else overFiles v p.here (transfer moves recursive target) sources.reverse

/-! ## Modes -/

/-- The mode of a file. -/
def modeOf (executable : Bool) : Nat := if executable then 493 else 420

/-- Change the mode of a file. -/
def changeMode (mode : String) (here : Trail) (name : String) : Except String Trail :=
  match here.resolve name.toList with
  | .error f => .error (cannot "cannot access" name f)
  | .ok t =>
    match t.entry with
    | some (.file content x) =>
      let new := (Modes.change? mode (modeOf x)).getD (modeOf x)
      .ok (here.put t.names (.file content (new &&& 73 ≠ 0)))
    | _ => .ok here

/-! ## Programs -/

/-- A program that changes the files that it names. -/
def eachFile (rules : OptionRules) (lacking : String)
    (step : Chosen → Trail → String → Except String Trail) : Tool :=
  withOptions rules 1 fun v p c =>
    if c.operands = [] then v.refuse 1 lacking else overFiles v p.here (step c) c.operands

/-- Make files. -/
def touch : Tool :=
  eachFile ⟨"acfhm", "drt", [("no-create", 'c')], true⟩ "missing file operand" fun c here name =>
    if c.has 'c' then .ok here else makeFile here name

/-- Make directories. -/
def mkdir : Tool :=
  eachFile ⟨"pvZ", "m", [("parents", 'p'), ("verbose", 'v'), ("mode", 'm')], true⟩ "missing operand"
    fun c here name => if c.has 'p' then makeDirectories here name else makeDirectory here name

/-- Remove empty directories. -/
def rmdir : Tool :=
  eachFile ⟨"pv", "", [("parents", 'p'), ("verbose", 'v')], true⟩ "missing operand"
    fun _ here name => removeDirectory here name

/-- Remove files. -/
def rm : Tool :=
  withOptions ⟨"dfirRvI", "", [("force", 'f'), ("recursive", 'r'), ("verbose", 'v')], true⟩ 1 fun v p c =>
    let lenient := c.has 'f'
    if c.operands = [] then if lenient then {} else missing v 1
    else overFiles v p.here (remove (c.has 'r' || c.has 'R') lenient) c.operands

/-- Write what comes in to files, too. -/
def tee : Tool := withOptions ⟨"aip", "", [("append", 'a'), ("ignore-interrupts", 'i')], true⟩ 1 fun v p c =>
  writeFiles v p (c.has 'a') c.operands

/-- Copy files. -/
def cp : Tool :=
  withOptions ⟨"abdfHiLlnPpRrsTuvxZ", "tS", [("recursive", 'r'), ("archive", 'a'), ("force", 'f'),
    ("verbose", 'v')], true⟩ 1 fun v p c =>
    transferAll v p false (['r', 'R', 'a'].any c.has) c.operands

/-- Move files. -/
def mv : Tool :=
  withOptions ⟨"bfinTuvZ", "tS", [("force", 'f'), ("verbose", 'v')], true⟩ 1 fun v p c =>
    transferAll v p true true c.operands

/-- Remove one file. -/
def unlink : Tool := withOptions {} 1 fun v p c =>
  match c.operands with
  | [] => missing v 1
  | [name] =>
    match p.here.resolve name.toList with
    | .error f => v.complain 1 (cannot "cannot unlink" name f)
    | .ok t =>
      if t.entry.any Entry.isDirectory then v.complain 1 (cannot "cannot unlink" name .isDirectory)
      else { here := some (p.here.remove t.names) }
  | _ :: w :: _ => extra v 1 w

/-- Change modes of files. -/
def chmod : Tool := fun v p args =>
  let isOption (a : String) : Bool :=
    beginsWith '-' a && (a.toList.drop 1).all fun c => ['c', 'f', 'v', 'R', '-'].contains c
  match args.filter (!isOption ·) with
  | [] => missing v 1
  | [mode] => v.refuse 1 ("missing operand after " ++ Quote.escaped mode)
  | mode :: files =>
    if (Modes.change? mode 0).isNone then v.refuse 1 ("invalid mode: " ++ Quote.escaped mode)
    else overFiles v p.here (changeMode mode) files

end Supervisor.Host.Tools
