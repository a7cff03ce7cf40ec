/-
  The files of a host.

  * `Entry` is a file, a directory, a program of the host or a device;
  * a `Trail` is an entry with the directories above it, which is what a
    working directory is;
  * `Trail.resolve` follows a path from a working directory, or says why it
    leads nowhere, and `Trail.contentAt` is the content of the file there;
  * `Trail.put` and `Trail.remove` change what is at some place, which is given
    by the names that lead to it from the top;
  * `Host.trailOf` is a working directory with some files, on a host that has
    its programs under `/bin` and `/usr/bin`.
-/
import Supervisor.Fault
import Supervisor.Host.Octets

namespace Supervisor.Host

/-! ## Entries -/

/-- What a name can stand for. -/
inductive Entry where
  | directory (entries : List (String × Entry))
  | file (content : Bytes) (executable : Bool)
  /-- a program that comes with the host -/
  | program (name : String)
  /-- empty to read, and swallows what is written -/
  | null
  /-- zeros without end, and swallows what is written -/
  | zeros
  /-- zeros without end, and has no space for what is written -/
  | full
  /-- what a descriptor of the one who opens it leads to -/
  | descriptor (fd : Nat)
  /-- a terminal, which is not there -/
  | terminal

namespace Entry

/-- Whether it is a directory. -/
def isDirectory : Entry → Bool
  | directory _ => true
  | _ => false

/-- How much of an entry without end is read. -/
def zeroCount : Nat := 1048576

/-- The content of an entry. -/
def content : Entry → Except Fault Bytes
  | directory _ => .error .isDirectory
  | file bs _ => .ok bs
  | program _ => .ok [0x7F, 0x45, 0x4C, 0x46, 0xFF]
  | null | descriptor _ => .ok []
  | zeros | full => .ok (List.replicate zeroCount 0)
  | terminal => .error .noDevice

/-- The names in a directory. -/
def names : Entry → List String
  | directory entries => entries.map (·.1)
  | _ => []

/-- A directory with one more entry, below directories that are made as
    needed. -/
def insert : List String → Entry → Entry → Entry
  | [], new, _ => new
  | name :: rest, new, directory entries =>
    let inner := insert rest new ((entries.lookup name).getD (directory []))
    directory ((name, inner) :: entries.filter (·.1 ≠ name))
  | _, _, old => old

/-- A directory without the entry at some names. -/
def remove : List String → Entry → Entry
  | [name], directory entries => directory (entries.filter (·.1 ≠ name))
  | name :: rest, directory entries =>
    directory (entries.map fun (n, e) => if n = name then (n, remove rest e) else (n, e))
  | _, old => old

end Entry

/-! ## Paths -/

/-- An entry with its name, and the directories above it. -/
abbrev Trail := List (String × Entry)

/-- The parts of a path between slashes. -/
def pathParts (path : List Char) : List (List Char) :=
  path.foldr (fun c acc =>
    if c = '/' then [] :: acc
    else match acc with
      | [] => [[c]]
      | p :: rest => (c :: p) :: rest) [[]]

/-- Whether a text begins with a character. -/
def beginsWith (c : Char) (s : String) : Bool := s.toList.head? = some c

/-- The longest name of an entry, in bytes. -/
def nameLimit : Nat := 255

/-- The longest path, in bytes. -/
def pathLimit : Nat := 4095

namespace Trail

/-- The entry that a trail leads to. -/
def entry : Trail → Option Entry
  | [] => none
  | (_, e) :: _ => some e

/-- The trail of the top directory. -/
def top (t : Trail) : Trail := t.getLast?.toList

/-- The names that lead to the entry from the top. -/
def names (t : Trail) : List String := (t.reverse.drop 1).map Prod.fst

/-- The names from the top, with a slash before each. -/
def path (t : Trail) : String :=
  match t.names with
  | [] => "/"
  | names => "".intercalate (names.map ("/" ++ ·))

/-- Follow the parts of a path. -/
def walk : Trail → List (List Char) → Except Fault Trail
  | t, [] => .ok t
  | t, part :: rest =>
    match t with
    | (name, .directory entries) :: above =>
      if part = [] ∨ part = ['.'] then walk t rest
      else if part = ['.', '.'] then walk (if above.isEmpty then t else above) rest
      else if nameLimit < part.length then .error .nameTooLong
      else match entries.lookup (String.ofList part) with
        | some next =>
          walk ((String.ofList part, next) :: (name, .directory entries) :: above) rest
        | none => .error .noSuchFile
    | _ => .error .notDirectory

/-- The trail of a path, which starts at the top or in the working directory. -/
def resolve (here : Trail) (path : List Char) : Except Fault Trail :=
  if path = [] then .error .noSuchFile
  else if pathLimit < path.length then .error .nameTooLong
  else match path with
    | '/' :: rest => here.top.walk (pathParts rest)
    | path => here.walk (pathParts path)

/-- The entry at a path. -/
def find (here : Trail) (path : List Char) : Except Fault Entry := do
  match (← here.resolve path).entry with
  | some e => return e
  | none => .error .noSuchFile

/-- The content of the file at a path. -/
def contentAt (here : Trail) (path : String) : Except Fault Bytes :=
  if path.toList.contains (Char.ofNat 0) then .error .nulInFileName
  else (here.find path.toList).bind Entry.content

/-! ## Changes -/

/-- A working directory, found again below a top that may have changed. -/
def under (here : Trail) (top : Trail) : Trail :=
  match top.walk (here.names.map String.toList) with
  | .ok t => t
  | .error _ => here

/-- A working directory after a change of the top directory. -/
def change (here : Trail) (f : Entry → Entry) : Trail :=
  here.under (here.top.map fun (name, e) => (name, f e))

/-- Put an entry at a place. -/
def put (here : Trail) (names : List String) (e : Entry) : Trail := here.change (Entry.insert names e)

/-- Remove the entry at a place. -/
def remove (here : Trail) (names : List String) : Trail := here.change (Entry.remove names)

/-- The entry at a place. -/
def at? (here : Trail) (names : List String) : Option Entry :=
  (here.top.walk (names.map String.toList)).toOption.bind entry

/-- The size of the file at a place. -/
def sizeAt (here : Trail) (names : List String) : Nat :=
  match here.at? names with
  | some (.file content _) => content.length
  | _ => 0

/-- Write to the file at a place from an offset on, with zeros up to there if it
    is shorter. -/
def writeAt (here : Trail) (names : List String) (offset : Nat) (data : Bytes) : Trail :=
  match here.at? names with
  | some (.file content executable) =>
    let before := content.take offset
    let gap := List.replicate (offset - content.length) 0
    here.put names
      (.file (before ++ gap ++ data ++ content.drop (offset + data.length)) executable)
  | _ => here

/-- The place that a path names: of an entry that is there, or of a new one in a
    directory. -/
def placeOf (here : Trail) (path : List Char) : Except Fault (List String) :=
  match here.resolve path with
  | .ok t => .ok t.names
  | .error f =>
    let name := (path.reverse.takeWhile (· ≠ '/')).reverse
    let folder := path.take (path.length - name.length)
    if name = [] then .error f
    else do
      let t ← here.resolve (if folder = [] then ['.'] else folder)
      if t.entry.any Entry.isDirectory then return t.names ++ [String.ofList name]
      else .error .notDirectory

end Trail

/-! ## Hosts -/

/-- The programs of a host. -/
def programs : List String :=
  ["sh", "dash", "echo", "printf", "cat", "sleep", "true", "false", "test", "[", "pwd", "ls", "dir",
    "env", "kill", "timeout", "head", "tail", "seq", "yes", "tr", "wc", "basename", "dirname", "nohup",
    "nice", "setsid", "tee", "date", "id", "whoami", "uname", "mkdir", "rmdir", "touch", "rm", "cp",
    "mv", "chmod", "sort", "uniq", "cut", "rev", "tac", "nl", "expr", "printenv", "which", "grep",
    "egrep", "fgrep", "sed", "xargs", "od", "readlink", "realpath", "mktemp", "fold", "paste",
    "hostname", "arch", "nproc", "sync", "stat", "unlink", "stdbuf", "ln", "find", "awk", "base64",
    "cksum", "cmp", "diff", "comm", "join", "expand", "split", "truncate", "dd", "ps", "bash",
    "perl", "md5sum", "sha256sum", "tty", "groups", "logname", "link", "factor", "shuf", "install",
    "chown", "du", "df", "more", "clear", "tput", "stty", "flock", "getopt", "pgrep", "pkill"]

/-- The directory of programs. -/
def programDirectory : Entry := .directory (programs.map fun p => (p, .program p))

/-- The directory of devices. -/
def deviceDirectory : Entry := .directory
  [("null", .null), ("zero", .zeros), ("full", .full), ("tty", .terminal), ("stdin", .descriptor 0),
    ("stdout", .descriptor 1), ("stderr", .descriptor 2),
    ("fd", .directory ((List.range 10).map fun n => (toString n, .descriptor n)))]

/-- The names from the top to the working directory. -/
def workPath : List String := ["tmp", "work"]

/-- The working directory with some files, given by their paths in it. -/
def trailOf (files : List (List String × Entry)) : Trail :=
  let work := files.foldl
    (fun e (path, new) => Entry.insert (path.map Octets.ofString) new e) (.directory [])
  let top : Entry := .directory
    [("bin", programDirectory), ("usr", .directory [("bin", programDirectory)]),
      ("dev", deviceDirectory),
      ("etc", .directory [("hosts", .file [] false), ("passwd", .file [] false)]),
      ("home", .directory []),
      ("root", .directory []), ("var", .directory []), ("proc", .directory []),
      ("tmp", .directory [("work", work)])]
  match Trail.walk [("", top)] (workPath.map String.toList) with
  | .ok t => t
  | .error _ => []

end Supervisor.Host
