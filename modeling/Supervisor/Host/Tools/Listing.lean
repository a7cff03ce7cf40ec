/-
  Small programs that list files.

  * `Tools.ls` lists files and directories one below the other, and `Tools.dir`
    side by side.
-/
import Supervisor.Host.Tools.Words

namespace Supervisor.Host.Tools

/-- Names in order. -/
def sorted (names : List String) : List String := names.mergeSort fun a b => a ≤ b

/-- How names are put on lines. -/
inductive Arrangement where
  | column
  | row
  | commas
  deriving DecidableEq

/-- Names on lines. -/
def Arrangement.render (a : Arrangement) (names : List String) : Bytes :=
  match a with
  | column => names.flatMap Utility.line
  | row => if names = [] then [] else Utility.line ("  ".intercalate names)
  | commas => if names = [] then [] else Utility.line (", ".intercalate names)

/-- The names in a directory that are shown. -/
def listing (c : Chosen) (e : Entry) : List String :=
  let names := match c.lastOf ['a', 'A'] with
    | some 'a' => "." :: ".." :: e.names
    | some _ => e.names
    | none => e.names.filter fun n => !beginsWith '.' n
  let names := sorted names
  if c.has 'r' then names.reverse else names

/-- A name with a sign for what it stands for, if that is asked for. -/
def marked (c : Chosen) (e : Option Entry) (name : String) : String :=
  match e, c.lastOf ['F', 'p'] with
  | some (.directory _), some _ => name ++ "/"
  | some (.file _ true), some 'F' | some (.program _), some 'F' => name ++ "*"
  | _, _ => name

/-- The entry of a directory under a name, which may be one of the dots. -/
def entryIn (e : Entry) (name : String) : Option Entry :=
  if name = "." || name = ".." then some e
  else match e with
    | .directory entries => entries.lookup name
    | _ => none

/-- The blocks for a directory and, if asked, for those in it; the number bounds
    how deep. -/
def blocksOf (c : Chosen) (a : Arrangement) : Nat → Bool → String → Entry → List Bytes
  | 0, _, _, _ => []
  | fuel + 1, isTitled, name, e =>
    let names := listing c e
    let body := a.render (names.map fun n => marked c (entryIn e n) n)
    let block := if isTitled then Utility.line (name ++ ":") ++ body else body
    let inner := if !c.has 'R' then []
      else names.flatMap fun n =>
        if n = "." || n = ".." then []
        else match entryIn e n with
          | some (.directory es) =>
            let path := (if name = "/" then "" else name) ++ "/" ++ n
            blocksOf c a fuel true path (.directory es)
          | _ => []
    block :: inner

/-- How deep directories are listed. -/
def listingDepth : Nat := 20

/-- List files and directories. -/
def list (standard : Arrangement) : Tool :=
  withOptions ⟨"1AaCcdFfGghHiklLmNnopqrRsStuUvxX", "wTI", [("all", 'a'), ("almost-all", 'A'),
    ("directory", 'd'), ("reverse", 'r'), ("recursive", 'R'), ("classify", 'F')], true⟩ 2 fun v p c =>
    let a := match c.lastOf ['1', 'C', 'x', 'm'] with
      | some '1' => Arrangement.column
      | some 'm' => .commas
      | some _ => .row
      | none => standard
    let names := sorted (if c.operands = [] then ["."] else c.operands)
    let names := if c.has 'r' then names.reverse else names
    let found := names.map fun n => (n, p.here.find n.toList)
    let faults := found.filterMap fun (n, r) => match r with
      | .error f => some (v.line ("cannot access " ++ Quote.forShell n ++ ": " ++ Utility.faultText f))
      | .ok _ => none
    let entries := found.filterMap fun (n, r) => r.toOption.map fun e => (n, e)
    let (plain, folders) := entries.partition fun (_, e) => c.has 'd' || !e.isDirectory
    let isTitled := 1 < names.length || c.has 'R'
    let blocks := folders.flatMap fun (n, e) => blocksOf c a listingDepth isTitled n e
    let files := if plain = [] then [] else [a.render (plain.map fun (n, e) => marked c (some e) n)]
    .both ([10].intercalate (files ++ blocks)) faults.flatten (if faults = [] then 0 else 2)

/-- List files one below the other. -/
def ls : Tool := list .column

/-- List files side by side. -/
def dir : Tool := list .row

/-- Where programs are. -/
def which : Tool := withOptions ⟨"a", "", [], false⟩ 2 fun _ p c =>
  let folders := (p.env.lookup "PATH").getD ""
  let parts := folders.toList.foldr (fun x acc =>
    if x = ':' then [] :: acc
    else match acc with
      | [] => [[x]]
      | d :: rest => (x :: d) :: rest) [[]]
  let isProgram (path : String) : Bool :=
    match p.here.find path.toList with
    | .ok (.program _) | .ok (.file _ true) => true
    | _ => false
  let places (name : String) : List String :=
    let all := if name.toList.contains '/' then [name]
      else parts.map fun d => (if d = [] then "." else String.ofList d) ++ "/" ++ name
    let found := all.filter isProgram
    if c.has 'a' then found else found.take 1
  let results := c.operands.map places
  { Effect.print (results.flatten.flatMap Utility.line) with
    code := if results = [] || results.any List.isEmpty then 1 else 0 }

end Supervisor.Host.Tools
