/-
  TOML values, and the tables they are collected in while a document is read.

  * `Value` is a value of a document;
  * a `Node` is a value or a table that later statements may still add to, and
    remembers how the table came about (`Origin`);
  * `within` changes the table at a path, making the tables on the way;
  * `insertEntry` adds an entry under a dotted key.  Its path may go through
    tables that dotted keys made, not through one that a header opened or
    passed, and the entry itself must be new;
  * `Written.read` is the value that a written value stands for.
-/
import Supervisor.Toml.Number

namespace Supervisor.Toml

/-- A value of a document. -/
inductive Value where
  | boolean (b : Bool)
  | integer (n : Int)
  /-- an integer whose digits make no number -/
  | unreadable
  | float (x : FloatLiteral)
  | text (cs : List Char)
  /-- a date or a time -/
  | moment
  | array (items : List Value)
  | table (entries : List (List Char × Value))

/-- How a table came about. -/
inductive Origin where
  /-- a header opened it -/
  | header
  /-- a header passed through it -/
  | implied
  /-- a dotted key passed through it -/
  | dotted
  deriving DecidableEq

/-- A value, or a table that is still open. -/
inductive Node where
  | value (v : Value)
  | table (origin : Origin) (entries : List (List Char × Node))
  /-- the tables of a repeated header, latest first -/
  | tables (items : List (List (List Char × Node)))

/-- The entries of an open table. -/
abbrev Entries := List (List Char × Node)

/-! ## Open tables as values -/

mutual

/-- The value of a node. -/
def Node.toValue : Node → Value
  | .value v => v
  | .table _ entries => .table (entryValues entries)
  | .tables items => .array (tableValues items).reverse

/-- The values of the entries of a table. -/
def entryValues : List (List Char × Node) → List (List Char × Value)
  | [] => []
  | (k, n) :: rest => (k, n.toValue) :: entryValues rest

/-- The values of some tables. -/
def tableValues : List (List (List Char × Node)) → List Value
  | [] => []
  | entries :: rest => .table (entryValues entries) :: tableValues rest

end

/-! ## Changing tables -/

/-- A table with another node at a key that it has. -/
def replaceAt (key : List Char) (n : Node) (entries : Entries) : Entries :=
  entries.map fun (k, m) => if k = key then (k, n) else (k, m)

/-- A table without a key. -/
def removeAt (key : List Char) (entries : Entries) : Entries :=
  entries.filter fun (k, _) => k ≠ key

/-- Change the table at a path, where `f` is told how it came about.  Tables
    missing on the way are made; the path leads through the last table of a
    repeated header, never through a value, and for a dotted key never through
    a table that a header opened. -/
def within {α : Type} (byDots : Bool) (f : Origin → Entries → Except Fault (α × Entries)) :
    List (List Char) → Origin → Entries → Except Fault (α × Entries)
  | [], origin, entries => f origin entries
  | k :: path, _, entries =>
    match entries.lookup k with
    | none => do
      let origin := if byDots then .dotted else .implied
      let (a, inner) ← within byDots f path origin []
      return (a, entries ++ [(k, .table origin inner)])
    | some (.table origin inner) =>
      if byDots && origin = .header then .error .malformed
      else do
        let (a, inner) ← within byDots f path origin inner
        return (a, replaceAt k (.table origin inner) entries)
    | some (.tables (last :: earlier)) => do
      let (a, last) ← within byDots f path .header last
      return (a, replaceAt k (.tables (last :: earlier)) entries)
    | some _ => .error .malformed

/-- A table with one more entry, under a dotted key of which `key` is the last
    part. -/
def insertEntry (path : List (List Char)) (key : List Char) (v : Value) (entries : Entries) :
    Except Fault Entries :=
  let add (origin : Origin) (es : Entries) : Except Fault (Unit × Entries) :=
    if (!path.isEmpty && origin ≠ .dotted) || (es.lookup key).isSome then .error .malformed
    else .ok ((), es ++ [(key, .value v)])
  (within true add path .header entries).map (·.2)

/-- The path and the last part of a key. -/
def splitLast? : List (List Char) → Option (List (List Char) × List Char)
  | [] => none
  | [k] => some ([], k)
  | k :: rest => (splitLast? rest).map fun (path, last) => (k :: path, last)

/-! ## Reading values -/

/-- The value of a bare word. -/
def Bare.toValue : Bare → Value
  | .boolean b => .boolean b
  | .integer n => .integer n
  | .unreadable => .unreadable
  | .float x => .float x
  | .moment => .moment

/-- The path and the last part of a written key. -/
def readPath (keys : List Key) : Except Fault (List (List Char) × List Char) := do
  match splitLast? (← readKeys keys) with
  | some split => return split
  | none => .error .malformed

mutual

/-- The value that a written value stands for. -/
def Written.read : Written → Except Fault Value
  | .bare cs =>
    match Bare.read? cs with
    | some b => .ok b.toValue
    | none => .error .malformed
  | .quoted q => q.read.map .text
  | .array items => (readItems items).map .array
  | .table entries => (readEntries entries []).map fun es => .table (entryValues es)

/-- The values of the items of an array. -/
def readItems : List Written → Except Fault (List Value)
  | [] => .ok []
  | w :: rest => do
    let v ← w.read
    return v :: (← readItems rest)

/-- An inline table with more entries. -/
def readEntries : List (List Key × Written) → Entries → Except Fault Entries
  | [], es => .ok es
  | (keys, w) :: rest, es => do
    let (path, key) ← readPath keys
    let v ← w.read
    readEntries rest (← insertEntry path key v es)

end

end Supervisor.Toml
