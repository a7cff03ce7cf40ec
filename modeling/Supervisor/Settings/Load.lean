/-
  Settings from a file.

  * `Settings.ofDocument` reads the four limits from the table `runner` of a
    document.  Everything else in the document is ignored, except that no
    number in it may be too large or unreadable; of several faults the one under the least
    key counts;
  * `Settings.load` reads a file, `loadValid` also refuses limits that are
    zero, and `loadOrDefault` takes the defaults if there is no file;
  * `Settings.render` writes limits in the form that is read back.
-/
import Supervisor.Decimal.Shortest
import Supervisor.Error
import Supervisor.Text.Quoted
import Supervisor.Text.Utf8
import Supervisor.Toml.Document

namespace Supervisor

/-! ## Values of the wrong kind -/

namespace Toml

/-- The text of a number with a point. -/
def FloatLiteral.text? : FloatLiteral → Option String
  | nan => some "NaN"
  | infinite negative => some (if negative then "-inf" else "inf")
  | finite negative digits scale => (Binary64.ofDecimal? negative digits scale).map Binary64.text

/-- What a value is, for one who expected something else. -/
def Value.found : Value → Except Fault Found
  | .boolean b => .ok (.boolean b)
  | .integer n =>
    if -Int.pow 2 63 ≤ n ∧ n < Int.pow 2 64 then .ok (.integer n)
    else if -Int.pow 2 127 ≤ n ∧ n < Int.pow 2 128 then .ok (.wideInteger n)
    else .error .outOfRange
  | .float x =>
    match x.text? with
    | some t => .ok (.float t)
    | none => .error .outOfRange
  | .unreadable => .error .outOfRange
  | .text cs => .ok (.text (Text.quote (String.ofList cs)))
  | .array _ => .ok .array
  | .moment | .table _ => .ok .table

/-- The fault of a value where something else was expected. -/
def Value.mismatch (v : Value) (expected : String) : Fault :=
  match v.found with
  | .ok f => .mismatch (.wrongType f expected)
  | .error e => e

mutual

/-- A value that nobody asks for may not hold a number out of range. -/
def Value.ignore : Value → Except Fault Unit
  | .array items => ignoreItems items
  | .table entries => ignoreEntries entries
  | v => v.found.map fun _ => ()

/-- Nor may the items of an array. -/
def ignoreItems : List Value → Except Fault Unit
  | [] => .ok ()
  | v :: rest => do
    v.ignore
    ignoreItems rest

/-- Nor may the entries of a table. -/
def ignoreEntries : List (List Char × Value) → Except Fault Unit
  | [] => .ok ()
  | (_, v) :: rest => do
    v.ignore
    ignoreEntries rest

end

/-- The entries of a table in the order of their keys. -/
def sortEntries (entries : List (List Char × Value)) : List (List Char × Value) :=
  entries.mergeSort fun a b => decide (¬ b.1 < a.1)

end Toml

/-! ## Limits -/

namespace Limit

/-- The type that the value of a limit must fit. -/
def typeName : Limit → String
  | bufferSize => "usize"
  | _ => "u64"

/-- The limit with a key. -/
def ofKey? (key : List Char) : Option Limit := all.find? fun l => l.key.toList = key

/-- The value of a limit: an integer of 64 bits without a sign. -/
def read (l : Limit) (v : Toml.Value) : Except Toml.Fault Nat :=
  match v with
  | .integer n =>
    if 0 ≤ n ∧ n < Int.pow 2 64 then .ok n.toNat
    else if -Int.pow 2 63 ≤ n ∧ n < 0 then
      .error (.mismatch (.wrongValue (.integer n) l.typeName))
    else .error (v.mismatch l.typeName)
  | v => .error (v.mismatch l.typeName)

end Limit

namespace Settings

/-- Settings with one limit changed. -/
def set (s : Settings) (l : Limit) (n : Nat) : Settings :=
  match l with
  | .gracePeriod => { s with gracePeriod := n }
  | .stopTimeout => { s with stopTimeout := n }
  | .joinTimeout => { s with joinTimeout := n }
  | .bufferSize => { s with bufferSize := n }

/-! ## Documents -/

/-- One entry of the table `runner`. -/
def readEntry (s : Settings) (entry : List Char × Toml.Value) : Except Toml.Fault Settings :=
  match Limit.ofKey? entry.1 with
  | some l => (l.read entry.2).map (s.set l)
  | none => entry.2.ignore.map fun _ => s

/-- The limits of the value of `runner`: a table by key, a date as a table
    without any of them, an array by position. -/
def ofSection (v : Toml.Value) : Except Toml.Fault Settings :=
  match v with
  | .table entries => (Toml.sortEntries entries).foldlM readEntry {}
  | .moment => .ok {}
  | .array items =>
    (Limit.all.zip items).foldlM (fun s (l, v) => (l.read v).map (s.set l)) {}
  | v => .error (v.mismatch "struct RunnerSection")

/-- One entry of a document. -/
def readTop (s : Settings) (entry : List Char × Toml.Value) : Except Toml.Fault Settings :=
  if entry.1 = "runner".toList then ofSection entry.2
  else entry.2.ignore.map fun _ => s

/-- The settings of a document. -/
def ofDocument (entries : List (List Char × Toml.Value)) : Except Toml.Fault Settings :=
  (Toml.sortEntries entries).foldlM readTop {}

/-! ## Files -/

/-- The settings in the bytes of a file, not validated. -/
def ofBytes (bs : Bytes) : Except Error Settings :=
  match Utf8.decode? bs with
  | none => .error (.io .notText)
  | some text => ((Toml.Document.parse text).bind ofDocument).mapError .toml

/-- The settings of a file, or what kept it from being read. -/
def load (file : Except Fault Bytes) : Except Error Settings :=
  (file.mapError .io).bind ofBytes

/-- Settings none of whose limits is zero. -/
def validate (s : Settings) : Except Error Settings :=
  match s.firstZero with
  | some l => .error (.zeroLimit l)
  | none => .ok s

/-- The valid settings of a file. -/
def loadValid (file : Except Fault Bytes) : Except Error Settings :=
  (load file).bind validate

/-- The valid settings of a file, or the defaults if there is none. -/
def loadOrDefault (file : Except Fault Bytes) : Except Error Settings :=
  match loadValid file with
  | .error (.io f) => if f.kind = .notFound then .ok {} else .error (.io f)
  | result => result

/-- The name of the file that is read if no other is asked for. -/
def defaultFile : String := "Procwatch.toml"

/-! ## Writing -/

/-- A settings file with some limits, one a line. -/
def render (limits : List (Limit × Nat)) : List Char :=
  "[runner]\n".toList ++
    limits.flatMap fun (l, n) => l.key.toList ++ " = ".toList ++ Nat.toDigits 10 n ++ ['\n']

end Settings

end Supervisor
