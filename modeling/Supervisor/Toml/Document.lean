/-
  TOML documents.

  * `Document.parse` reads a text as the entries of its top table.  The layout
    of the whole text is settled first; then the statements are read in order,
    and the first fault among them counts;
  * a header opens a table that the entries below it go to (`Reader.openTable`),
    and closes the one before (`Reader.closeTable`).  A table is opened once,
    unless its header has two brackets, which adds a table to a list.
-/
import Supervisor.Toml.Value

namespace Supervisor.Toml

/-- The header of the table that is open. -/
structure Header where
  path : List (List Char)
  key : List Char
  /-- whether it adds a table to a list -/
  many : Bool
  deriving DecidableEq

/-- A document of which some statements have been read. -/
structure Reader where
  /-- the tables that are closed -/
  root : Entries := []
  /-- the header of the open table, if it is not the top one -/
  header : Option Header := none
  /-- the entries of the open table -/
  current : Entries := []

namespace Reader

/-- Put the open table in its place. -/
def closeTable (r : Reader) : Except Fault Entries :=
  match r.header with
  | none => .ok r.current
  | some h =>
    let put (_ : Origin) (es : Entries) : Except Fault (Unit × Entries) :=
      if h.many then
        match es.lookup h.key with
        | none => .ok ((), es ++ [(h.key, .tables [r.current])])
        | some (.tables items) => .ok ((), replaceAt h.key (.tables (r.current :: items)) es)
        | some _ => .error .malformed
      else .ok ((), es ++ [(h.key, .table .header r.current)])
    (within false put h.path .header r.root).map (·.2)

/-- Open the table of a header.  One that other headers have passed through
    keeps its entries; any other that exists already cannot be opened. -/
def openTable (root : Entries) (h : Header) : Except Fault Reader :=
  if h.many then .ok ⟨root, some h, []⟩
  else do
    let take (_ : Origin) (es : Entries) : Except Fault (Entries × Entries) :=
      match es.lookup h.key with
      | none => .ok ([], es)
      | some (.table .implied inner) => .ok (inner, removeAt h.key es)
      | some _ => .error .malformed
    let (current, root) ← within false take h.path .header root
    return ⟨root, some h, current⟩

/-- One statement. -/
def feed (r : Reader) : Statement → Except Fault Reader
  | .header keys many => do
    let root ← r.closeTable
    let (path, key) ← readPath keys
    openTable root ⟨path, key, many⟩
  | .entry keys value => do
    let (path, key) ← readPath keys
    let v ← value.read
    return { r with current := ← insertEntry path key v r.current }

end Reader

/-- The entries of the top table of a document, in the order of the text. -/
def Document.parse (text : List Char) : Except Fault (List (List Char × Value)) :=
  match Statement.ofTokens? (Token.scan text) with
  | none => .error .malformed
  | some statements => do
    let r ← statements.foldlM Reader.feed {}
    return entryValues (← r.closeTable)

end Supervisor.Toml
