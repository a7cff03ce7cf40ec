/-
  The layout of a TOML document: its statements, before any text or number in
  them is read.

  * `Written` is a value as it is written, `Key` a part of a dotted key;
  * a `Statement` is a header or an entry;
  * `Statement.ofTokens?` arranges tokens as statements.  It fails where a mark
    is missing or out of place, where a comment holds a control character or a
    carriage return stands alone, and where arrays and inline tables nest
    deeper than `nestingLimit`.  A part of a key or a value that is missing is
    no failure of the layout: it is arranged as an empty one (`Key.missing`,
    `Written.missing`), which cannot be read.

  The arranger is a machine that takes one token at a time (`Arranger.feed`);
  the arrays and tables it is in form a stack of frames.
-/
import Supervisor.Toml.Token

namespace Supervisor.Toml

/-- A part of a dotted key, as it is written. -/
inductive Key where
  | bare (cs : List Char)
  | quoted (q : Quoted)
  deriving DecidableEq

/-- A value as it is written. -/
inductive Written where
  | bare (cs : List Char)
  | quoted (q : Quoted)
  | array (items : List Written)
  | table (entries : List (List Key × Written))

/-- The part of a key that stands where there is none. -/
def Key.missing : Key := .bare []

/-- The value that stands where there is none. -/
def Written.missing : Written := .bare []

/-- A statement of a document. -/
inductive Statement where
  /-- `[keys]`, or with two brackets if `many` -/
  | header (keys : List Key) (many : Bool)
  /-- `keys = value` -/
  | entry (keys : List Key) (value : Written)

/-- How deep arrays and inline tables may nest, and how many parts a dotted key
    may have. -/
def nestingLimit : Nat := 80

/-! ## Places -/

/-- What a value is being read for; parts already read are kept latest first. -/
inductive Frame where
  /-- for an entry of the document -/
  | entry (keys : List Key)
  /-- for an array -/
  | array (items : List Written)
  /-- for the entry `keys` of an inline table -/
  | table (entries : List (List Key × Written)) (keys : List Key)

/-- Whether line ends and comments may stand between the tokens of a frame. -/
def Frame.spansLines : Frame → Bool
  | .entry _ => false
  | _ => true

/-- What the arranger expects next. -/
inductive Place where
  /-- a statement -/
  | lineStart
  /-- the end of the line -/
  | lineEnd
  /-- the end of a line whose header lacks a part of its key -/
  | lineRest
  /-- behind the first bracket of a header -/
  | headerOpen
  /-- a part of the key of a header -/
  | headerKey (many : Bool) (keys : List Key)
  /-- a dot or the end of a header -/
  | headerNext (many : Bool) (keys : List Key)
  /-- the second closing bracket -/
  | headerClose (keys : List Key)
  /-- a part of the key of an entry, behind a dot -/
  | key (frame : Frame) (outer : List Frame)
  /-- a dot or an equals sign -/
  | keyNext (frame : Frame) (outer : List Frame)
  /-- an equals sign, behind a line end that follows the key -/
  | keyEnd (frame : Frame) (outer : List Frame)
  /-- a value -/
  | value (frame : Frame) (outer : List Frame)
  /-- the rest of a bare value -/
  | bare (cs : List Char) (frame : Frame) (outer : List Frame)
  /-- behind a bare value and blanks, which belong to it if an atom follows -/
  | bareGap (cs gap : List Char) (frame : Frame) (outer : List Frame)
  /-- an item of an array or inline table, or its end -/
  | item (frame : Frame) (outer : List Frame)
  /-- a comma, or the end of an array or inline table -/
  | itemNext (frame : Frame) (outer : List Frame)

/-- The place behind a value, and the statement it completes. -/
def complete (v : Written) : Frame → List Frame → List Statement × Place
  | .entry keys, _ => ([.entry keys.reverse v], .lineEnd)
  | .array items, outer => ([], .itemNext (.array (v :: items)) outer)
  | .table entries keys, outer => ([], .itemNext (.table ((keys.reverse, v) :: entries) []) outer)

/-! ## Tokens -/

/-- Whether a character may stand in a comment or a quoted text: all but the
    controls other than tab. -/
def isPrinting (c : Char) : Bool :=
  c = '\t' || (0x20 ≤ c.toNat && c.toNat ≠ 0x7F)

/-- The part of a key that a token is. -/
def Key.ofToken? : Token → Option Key
  | .atom cs => some (.bare cs)
  | .quoted q => some (.quoted q)
  | _ => none

/-- A frame with one more part of the key it is for. -/
def Frame.addKey (k : Key) : Frame → Frame
  | .entry keys => .entry (k :: keys)
  | .table entries keys => .table entries (k :: keys)
  | .array items => .array items

/-- Whether a token may be skipped between the tokens of a frame. -/
def skips (frame : Frame) : Token → Bool
  | .blanks _ => true
  | .newline => frame.spansLines
  | .comment cs => frame.spansLines && cs.all isPrinting
  | _ => false

/-- Whether one more array or table may be opened. -/
def mayNest (outer : List Frame) : Bool := outer.length < nestingLimit

/-- The place behind the first token of a value. -/
def openValue (t : Token) (frame : Frame) (outer : List Frame) :
    Option (List Statement × Place) :=
  match t with
  | .quoted q => some (complete (.quoted q) frame outer)
  | .atom cs => some ([], .bare cs frame outer)
  | .dot => some ([], .bare ['.'] frame outer)
  | .openSquare =>
    if mayNest outer then some ([], .item (.array []) (frame :: outer)) else none
  | .openCurly =>
    if mayNest outer then some ([], .item (.table [] []) (frame :: outer)) else none
  | _ => none

/-- The place behind a token that closes the array or table of a frame. -/
def closeFrame (t : Token) (frame : Frame) (outer : List Frame) :
    Option (List Statement × Place) :=
  match t, frame, outer with
  | .closeSquare, .array items, up :: outer =>
    some (complete (.array items.reverse) up outer)
  | .closeCurly, .table entries _, up :: outer =>
    some (complete (.table entries.reverse) up outer)
  | _, _, _ => none

/-- A token behind the key of an entry. -/
def keyStep (frame : Frame) (outer : List Frame) (t : Token) : Option (List Statement × Place) :=
  match t, frame with
  | .equals, _ => some ([], .value frame outer)
  | .closeCurly, .table entries keys =>
    closeFrame t (.table ((keys.reverse, .missing) :: entries) []) outer
  | t, _ => if skips frame t then some ([], .keyEnd frame outer) else none

/-- A token in place of a part of a key.  A part that is missing before a dot or
    before what follows the key counts as an empty one. -/
def keyPartStep (frame : Frame) (outer : List Frame) (t : Token) :
    Option (List Statement × Place) :=
  match Key.ofToken? t, t with
  | some k, _ => some ([], .keyNext (frame.addKey k) outer)
  | none, .dot => some ([], .key (frame.addKey .missing) outer)
  | none, t => keyStep (frame.addKey .missing) outer t

/-- A token that closes the key of a header. -/
def headerEnd (many : Bool) (keys : List Key) : List Statement × Place :=
  if many then ([], .headerClose keys) else ([.header keys.reverse false], .lineEnd)

/-- A token in the rest of a line, whatever it is: only a comment must be fit
    to stand there. -/
def restStep : Token → Option (List Statement × Place)
  | .newline => some ([], .lineStart)
  | .comment cs => if cs.all isPrinting then some ([], .lineRest) else none
  | .strayReturn => none
  | _ => some ([], .lineRest)

/-- A token in place of a part of the key of a header. -/
def headerKeyStep (many : Bool) (keys : List Key) (t : Token) : Option (List Statement × Place) :=
  match Key.ofToken? t, t with
  | some k, _ => some ([], .headerNext many (k :: keys))
  | none, .blanks _ => some ([], .headerKey many keys)
  | none, .dot => some ([], .headerKey many (.missing :: keys))
  | none, .closeSquare => some (headerEnd many (.missing :: keys))
  | none, t => do
    let (more, place) ← restStep t
    return (.header (Key.missing :: keys).reverse many :: more, place)

/-- A token at the start of a line or behind a statement. -/
def lineStep (behind : Bool) : Token → Option (List Statement × Place)
  | .blanks _ => some ([], if behind then .lineEnd else .lineStart)
  | .newline => some ([], .lineStart)
  | .comment cs =>
    if cs.all isPrinting then some ([], if behind then .lineEnd else .lineStart) else none
  | t =>
    if behind then none
    else match t with
      | .openSquare => some ([], .headerOpen)
      | .dot | .equals => keyPartStep (.entry []) [] t
      | t => (Key.ofToken? t).map fun k => ([], .keyNext (.entry [k]) [])

/-- A token in place of an item of an array or inline table. -/
def itemStep (frame : Frame) (outer : List Frame) (t : Token) : Option (List Statement × Place) :=
  match closeFrame t frame outer, frame, t with
  | some r, _, _ => some r
  | none, .array _, t => openValue t frame outer
  | none, _, .dot | none, _, .equals => keyPartStep frame outer t
  | none, _, t => (Key.ofToken? t).map fun k => ([], .keyNext (frame.addKey k) outer)

/-- A token behind an item of an array or inline table. -/
def nextStep (frame : Frame) (outer : List Frame) (t : Token) : Option (List Statement × Place) :=
  if skips frame t then some ([], .itemNext frame outer)
  else if t = .comma then some ([], .item frame outer)
  else closeFrame t frame outer

/-- A completed value, and then a token. -/
def completeThen (v : Written) (frame : Frame) (outer : List Frame) (t : Token) :
    Option (List Statement × Place) :=
  match complete v frame outer with
  | (done, .itemNext frame outer) => (nextStep frame outer t).map fun (more, p) => (done ++ more, p)
  | (done, _) => (lineStep true t).map fun (more, p) => (done ++ more, p)

/-- A token in place of a value.  An entry may lack its value. -/
def valueStep (frame : Frame) (outer : List Frame) (t : Token) : Option (List Statement × Place) :=
  if skips frame t then some ([], .value frame outer)
  else match frame, t with
    | .entry _, .newline | .entry _, .comment _ | .table _ _, .closeCurly =>
      completeThen .missing frame outer t
    | _, t => openValue t frame outer

/-- One token. -/
def arrangeStep : Place → Token → Option (List Statement × Place)
  | .lineStart, t => lineStep false t
  | .lineEnd, t => lineStep true t
  | .lineRest, t => restStep t
  | .headerOpen, .openSquare => some ([], .headerKey true [])
  | .headerOpen, t => headerKeyStep false [] t
  | .headerKey many keys, t => headerKeyStep many keys t
  | .headerNext many keys, t =>
    match t with
    | .blanks _ => some ([], .headerNext many keys)
    | .dot => some ([], .headerKey many keys)
    | .closeSquare => some (headerEnd many keys)
    | _ => none
  | .headerClose keys, t =>
    match t with
    | .closeSquare => some ([.header keys.reverse true], .lineEnd)
    | _ => none
  | .key frame outer, t =>
    match t with
    | .blanks _ => some ([], .key frame outer)
    | t => keyPartStep frame outer t
  | .keyNext frame outer, t =>
    match t with
    | .blanks _ => some ([], .keyNext frame outer)
    | .dot => some ([], .key frame outer)
    | t => keyStep frame outer t
  | .keyEnd frame outer, t => keyStep frame outer t
  | .value frame outer, t => valueStep frame outer t
  | .bare cs frame outer, t =>
    match t with
    | .atom more => some ([], .bare (cs ++ more) frame outer)
    | .dot => some ([], .bare (cs ++ ['.']) frame outer)
    | .blanks gap => some ([], .bareGap cs gap frame outer)
    | t => completeThen (.bare cs) frame outer t
  | .bareGap cs gap frame outer, t =>
    match t with
    | .atom more => some ([], .bare (cs ++ gap ++ more) frame outer)
    | t => completeThen (.bare cs) frame outer t
  | .item frame outer, t =>
    if skips frame t then some ([], .item frame outer) else itemStep frame outer t
  | .itemNext frame outer, t => nextStep frame outer t

/-! ## Documents -/

/-- An arranger that has taken some tokens: the statements found, latest first. -/
structure Arranger where
  place : Place := .lineStart
  found : List Statement := []

/-- The arranger after one more token. -/
def Arranger.feed (a : Arranger) (t : Token) : Option Arranger := do
  let (more, place) ← arrangeStep a.place t
  return ⟨place, more.reverse ++ a.found⟩

/-- The statement that the end of the document completes, or `none` if it may
    not end there. -/
def lastStatement? : Place → Option (List Statement)
  | .lineStart | .lineEnd | .lineRest => some []
  | .bare cs (.entry keys) _ | .bareGap cs _ (.entry keys) _ =>
    some [.entry keys.reverse (.bare cs)]
  | .value (.entry keys) _ => some [.entry keys.reverse .missing]
  | .headerOpen => some [.header [.missing] false]
  | .headerKey many keys => some [.header (Key.missing :: keys).reverse many]
  | _ => none

/-- The statements at the end of the document. -/
def Arranger.finish (a : Arranger) : Option (List Statement) :=
  (lastStatement? a.place).map (a.found.reverse ++ ·)

/-- The statements of a document. -/
def Statement.ofTokens? (ts : List Token) : Option (List Statement) := do
  (← ts.foldlM Arranger.feed {}).finish

end Supervisor.Toml
