/-
  Patterns of a shell.

  * a `Glyph` is a character of an expanded word, which may be part of a pattern
    or not, or a place where a quote was;
  * a `Pattern` is made of marks that stand for one character, for one of a set,
    or for any number of them; `Pattern.accepts` tells which texts it fits;
  * `Pattern.withoutStart` and `Pattern.withoutEnd` take a part that fits off a
    text.
-/

namespace Supervisor.Host.Shell

/-! ## Glyphs -/

/-- A character of an expanded word. -/
inductive Glyph where
  /-- it may be part of a pattern -/
  | active (c : Char)
  /-- it stands for itself -/
  | guarded (c : Char)
  /-- a quote begins or ends -/
  | mark
  deriving DecidableEq

/-- The character of a glyph. -/
def Glyph.char? : Glyph → Option Char
  | active c | guarded c => some c
  | mark => none

/-- The text of some glyphs. -/
def plain (gs : List Glyph) : List Char := gs.filterMap Glyph.char?

/-- Glyphs without the quotes, and with guarded characters for those that a
    backslash guards. -/
def withoutGuards : List Glyph → List Glyph
  | .active '\\' :: .active c :: rest => .guarded c :: withoutGuards rest
  | .mark :: rest => withoutGuards rest
  | g :: rest => g :: withoutGuards rest
  | [] => []

/-! ## Sets -/

/-- A member of a set of characters. -/
inductive Member where
  | range (first last : Char)
  | kind (name : String)
  deriving DecidableEq

/-- The order of characters, which takes the upper half of the bytes for
    negative numbers. -/
def rank (c : Char) : Int := if c.toNat < 128 then c.toNat else (c.toNat : Int) - 256

/-- Whether a character is a sign that is neither a letter nor a digit. -/
def isSign (c : Char) : Bool := '!' ≤ c && c ≤ '~' && !c.isAlphanum

/-- The kinds of characters. -/
def kinds : List (String × (Char → Bool)) :=
  [("alnum", Char.isAlphanum), ("alpha", Char.isAlpha), ("digit", Char.isDigit),
    ("upper", Char.isUpper), ("lower", Char.isLower), ("punct", isSign),
    ("space", fun c => c = ' ' || ('\t' ≤ c && c ≤ '\r')), ("blank", fun c => c = ' ' || c = '\t'),
    ("cntrl", fun c => c.toNat < 32 || c.toNat = 127), ("graph", fun c => '!' ≤ c && c ≤ '~'),
    ("print", fun c => ' ' ≤ c && c ≤ '~'),
    ("xdigit", fun c => c.isDigit || ('a' ≤ c.toLower && c.toLower ≤ 'f'))]

/-- Whether a member of a set fits a character. -/
def Member.admits (m : Member) (c : Char) : Bool :=
  match m with
  | range a b => rank a ≤ rank c && rank c ≤ rank b
  | kind name => ((kinds.lookup name).map fun p => p c).getD false

/-- A mark of a pattern. -/
inductive Mark where
  | exactly (c : Char)
  | anyOne
  | anyMany
  /-- one in a set, or one outside of it -/
  | among (members : List Member) (inside : Bool)
  deriving DecidableEq

/-- Whether a mark for one character fits it. -/
def Mark.admits (m : Mark) (c : Char) : Bool :=
  match m with
  | exactly d => c = d
  | anyOne => true
  | anyMany => false
  | among members inside => members.any (·.admits c) = inside

/-- A pattern. -/
abbrev Pattern := List Mark

namespace Pattern

/-- The kind of characters that is named at the start, and the rest. -/
def kindAt (gs : List Glyph) : Option (Member × List Glyph) :=
  (kinds.map Prod.fst).findSome? fun name =>
    let spelled := ("[:" ++ name ++ ":]").toList.map Glyph.active
    if spelled.isPrefixOf gs then some (.kind name, gs.drop spelled.length) else none

/-- The members of a set up to the bracket that closes it, and the rest.  At the
    start, `isFirst`, a bracket is a member. -/
def members : Nat → Bool → List Glyph → Option (List Member × List Glyph)
  | 0, _, _ => none
  | fuel + 1, isFirst, gs =>
    match gs with
    | [] => none
    | g :: rest =>
      if g = .active ']' && !isFirst then some ([], rest)
      else match kindAt gs with
        | some (m, rest) => (members fuel false rest).map fun (ms, r) => (m :: ms, r)
        | none =>
          let single := (g.char?.getD ' ', g.char?.getD ' ', rest)
          let (a, b, rest) := match rest with
            | .active '-' :: last :: more =>
              if last = .active ']' then single else (g.char?.getD ' ', last.char?.getD ' ', more)
            | _ => single
          (members fuel false rest).map fun (ms, r) => (.range a b :: ms, r)

/-- The set behind an opening bracket, and the rest. -/
def setOf (gs : List Glyph) : Option (Mark × List Glyph) :=
  let (inside, gs) := match gs with
    | .active '!' :: rest => (false, rest)
    | gs => (true, gs)
  (members (gs.length + 1) true gs).map fun (ms, rest) => (.among ms inside, rest)

/-- The pattern of some glyphs; the number bounds their count. -/
def ofGlyphsFor : Nat → List Glyph → Pattern
  | 0, _ => []
  | _, [] => []
  | fuel + 1, .active '*' :: rest => .anyMany :: ofGlyphsFor fuel rest
  | fuel + 1, .active '?' :: rest => .anyOne :: ofGlyphsFor fuel rest
  | fuel + 1, g :: rest =>
    match if g = .active '[' then setOf rest else none with
    | some (m, rest) => m :: ofGlyphsFor fuel rest
    | none => (g.char?.map Mark.exactly).toList ++ ofGlyphsFor fuel rest

/-- The pattern of some glyphs. -/
def ofGlyphs (gs : List Glyph) : Pattern := ofGlyphsFor (gs.length + 1) (withoutGuards gs)

/-- Whether a pattern fits more than one text. -/
def isOpen (p : Pattern) : Bool :=
  p.any fun
    | .exactly _ => false
    | _ => true

/-- Whether a pattern fits a text. -/
def accepts : Pattern → List Char → Bool
  | [], cs => cs.isEmpty
  | .anyMany :: p, cs => (List.range (cs.length + 1)).any fun n => accepts p (cs.drop n)
  | m :: p, c :: cs => m.admits c && accepts p cs
  | _ :: _, [] => false

/-- The lengths of parts of a text, in the order in which they are tried. -/
def lengths (longest : Bool) (cs : List Char) : List Nat :=
  let ns := List.range (cs.length + 1)
  if longest then ns.reverse else ns

/-- Without the shortest or longest part at the start that fits. -/
def withoutStart (longest : Bool) (p : Pattern) (cs : List Char) : List Char :=
  match (lengths longest cs).find? fun n => p.accepts (cs.take n) with
  | some n => cs.drop n
  | none => cs

/-- Without the shortest or longest part at the end that fits. -/
def withoutEnd (longest : Bool) (p : Pattern) (cs : List Char) : List Char :=
  match (lengths longest cs).find? fun n => p.accepts (cs.drop (cs.length - n)) with
  | some n => cs.take (cs.length - n)
  | none => cs

end Pattern

end Supervisor.Host.Shell
