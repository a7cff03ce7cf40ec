/-
  Fields: the words of a command after expansion.

  * a `Segment` is a part of a word after expansion; `fieldsOf` cuts segments at
    the characters that separate fields, where they may be cut;
  * `globbed` puts the names of files for a field that is a pattern.
-/
import Supervisor.Host.Files
import Supervisor.Host.Shell.Pattern

namespace Supervisor.Host.Shell

/-- A part of a word after expansion. -/
inductive Segment where
  /-- kept as it is -/
  | fixed (gs : List Glyph)
  /-- cut at the characters that separate fields -/
  | loose (gs : List Glyph)
  /-- a text of the script that is cut like that, too -/
  | words (gs : List Glyph)
  /-- cut between the arguments of a shell only, where a zero stands -/
  | arguments (gs : List Glyph)
  deriving DecidableEq

namespace Segment

/-- The glyphs of a segment. -/
def glyphs : Segment → List Glyph
  | fixed gs | loose gs | words gs | arguments gs => gs

end Segment

/-- The glyphs of some segments. -/
def glyphsOf (segments : List Segment) : List Glyph := segments.flatMap Segment.glyphs

/-- Segments as one text. -/
def joined (segments : List Segment) : String := String.ofList (plain (glyphsOf segments))

/-! ## Cutting -/

/-- The character between two arguments. -/
def divider : Char := Char.ofNat 0

/-- The separators that count as blanks. -/
def isBlank (c : Char) : Bool := c = ' ' || c = '\t' || c = '\n' || c = divider

/-- Fields as far as they are cut. -/
structure Cutting where
  /-- the complete ones, latest first -/
  done : List (List Glyph) := []
  /-- the one that is not complete, its latest glyph first -/
  current : List Glyph := []
  /-- how many more fields may be cut off; `none` is any number -/
  left : Option Nat := none
  /-- how much of the last field belongs to it, if not all -/
  kept : Option Nat := none
  /-- the last segment divides arguments -/
  wasArguments : Bool := false

namespace Cutting

/-- The field is complete. -/
def complete (s : Cutting) : Cutting :=
  { s with done := s.current.reverse :: s.done, current := [], left := s.left.map (· - 1) }

/-- A glyph of the last field, which takes the rest: separators at its end are
    dropped, as long as only blanks and at most one other are among them. -/
def addLast (separators : List Char) (blankSeen : Bool) (s : Cutting) (g : Glyph) : Cutting × Bool :=
  let c := g.char?.getD ' '
  let isSeparator := separators.contains c || c = divider
  let next := { s with current := g :: s.current }
  if isSeparator && isBlank c then
    ({ next with kept := some (s.kept.getD s.current.length) }, blankSeen)
  else if isSeparator && blankSeen then (next, false)
  else ({ next with kept := none }, false)

/-- Where the cutting of a segment stands. -/
inductive Phase where
  /-- within a field, or at its start -/
  | inside
  /-- behind a separator; another one that is no blank may belong to it -/
  | behind (open_ : Bool)
  /-- in the last field -/
  | last (blankSeen : Bool)

/-- One glyph of a segment that is cut at separators. -/
def step (separators : List Char) (state : Cutting × Phase) (g : Glyph) : Cutting × Phase :=
  let (s, phase) := state
  let c := g.char?.getD ' '
  let isSeparator := g ≠ .mark && (separators.contains c || c = divider)
  let within : Cutting × Phase :=
    if !isSeparator then ({ s with current := g :: s.current }, .inside)
    else if s.current = [] && isBlank c then (s, .inside)
    else if s.left = some 1 then
      ({ s with kept := some s.current.length, current := g :: s.current }, .last (isBlank c))
    else (s.complete, .behind (isBlank c))
  match phase with
  | .last blankSeen =>
    let (s, blankSeen) := s.addLast separators blankSeen g
    (s, .last blankSeen)
  | .inside => within
  | .behind open_ =>
    if !isSeparator then within
    else if isBlank c then (s, .behind open_)
    else if open_ then (s, .behind false)
    else within

/-- Cut a segment. -/
def addSegment (separators : List Char) (s : Cutting) (segment : Segment) : Cutting :=
  let isLast := s.kept.isSome || s.left = some 0
  match segment with
  | .fixed gs => { s with current := gs.reverse ++ s.current }
  | .loose gs | .words gs =>
    let start : Phase := if isLast then .last false else .inside
    { (gs.foldl (step separators) ({ s with wasArguments := false }, start)).1 with
      wasArguments := false }
  | .arguments gs =>
    let cut := gs.foldl (fun (s : Cutting) g =>
      if g.char? = some divider then s.complete else { s with current := g :: s.current }) s
    { cut with wasArguments := true }

/-- The fields, in order.  The last one may be empty only between arguments. -/
def fields (s : Cutting) : List (List Glyph) :=
  let current := s.current.reverse
  let current := (s.kept.map fun n => current.take n).getD current
  ((if current = [] && !s.wasArguments then [] else [current]) ++ s.done).reverse

end Cutting

/-- The fields of segments, with the characters that separate them. -/
def fieldsOf (separators : List Char) (segments : List Segment) : List (List Glyph) :=
  (segments.foldl (Cutting.addSegment separators) {}).fields

/-- So many fields of segments at most; the last one takes the rest. -/
def fieldsUpTo (n : Nat) (separators : List Char) (segments : List Segment) : List (List Glyph) :=
  (segments.foldl (Cutting.addSegment separators) { left := some n }).fields

/-! ## Names of files -/

/-- Glyphs between slashes. -/
def pathGlyphs (gs : List Glyph) : List (List Glyph) :=
  gs.foldr (fun g acc =>
    if g.char? = some '/' then [] :: acc
    else match acc with
      | [] => [[g]]
      | p :: rest => (g :: p) :: rest) [[]]

/-- The names in a directory that a pattern can fit: those that start with a dot
    only if the pattern does. -/
def namesFor (here : Trail) (folder : String) (part : List Glyph) : List String :=
  match here.find (if folder = "" then ['.'] else folder.toList) with
  | .error _ => []
  | .ok e =>
    if !e.isDirectory then []
    else if (plain part).head? = some '.' then "." :: ".." :: e.names
    else e.names.filter fun n => !beginsWith '.' n

/-- The paths behind some others that go on with a part. -/
def extendPaths (here : Trail) (folders : List String) (part : List Glyph) : List String :=
  let p := Pattern.ofGlyphs part
  if p.isOpen then
    folders.flatMap fun folder =>
      ((namesFor here folder part).filter fun n => p.accepts n.toList).map (folder ++ ·)
  else folders.map (· ++ String.ofList (plain (withoutGuards part)))

/-- The paths of a pattern, part by part. -/
def pathsOf (here : Trail) : List String → List (List Glyph) → List String
  | folders, [] => folders
  | folders, [part] => extendPaths here folders part
  | folders, part :: rest => pathsOf here ((extendPaths here folders part).map (· ++ "/")) rest

/-- The names of files that a field stands for, in order; a field that is no
    pattern or fits none stands for itself. -/
def globbed (here : Trail) (gs : List Glyph) : List String :=
  let itself := [String.ofList (plain gs)]
  let parts := pathGlyphs (gs.filter (· ≠ .mark))
  if !parts.any fun p => (Pattern.ofGlyphs p).isOpen then itself
  else
    let paths := (pathsOf here [""] parts).filter fun p => (here.find p.toList).isOk
    if paths = [] then itself else paths.mergeSort fun a b => a ≤ b

end Supervisor.Host.Shell
