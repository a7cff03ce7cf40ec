/-
  Expanding the words of a script.

  * `Shell.expandPieces` carries out the expansions of a word, and gives its
    segments;
  * `Shell.arguments` are the fields of some words, `Shell.textOf` is the one text
    of a word, and `Shell.patternOf` its pattern.

  The output of a script is computed by a function that they are given.
-/
import Supervisor.Host.Shell
import Supervisor.Host.Shell.Field

namespace Supervisor.Host.Shell

/-- What runs a script and gives its output. -/
abbrev OutputOf := Shell → Script → Shell × Bytes

/-- What a word is expanded for. -/
structure Purpose where
  /-- it is cut into fields -/
  cuts : Bool
  /-- it stands in the braces of a parameter, without quotes -/
  isOperand : Bool := false

/-! ## Home directories -/

/-- The home directories of users. -/
def homes : List (String × String) :=
  [("root", "/root"), ("daemon", "/usr/sbin"), ("bin", "/bin"), ("sys", "/dev"),
    ("games", "/usr/games"), ("mail", "/var/mail"), ("www-data", "/var/www"),
    ("nobody", "/nonexistent")]

/-! ## Segments -/

/-- A text in a word: kept as it is between quotes, and cut elsewhere. -/
def segmentOf (quoted : Bool) (cs : List Char) : Segment :=
  if quoted then .fixed (cs.map .guarded) else .loose (cs.map .active)

/-- Segments with the ones that are cut and come from one text joined. -/
def addText (p : Purpose) (c : Char) (rest : List Segment) : List Segment :=
  if p.isOperand then
    match rest with
    | .words gs :: rest => .words (.active c :: gs) :: rest
    | rest => .words [.active c] :: rest
  else .fixed [.active c] :: rest

/-- A home directory as a part of a word; without one the name stands for
    itself. -/
def homeSegments (sh : Shell) (p : Purpose) (user : String) : List Segment :=
  match if user = "" then sh.get "HOME" else homes.lookup user with
  | some dir => [.fixed (dir.toList.map .guarded)]
  | none => ('~' :: user.toList).foldr (addText p) []

/-- The first separator, which joins arguments. -/
def joint (sh : Shell) : List Char :=
  match sh.get "IFS" with
  | some s => s.toList.take 1
  | none => [' ']

/-- The arguments of the shell as a part of a word. -/
def argumentSegment (sh : Shell) (p : Purpose) (name : String) (quoted : Bool) : List Segment :=
  let glyph (c : Char) : Glyph := if quoted then .guarded c else .active c
  let texts := sh.args.map String.toList
  let joined (between : List Char) : List Glyph := (between.intercalate texts).map glyph
  if p.cuts && quoted && name = "@" then
    if texts = [] then [] else [.arguments (joined [divider])]
  else if quoted || !p.cuts then [.fixed (joined sh.joint)]
  else [.loose (joined (if (sh.get "IFS").isSome then [divider] else [' ']))]

/-- Whether a parameter stands for all arguments. -/
def isArguments (name : String) : Bool := name = "@" || name = "*"

/-- The text of a parameter. -/
def parameterText (sh : Shell) (name : String) : Option String :=
  if isArguments name then
    some (String.ofList (sh.joint.intercalate (sh.args.map String.toList)))
  else sh.parameter name

/-- The parameter as a part of a word. -/
def parameterSegments (sh : Shell) (p : Purpose) (name : String) (quoted : Bool) : List Segment :=
  if isArguments name then sh.argumentSegment p name quoted
  else [segmentOf quoted (((sh.parameter name).getD "").toList)]

/-- The pattern of some segments. -/
def patternOfSegments (segments : List Segment) : Pattern := .ofGlyphs (glyphsOf segments)

/-- Compute a number, and set the variables that it sets. -/
def compute (sh : Shell) (text : String) : Shell × String :=
  match Number.evaluate ⟨sh.get, sh.isFixed⟩ text.toList with
  | .ok (n, store) =>
    (store.reverse.foldl (fun sh (name, v) => sh.put name (toString v)) sh, toString n)
  | .error (.invalid why) =>
    (sh.fail ("arithmetic expression: " ++ why ++ ": \"" ++ text ++ "\""), "")
  | .error (.notNumber value) => (sh.fail ("Illegal number: " ++ value), "")
  | .error (.fixed name) => (sh.fail (name ++ ": is read only"), "")

/-- The output of a script without the line ends at its end, and without
    zeros. -/
def outputText (bs : Bytes) : List Char :=
  Octets.chars ((bs.filter (· ≠ 0)).reverse.dropWhile (· = 10)).reverse

section
variable (outputOf : OutputOf)

mutual

/-- Expand the pieces of a word, each behind the ones in front of it. -/
def expandPieces (p : Purpose) (sh : Shell) : List Piece → Shell × List Segment
  | [] => (sh, [])
  | .bare c :: rest =>
    let (sh, more) := expandPieces p sh rest
    (sh, addText p c more)
  | piece :: rest =>
    let (sh, segments) := expandPiece p sh piece
    if sh.isDone then (sh, segments)
    else
      let (sh, more) := expandPieces p sh rest
      (sh, segments ++ more)

/-- Expand one piece. -/
def expandPiece (p : Purpose) (sh : Shell) : Piece → Shell × List Segment
  | .bare c => (sh, addText p c [])
  | .guarded c => (sh, [.fixed [.guarded c]])
  | .mark => (sh, [.fixed [.mark]])
  | .home user => (sh, sh.homeSegments p user)
  | .arithmetic operand quoted =>
    let (sh, segments) := expandPieces ⟨false, false⟩ sh operand
    if sh.isDone then (sh, [])
    else
      let (sh, text) := sh.compute (joined segments)
      (sh, [segmentOf quoted text.toList])
  | .output script quoted =>
    let (sh, bs) := outputOf sh script
    (sh, [segmentOf quoted (outputText bs)])
  | .parameter name form strict operand quoted =>
    let value := sh.parameterText name
    let given := if strict then value.any (· ≠ "") else value.isSome
    let asIs : List Segment := sh.parameterSegments p name quoted
    let inner : Purpose := ⟨p.cuts, !quoted⟩
    match form with
    | .unfit => (sh.fail "Bad substitution", [])
    | .fallback => if given then (sh, asIs) else expandPieces inner sh operand
    | .alternative => if given then expandPieces inner sh operand else (sh, [segmentOf quoted []])
    | .preset =>
      if given then (sh, asIs)
      else
        let (sh, segments) := expandPieces ⟨false, false⟩ sh operand
        if sh.isDone then (sh, [])
        else match sh.assign name (joined segments) with
          | .ok sh => (sh, sh.parameterSegments p name quoted)
          | .error why => (sh.fail why, [])
    | .demand =>
      if given then (sh, asIs)
      else
        let (sh, segments) := expandPieces ⟨false, false⟩ sh operand
        if sh.isDone then (sh, [])
        else
          let why := if !operand.isEmpty then joined segments
            else if strict then "parameter not set or null" else "parameter not set"
          (sh.fail (name ++ ": " ++ why), [])
    | form =>
      if sh.isOn 'u' && value.isNone then (sh.fail (name ++ ": parameter not set"), [])
      else match form with
        | .length => (sh, [segmentOf quoted (toString (value.getD "").length).toList])
        | .withoutEnd longest =>
          let (sh, segments) := expandPieces ⟨false, false⟩ sh operand
          let cut := Pattern.withoutEnd longest (patternOfSegments segments) (value.getD "").toList
          (sh, [segmentOf quoted cut])
        | .withoutStart longest =>
          let (sh, segments) := expandPieces ⟨false, false⟩ sh operand
          let cut := Pattern.withoutStart longest (patternOfSegments segments) (value.getD "").toList
          (sh, [segmentOf quoted cut])
        | _ => (sh, asIs)

end

/-- The one text that a word stands for. -/
def textOf (sh : Shell) (w : Word) : Shell × String :=
  let (sh, segments) := expandPieces outputOf ⟨false, false⟩ sh (tilded false w)
  (sh, joined segments)

/-- The text that a variable is set to by a word. -/
def valueOf (sh : Shell) (w : Word) : Shell × String :=
  let (sh, segments) := expandPieces outputOf ⟨false, false⟩ sh (tildedAll (w.length + 1) w)
  (sh, joined segments)

/-- The pattern that a word stands for. -/
def patternOf (sh : Shell) (w : Word) : Shell × Pattern :=
  let (sh, segments) := expandPieces outputOf ⟨false, false⟩ sh (tilded false w)
  (sh, patternOfSegments segments)

/-- The fields that a word stands for. -/
def fieldsOfWord (sh : Shell) (w : Word) : Shell × List String :=
  let (sh, segments) := expandPieces outputOf ⟨true, false⟩ sh (tilded false w)
  if sh.isDone then (sh, [])
  else
    let fields := fieldsOf sh.separators segments
    (sh, if sh.isOn 'f' then fields.map fun gs => String.ofList (plain gs)
      else fields.flatMap (globbed sh.here))

/-- The fields that some words stand for. -/
def arguments : Shell → List Word → Shell × List String
  | sh, [] => (sh, [])
  | sh, w :: rest =>
    let (sh, fields) := fieldsOfWord outputOf sh w
    if sh.isDone then (sh, fields)
    else
      let (sh, more) := arguments sh rest
      (sh, fields ++ more)

/-- The arguments of a command that sets variables: one that looks like an
    assignment is not cut. -/
def declarations : Shell → List Word → Shell × List String
  | sh, [] => (sh, [])
  | sh, w :: rest =>
    let (sh, fields) := match assignment? w with
      | some (name, value) =>
        let (sh, s) := valueOf outputOf sh value
        (sh, [name ++ "=" ++ s])
      | none => fieldsOfWord outputOf sh w
    if sh.isDone then (sh, fields)
    else
      let (sh, more) := declarations sh rest
      (sh, fields ++ more)

end

end Supervisor.Host.Shell
