/-
  Formats: texts with places for arguments.

  * a `Directive` is a place in a format, and `Directive.write` an argument as
    the directive wants it;
  * `Format.write` writes arguments by a format, as often as there are
    arguments, and notes what is wrong with them (`Format.Problem`).
-/
import Supervisor.Host.Escape
import Supervisor.Host.Magnitude

namespace Supervisor.Host

/-- A place in a format for an argument. -/
structure Directive where
  flags : List Char
  width : Nat
  precision : Option Nat
  conversion : Char
  deriving DecidableEq

namespace Directive

/-- Bytes with blanks up to a width. -/
def pad (d : Directive) (bs : Bytes) : Bytes :=
  let fill := List.replicate (d.width - bs.length) (32 : UInt8)
  if d.flags.contains '-' then bs ++ fill else fill ++ bs

/-- A number with its sign or mark in front, and blanks or zeros up to a width. -/
def padNumber (d : Directive) (zeros : Bool) (front digits : List Char) : Bytes :=
  let count := d.width - front.length - digits.length
  if zeros && d.flags.contains '0' && !d.flags.contains '-' then
    Octets.encode (front ++ List.replicate count '0' ++ digits)
  else d.pad (Octets.encode (front ++ digits))

/-- The sign of a number. -/
def sign (d : Directive) (negative : Bool) : List Char :=
  if negative then ['-'] else if d.flags.contains '+' then ['+']
  else if d.flags.contains ' ' then [' '] else []

/-- Digits with zeros up to the least count; the number zero may have none. -/
def digits (d : Directive) (base n : Nat) : List Char :=
  match d.precision with
  | some 0 => if n = 0 then [] else Nat.toDigits base n
  | some p => let ds := Nat.toDigits base n; List.replicate (p - ds.length) '0' ++ ds
  | none => Nat.toDigits base n

/-- A whole number with its sign. -/
def signed (d : Directive) (n : Int) : Bytes :=
  d.padNumber d.precision.isNone (d.sign (n < 0)) (d.digits 10 n.natAbs)

/-- A whole number of 64 bits without a sign. -/
def unsigned (d : Directive) (n : Nat) : Bytes :=
  let marked := d.flags.contains '#'
  let zeros := d.precision.isNone
  match d.conversion with
  | 'o' =>
    let ds := d.digits 8 n
    d.padNumber zeros [] (if marked && ds.head? ≠ some '0' then '0' :: ds else ds)
  | 'x' => d.padNumber zeros (if marked && n ≠ 0 then "0x".toList else []) (d.digits 16 n)
  | 'X' =>
    d.padNumber zeros (if marked && n ≠ 0 then "0X".toList else [])
      ((d.digits 16 n).map Char.toUpper)
  | _ => d.padNumber zeros [] (d.digits 10 n)

/-- The number of places if none is given. -/
def standardPlaces : Nat := 6

/-- A number with a point; `extended` says that it is one of 80 bits. -/
def real (d : Directive) (extended negative : Bool) (r : Magnitude) : Bytes :=
  let places := d.precision.getD standardPlaces
  let pointed := d.flags.contains '#'
  let isCapital := d.conversion.isUpper
  let cased (cs : List Char) : List Char := if isCapital then cs.map Char.toUpper else cs
  let front := d.sign negative
  match r with
  | .infinite => d.pad (Octets.encode (front ++ cased "inf".toList))
  | .undefined => d.pad (Octets.encode (front ++ cased "nan".toList))
  | .fraction num den =>
    match d.conversion.toLower with
    | 'f' => d.padNumber true front (Magnitude.fixed pointed places num den)
    | 'e' => d.padNumber true front (cased (Magnitude.scientific pointed places num den))
    | 'g' => d.padNumber true front (cased (Magnitude.general pointed places num den))
    | _ =>
      let text := if extended then Magnitude.hexadecimal .extended 4 num den
        else Magnitude.hexadecimal .double 1 num den
      d.padNumber true (front ++ cased (text.take 2)) (cased (text.drop 2))

end Directive

namespace Format

/-- What can be wrong with an argument or a format. -/
inductive Problem where
  | notNumeric (arg : String)
  | partlyNumeric (arg : String)
  | outOfRange (arg : String)
  /-- more than a character stands behind a quote -/
  | ignored (rest : String)
  /-- the format does not say what is wanted -/
  | incomplete (directive : String)
  | invalid (directive : String)
  deriving DecidableEq

/-- What is written, in order. -/
inductive Part where
  | bytes (bs : Bytes)
  | problem (p : Problem)

/-- What an argument or a part of a format gives. -/
structure Written where
  parts : List Part := []
  /-- whether output goes on -/
  goes : Bool := true

/-- One piece of output and what follows it. -/
def Written.andThen (a b : Written) : Written := ⟨a.parts ++ b.parts, b.goes⟩

/-- How formats are written. -/
structure Dialect where
  /-- the escapes in a format -/
  format : Escapes
  /-- the escapes in an argument -/
  text : Escapes
  /-- numbers with a point have 80 bits -/
  extended : Bool

/-- The formats of a shell. -/
def Dialect.shell : Dialect := ⟨.shellFormat, .shellText, false⟩

/-- The formats of a program. -/
def Dialect.program : Dialect := ⟨.programFormat, .programText, true⟩

/-! ## Numbers -/

/-- The digits of a number at the start, without its sign, and the rest. -/
def magnitude (cs : List Char) : Option (Nat × List Char) :=
  let read (base : Nat) (isDigit : Char → Bool) (cs : List Char) : Nat × List Char :=
    let digits := cs.takeWhile isDigit
    (digitsValue base digits, cs.drop digits.length)
  match cs with
  | '0' :: x :: c :: rest =>
    if x.toLower = 'x' && isHex c then some (read 16 isHex (c :: rest)) else some (read 8 isOctal cs)
  | c :: rest =>
    if c = '0' then some (read 8 isOctal (c :: rest))
    else if c.isDigit then some (read 10 Char.isDigit (c :: rest))
    else none
  | [] => none

/-- What is wrong with an argument of which a rest is no number. -/
def problemsOf (arg rest : List Char) (inRange : Bool) : List Problem :=
  if rest ≠ [] then
    [if rest = arg then .notNumeric (String.ofList arg) else .partlyNumeric (String.ofList arg)]
  else if inRange then [] else [.outOfRange (String.ofList arg)]

/-- The character behind a quote, as a number. -/
def quotedValue (d : Dialect) (cs : List Char) : Nat × List Problem :=
  let ignored := if d.extended && 1 < cs.length then [Problem.ignored (String.ofList (cs.drop 1))]
    else []
  (((cs.head?.map Char.toNat).getD 0), ignored)

/-- The whole number that an argument stands for, within a range, and what is
    wrong with it. -/
def whole (d : Dialect) (least greatest : Int) (arg : List Char) : Int × List Problem :=
  let read (negative : Bool) (cs : List Char) : Int × List Problem :=
    match magnitude cs with
    | some (n, rest) =>
      let value : Int := if negative then -n else n
      -- without a sign a negative number is counted from the end of the range
      let wrapped := if least = 0 && value < 0 && -value ≤ greatest then value + greatest + 1 else value
      let clamped := if least = 0 && wrapped < 0 then greatest else max least (min greatest wrapped)
      (clamped, problemsOf arg rest (clamped = wrapped))
    | none => (0, problemsOf arg arg true)
  match arg with
  | '\x27' :: rest | '\x22' :: rest =>
    let (n, problems) := quotedValue d rest
    (n, problems)
  | arg =>
    match arg.dropWhile fun c => c = ' ' || ('\t' ≤ c && c ≤ '\r') with
    | '-' :: rest => read true rest
    | '+' :: rest => read false rest
    | cs => read false cs

/-- The number with a point that an argument stands for, and what is wrong with
    it. -/
def real (d : Dialect) (arg : List Char) : Bool × Magnitude × List Problem :=
  let p := if d.extended then Precision.extended else .double
  match arg with
  | '\x27' :: rest | '\x22' :: rest =>
    let (n, problems) := quotedValue d rest
    (false, .fraction n 1, problems)
  | arg =>
    match Magnitude.read arg with
    | some (negative, r, rest) =>
      let rounded := r.round p
      (negative, rounded, problemsOf arg rest (r = .infinite || rounded ≠ .infinite))
    | none => (false, .fraction 0 1, problemsOf arg arg true)

/-! ## Directives -/

/-- The arguments of a format, from the next one on. -/
abbrev Args := List String

/-- A number in a directive: spelled out, or the next argument; the problems with
    it, the rest of the format and the arguments that are left. -/
def count (d : Dialect) (cs : List Char) (args : Args) : Option Int × List Problem × List Char × Args :=
  match cs with
  | '*' :: rest =>
    let (n, problems) := whole d (-2147483648) 2147483647 (args.head?.getD "").toList
    (some n, problems, rest, args.drop 1)
  | cs =>
    let digits := cs.takeWhile Char.isDigit
    (if digits = [] then none else some (digitsValue 10 digits), [], cs.drop digits.length, args)

/-- The directive behind a percent sign, with the problems of its numbers, the
    text of it, the rest and the arguments that are left.  A conversion that is
    missing is `none`. -/
def directive (d : Dialect) (cs : List Char) (args : Args) :
    Option Directive × List Problem × List Char × List Char × Args :=
  let flags := cs.takeWhile fun c => "-+ #0".toList.contains c
  let (width, p₁, rest, args) := count d (cs.drop flags.length) args
  let (precision, p₂, rest, args) := match rest with
    | '.' :: rest =>
      let (n, problems, rest, args) := count d rest args
      (some (n.getD 0), problems, rest, args)
    | rest => (none, [], rest, args)
  let width := width.getD 0
  let flags := if width < 0 then '-' :: flags else flags
  let precision := (precision.filter (0 ≤ ·)).map Int.toNat
  let spelled (rest : List Char) : List Char := '%' :: cs.take (cs.length - rest.length)
  match rest with
  | [] => (none, p₁ ++ p₂, spelled [], [], args)
  | c :: rest => (some ⟨flags, width.natAbs, precision, c⟩, p₁ ++ p₂, spelled rest, rest, args)

/-- The smallest and the greatest number of 64 bits with a sign. -/
def signedRange : Int × Int := (-Int.pow 2 63, Int.pow 2 63 - 1)

/-- The greatest number of 64 bits without a sign. -/
def unsignedGreatest : Int := Int.pow 2 64 - 1

/-- An argument by a directive. -/
def convert (d : Dialect) (x : Directive) (spelled : List Char) (arg : List Char) : Written :=
  let noted (problems : List Problem) (bs : Bytes) : Written :=
    { parts := problems.map .problem ++ [.bytes bs] }
  let cut (bs : Bytes) : Bytes := (x.precision.map fun p => bs.take p).getD bs
  match x.conversion with
  | 's' => noted [] (x.pad (cut (Octets.encode arg)))
  | 'c' => noted [] (x.pad [((arg.head?.map Octets.byte).getD 0)])
  | 'b' =>
    let (bs, goes) := unescape d.text arg
    { noted [] (x.pad (cut bs)) with goes }
  | 'd' | 'i' =>
    let (n, problems) := whole d signedRange.1 signedRange.2 arg
    noted problems (x.signed n)
  | 'o' | 'u' | 'x' | 'X' =>
    let (n, problems) := whole d 0 unsignedGreatest arg
    noted problems (x.unsigned n.toNat)
  | 'e' | 'E' | 'f' | 'F' | 'g' | 'G' | 'a' | 'A' =>
    let (negative, r, problems) := real d arg
    noted problems (x.real d.extended negative r)
  | _ => { parts := [.problem (.invalid (String.ofList spelled))], goes := false }

/-! ## Formats -/

/-- Once through a format: what is written, and the arguments that are left. -/
def pass (d : Dialect) : Nat → List Char → Args → Written × Args
  | 0, _, args => ({}, args)
  | _, [], args => ({}, args)
  | fuel + 1, '%' :: '%' :: rest, args =>
    let (w, args) := pass d fuel rest args
    (Written.andThen { parts := [.bytes [37]] } w, args)
  | fuel + 1, '%' :: rest, args =>
    let (x, problems, spelled, rest, args) := directive d rest args
    let before : Written := { parts := problems.map .problem }
    match x with
    | none =>
      (before.andThen
        { parts := [.problem (.incomplete (String.ofList spelled))], goes := false }, [])
    | some x =>
      let written := convert d x spelled (args.head?.getD "").toList
      if written.goes then
        let (w, args) := pass d fuel rest (args.drop 1)
        ((before.andThen written).andThen w, args)
      else (before.andThen written, [])
  | fuel + 1, '\\' :: rest, args =>
    match escape d.format rest with
    | none => ({ goes := false }, [])
    | some (bs, rest) =>
      let (w, args) := pass d fuel rest args
      (Written.andThen { parts := [.bytes bs] } w, args)
  | fuel + 1, c :: rest, args =>
    let (w, args) := pass d fuel rest args
    (Written.andThen { parts := [.bytes [Octets.byte c]] } w, args)

/-- Through a format again and again, while there are arguments and it takes
    some; the arguments that it does not take. -/
def passes (d : Dialect) (cs : List Char) : Nat → Args → Written × Args
  | 0, args => ({}, args)
  | fuel + 1, args =>
    let (w, left) := pass d (cs.length + 1) cs args
    if w.goes ∧ left ≠ [] ∧ left.length < args.length then
      let (more, left) := passes d cs fuel left
      (w.andThen more, left)
    else (w, left)

/-- Arguments written by a format, and those that it does not take. -/
def write (d : Dialect) (cs : String) (args : List String) : Written × Args :=
  passes d cs.toList (args.length + 1) args

end Format

end Supervisor.Host
