/-
  Characters that could steer the terminal which shows a text.

  * `disarm` spells them out: bell, backspace, form feed, escape and delete by
    two hexadecimal digits, the controls from 80 to 9f by their code point.
    Tabs, carriage returns and the other controls stay;
  * `strip` and `stripStream` leave them out, together with the rest of the
    sequences that an escape begins.  Only the controls that make blanks or
    lines stay.
-/
import Supervisor.Text.Quoted
import Supervisor.Text.Utf8

namespace Supervisor.Text

/-- The controls that are spelled with two digits. -/
def steering : List (Char × List Char) :=
  [('\x07', ['0', '7']), ('\x08', ['0', '8']), ('\x0c', ['0', 'c']), ('\x1b', ['1', 'b']),
    ('\x7f', ['7', 'f'])]

/-- One character of disarmed text. -/
def disarmChar (c : Char) : List Char :=
  match steering.lookup c with
  | some digits => '\\' :: 'x' :: digits
  | none => if 0x80 ≤ c.toNat ∧ c.toNat ≤ 0x9F then codePoint c else [c]

/-- A text that cannot steer a terminal. -/
def disarm (s : String) : String := String.ofList (s.toList.flatMap disarmChar)

/-! ## Sequences -/

/-- Where a text stands in a sequence. -/
inductive Sequence where
  | outside
  /-- behind an escape -/
  | escape
  /-- behind an escape and marks -/
  | marked
  /-- behind an escape and a bracket, before the letter that ends it -/
  | control
  /-- in a title, which a bell ends -/
  | title
  /-- in a string for a device, before its data -/
  | device
  /-- in a string that a terminator ends -/
  | string
  /-- in a text that interrupts a sequence -/
  | paused (inner : Sequence)
  deriving DecidableEq

/-- Whether a control makes a blank or a line. -/
def isSpacingControl (c : Char) : Bool := c = '\t' || c = '\n' || c = '\x0c' || c = '\r'

/-- Whether a character is a control of ASCII. -/
def isControl (c : Char) : Bool := c.toNat < 0x20 || c.toNat = 0x7F

/-- Whether a byte behind the first one of a character is a terminator. -/
def endsString (c : Char) : Bool := ((Utf8.encodeChar c).drop 1).contains 0x9C

namespace Sequence

/-- The place behind a character of ASCII that is no control. -/
def next : Sequence → Char → Sequence
  | .outside, _ | .paused _, _ => .outside
  | .escape, c =>
    if c = '[' then .control
    else if c = ']' then .title
    else if c = 'P' then .device
    else if c = 'X' || c = '^' || c = '_' then .string
    else if c.toNat < 0x30 then .marked
    else .outside
  | .marked, c => if c.toNat < 0x30 then .marked else .outside
  | .control, c => if c.toNat < 0x40 then .control else .outside
  | .device, c => if c.toNat < 0x40 then .device else .string
  | s, _ => s

/-- The place in a sequence behind a character that cannot begin or end one by
    itself, and whether the character is shown.  A blank interrupts the
    sequence, for good unless it `lingers`. -/
def within (lingers : Bool) (s : Sequence) (c : Char) : Sequence × Bool :=
  if 0x80 ≤ c.toNat then (if s = .string && endsString c then .outside else s, false)
  else if !isControl c then (s.next c, false)
  else match s with
    | .title => (if c = '\x07' then .outside else s, false)
    | .device | .string => (s, false)
    | s =>
      if isSpacingControl c then (if lingers then .paused s else .outside, true) else (s, false)

/-- The place behind a character, and whether the character is shown. -/
def step (lingers : Bool) (s : Sequence) (c : Char) : Sequence × Bool :=
  if c = '\x1b' then (.escape, false)
  else if c = '\x18' || c = '\x1a' then (.outside, false)
  else match s with
    | .outside => (.outside, !isControl c || isSpacingControl c)
    | .paused inner =>
      if 0x80 ≤ c.toNat then (.outside, true)
      else if !isControl c || isSpacingControl c then (s, true)
      else inner.within lingers c
    | s => s.within lingers c

end Sequence

/-- The characters of a text that are shown, from a place in a sequence. -/
def stripFrom (lingers : Bool) : Sequence → List Char → List Char
  | _, [] => []
  | s, c :: cs =>
    let (s, shown) := s.step lingers c
    if shown then c :: stripFrom lingers s cs else stripFrom lingers s cs

/-- A text without sequences. -/
def strip (s : String) : String := String.ofList (stripFrom false .outside s.toList)

/-- A text without sequences as it is written to a stream, where one that a blank
    interrupts goes on behind the next control. -/
def stripStream (s : String) : String := String.ofList (stripFrom true .outside s.toList)

/-- A text that is made to stand out on a terminal. -/
def colored (s : String) : String := "\x1b[33m" ++ s ++ "\x1b[0m"

end Supervisor.Text
