/-
  Dates and times.

  * `Moment.isValid` holds of a date, a time, or a date and a time with or
    without an offset.  Seconds may be left out, and a second may be the
    sixtieth; a date must be in the calendar.  A document's dates are never
    looked into, so only their validity is kept.
-/

namespace Supervisor.Toml.Moment

/-- The number of exactly `k` digits at the start of a text. -/
def number? (k : Nat) (cs : List Char) : Option (Nat × List Char) :=
  let ds := cs.take k
  if ds.length = k ∧ ds.all Char.isDigit then
    some (ds.foldl (fun n c => n * 10 + (c.toNat - '0'.toNat)) 0, cs.drop k)
  else none

/-- The text behind a character. -/
def skip? (c : Char) : List Char → Option (List Char)
  | d :: rest => if c = d then some rest else none
  | [] => none

/-- How many days a month has. -/
def daysIn (year month : Nat) : Nat :=
  if month = 2 then
    if year % 4 = 0 ∧ (year % 100 ≠ 0 ∨ year % 400 = 0) then 29 else 28
  else if month = 4 ∨ month = 6 ∨ month = 9 ∨ month = 11 then 30
  else 31

/-- The text behind a date. -/
def date? (cs : List Char) : Option (List Char) := do
  let (year, cs) ← number? 4 cs
  let (month, cs) ← number? 2 (← skip? '-' cs)
  let (day, cs) ← number? 2 (← skip? '-' cs)
  if 1 ≤ month ∧ month ≤ 12 ∧ 1 ≤ day ∧ day ≤ daysIn year month then some cs else none

/-- The text behind a fraction of a second, which may be absent. -/
def fraction? : List Char → Option (List Char)
  | '.' :: rest => if rest.takeWhile Char.isDigit = [] then none else some (rest.dropWhile Char.isDigit)
  | cs => some cs

/-- The text behind a time. -/
def time? (cs : List Char) : Option (List Char) := do
  let (hour, cs) ← number? 2 cs
  let (minute, cs) ← number? 2 (← skip? ':' cs)
  if 23 < hour ∨ 59 < minute then none
  match skip? ':' cs with
  | none => some cs
  | some cs =>
    let (second, cs) ← number? 2 cs
    if 60 < second then none else fraction? cs

/-- Whether a text is an offset, which may be absent. -/
def isOffset : List Char → Bool
  | [] => true
  | ['Z'] | ['z'] => true
  | c :: rest =>
    (c = '+' || c = '-') && (do
      let (hours, cs) ← number? 2 rest
      let (minutes, cs) ← number? 2 (← skip? ':' cs)
      if hours ≤ 23 ∧ minutes ≤ 59 ∧ cs = [] then some () else none : Option Unit).isSome

/-- Whether a text is a date, a time, or both. -/
def isValid (cs : List Char) : Bool :=
  match date? cs with
  | some [] => true
  | some (c :: rest) =>
    (c = 'T' || c = 't' || c = ' ') && (match time? rest with
      | some offset => isOffset offset
      | none => false)
  | none => time? cs = some []

end Supervisor.Toml.Moment
