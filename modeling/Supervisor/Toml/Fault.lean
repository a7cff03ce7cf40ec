/-
  What can be wrong with a TOML document.

  * `Mismatch` is a value of the wrong type or outside the range of a setting,
    with its text;
  * `Fault` is anything wrong with a document.  Only some faults have a text
    that is promised (`Fault.message?`).
-/

namespace Supervisor.Toml

/-- What was found where something else was expected. -/
inductive Found where
  | boolean (b : Bool)
  | integer (n : Int)
  /-- an integer that takes more than 64 bits -/
  | wideInteger (n : Int)
  /-- a number with a point, by its text -/
  | float (text : String)
  /-- a text, as it is quoted -/
  | text (quoted : String)
  | array
  | table
  deriving DecidableEq

/-- What was found, in words. -/
def Found.words : Found → String
  | boolean b => "boolean `" ++ (if b then "true" else "false") ++ "`"
  | integer n => "integer `" ++ toString n ++ "`"
  | wideInteger n =>
    "integer `" ++ toString n ++ "` as " ++ (if n < Int.pow 2 127 then "i128" else "u128")
  | float digits => "floating point `" ++ digits ++ "`"
  | text quoted => "string " ++ quoted
  | array => "sequence"
  | table => "map"

/-- A value that does not fit. -/
inductive Mismatch where
  /-- a value of the wrong type -/
  | wrongType (found : Found) (expected : String)
  /-- a value outside the range -/
  | wrongValue (found : Found) (expected : String)
  deriving DecidableEq

/-- The text of a mismatch. -/
def Mismatch.message : Mismatch → String
  | wrongType found expected => "invalid type: " ++ found.words ++ ", expected " ++ expected
  | wrongValue found expected => "invalid value: " ++ found.words ++ ", expected " ++ expected

/-- What is wrong with a document. -/
inductive Fault where
  /-- it is not TOML -/
  | malformed
  /-- an escape names a number that is no character -/
  | noCharacter
  /-- a number is too large for any type, or its digits make no number -/
  | outOfRange
  /-- a value does not fit the setting it is for -/
  | mismatch (m : Mismatch)
  deriving DecidableEq

/-- The promised text of a fault. -/
def Fault.message? : Fault → Option String
  | malformed | outOfRange => none
  | noCharacter => some "invalid value, expected unicode hexadecimal value"
  | mismatch m => some m.message

end Supervisor.Toml
