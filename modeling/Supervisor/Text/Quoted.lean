/-
  Quoted text: a string between double quotes in which every character can be
  told apart on the page.

  * `quote` writes a string that way: quote and backslash get a backslash, the
    usual controls their short form, and any other character that has no
    printed form of its own or would attach to its neighbour its code point;
  * `quoteList` writes a list of strings between brackets.
-/
import Supervisor.Text.Combining
import Supervisor.Text.Unprintable

namespace Supervisor.Text

/-- Whether a code point lies in one of the ranges. -/
def inRanges (ranges : List (Nat × Nat)) (n : Nat) : Bool :=
  ranges.any fun (lo, hi) => decide (lo ≤ n ∧ n ≤ hi)

/-- Whether a character stands for itself in quoted text. -/
def isPlain (c : Char) : Bool :=
  !inRanges combiningRanges c.toNat && !inRanges unprintableRanges c.toNat

/-- The code point form of a character, such as `\u` and `7f` in braces. -/
def codePoint (c : Char) : List Char :=
  "\\u\x7b".toList ++ Nat.toDigits 16 c.toNat ++ ['\x7d']

/-- One character of quoted text. -/
def quoteChar (c : Char) : List Char :=
  if c = '"' then ['\\', '"']
  else if c = '\\' then ['\\', '\\']
  else if c = '\n' then ['\\', 'n']
  else if c = '\r' then ['\\', 'r']
  else if c = '\t' then ['\\', 't']
  else if c = Char.ofNat 0 then ['\\', '0']
  else if isPlain c then [c]
  else codePoint c

/-- A string as quoted text. -/
def quote (s : String) : String :=
  String.ofList ('"' :: s.toList.flatMap quoteChar ++ ['"'])

/-- A list of strings as quoted text. -/
def quoteList (ss : List String) : String :=
  "[" ++ ", ".intercalate (ss.map quote) ++ "]"

end Supervisor.Text
