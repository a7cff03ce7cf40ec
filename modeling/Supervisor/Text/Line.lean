/-
  Lines of text.

  * `lines` splits a text at its line feeds;
  * `firstLine` is its first line, without the carriage return that may end it.
-/

namespace Supervisor.Text

/-- The lines of some characters: one more than there are line feeds. -/
def lines : List Char → List (List Char)
  | [] => [[]]
  | c :: cs =>
    match lines cs with
    | [] => [[c]]
    | line :: more => if c = '\n' then [] :: line :: more else (c :: line) :: more

/-- A line without the carriage return that may end it. -/
def dropReturn (line : List Char) : List Char :=
  if line.getLast? = some '\r' then line.dropLast else line

/-- The first line of a text. -/
def firstLine (s : String) : String :=
  match lines s.toList with
  | [] => ""
  -- a carriage return belongs to a line end, which the last line has not
  | [line] => String.ofList line
  | line :: _ => String.ofList (dropReturn line)

end Supervisor.Text
