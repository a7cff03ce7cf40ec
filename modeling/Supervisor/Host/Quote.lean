/-
  Names between quotes, as the programs of a host write them in complaints.

  * `Quote.escaped` puts a text between quotes, and reads as one line;
  * `Quote.forShell` puts a name between quotes so that a shell reads it back,
    and `Quote.asNeeded` does so only if the name would be read differently
    without them.
-/
import Supervisor.Host.Octets

namespace Supervisor.Host.Quote

/-- The escapes that have a letter of their own. -/
def letters : List (UInt8 × Char) :=
  [(7, 'a'), (8, 'b'), (9, 't'), (10, 'n'), (11, 'v'), (12, 'f'), (13, 'r')]

/-- Whether a byte can be shown. -/
def isShown (b : UInt8) : Bool := 32 ≤ b && b < 127

/-- A byte that can be shown. -/
def shown (b : UInt8) : Char := Char.ofNat b.toNat

/-- A byte that cannot be shown, as an escape. -/
def escape (b : UInt8) : List Char :=
  let octal (n : Nat) : Char := Char.ofNat (48 + n % 8)
  match letters.lookup b with
  | some c => ['\\', c]
  | none => ['\\', octal (b.toNat / 64), octal (b.toNat / 8), octal b.toNat]

/-- A text between quotes, with escapes in it. -/
def escaped (s : String) : String :=
  let one (b : UInt8) : List Char :=
    if !isShown b then escape b
    else if shown b = '\'' ∨ shown b = '\\' then ['\\', shown b]
    else [shown b]
  String.ofList (['\''] ++ (Octets.bytes s).flatMap one ++ ['\''])

/-- Whether a shell takes a character for itself, wherever it stands in a word. -/
def isPlain (c : Char) : Bool :=
  c.isAlphanum || "%+,-./:@]_{}#~".toList.contains c

/-- Whether a word stands for itself in a shell. -/
def isPlainWord (cs : List Char) : Bool :=
  cs.all isPlain && cs ≠ [] && cs ≠ ['{'] && cs ≠ ['}'] &&
    !(cs.head? = some '#' || cs.head? = some '~')

/-- Whether a character can stand between double quotes. -/
def fitsDouble (c : Char) : Bool :=
  c.isAlphanum || "%+,-./:@]_ '".toList.contains c

/-- Whether a name can stand between double quotes. -/
def isDoubleWord : List Char → Bool
  | c :: rest => (fitsDouble c || c = '#' || c = '~') && rest.all fitsDouble
  | [] => true

/-- A name between single quotes.  What cannot be shown stands between quotes
    of another kind; the flag tells whether these are open. -/
def single : Bool → Bytes → List Char
  | _, [] => ['\'']
  | isOpen, b :: rest =>
    if !isShown b then (if isOpen then [] else "'$'".toList) ++ escape b ++ single true rest
    else if shown b = '\'' then "'\\''".toList ++ single false rest
    else (if isOpen then ['\'', '\''] else []) ++ shown b :: single false rest

/-- A name between quotes, for a shell. -/
def forShell (name : String) : String :=
  if name.toList.contains '\'' && isDoubleWord name.toList then "\"" ++ name ++ "\""
  else String.ofList ('\'' :: single false (Octets.bytes name))

/-- A name as a complaint begins with it: between quotes if it has to be, or if
    it could be taken for more of the complaint. -/
def asNeeded (name : String) : String :=
  if isPlainWord name.toList && !name.toList.contains ':' then name else forShell name

end Supervisor.Host.Quote
