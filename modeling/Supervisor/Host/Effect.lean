/-
  What the small programs of a host do.

  * an `Effect` is what a program does: what it writes and reads, how it ends,
    how long it takes, and how it changes files;
  * a `Place` is where it runs: a working directory, what can be read, and the
    environment;
  * a `Voice` is how it speaks of what is wrong.
-/
import Supervisor.Host.Files

namespace Supervisor.Host

/-- How much of the input a program reads. -/
inductive Reading where
  | nothing
  /-- so many bytes -/
  | upTo (count : Nat)
  | all
  /-- all, and it passes it on as it comes -/
  | along
  deriving DecidableEq

/-- What a small program does. -/
structure Effect where
  /-- what it writes, and to which descriptor -/
  writes : List (Nat × Bytes) := []
  reads : Reading := .nothing
  code : Nat := 0
  /-- how long it takes; `none` is for ever -/
  lasts : Option Nat := some 0
  /-- it goes on writing as long as somebody reads -/
  endless : Bool := false
  /-- the working directory, if files were changed -/
  here : Option Trail := none

namespace Effect

/-- Write to the standard output. -/
def print (bs : Bytes) : Effect := { writes := [(1, bs)] }

/-- Write to the standard output and to the standard error. -/
def both (out err : Bytes) (code : Nat) : Effect := { writes := [(2, err), (1, out)], code }

/-- What is written to the standard output. -/
def out (e : Effect) : Bytes := e.writes.flatMap fun (fd, bs) => if fd = 1 then bs else []

/-- Two effects one after the other; the greater code counts. -/
def andThen (a b : Effect) : Effect where
  writes := a.writes ++ b.writes
  reads := if a.reads = .nothing then b.reads else a.reads
  code := max a.code b.code
  lasts := do return (← a.lasts) + (← b.lasts)
  endless := a.endless || b.endless
  here := b.here.or a.here

/-- Effects one after the other. -/
def all (es : List Effect) : Effect := es.foldl andThen {}

/-- Writes with those to the same descriptor in a row joined. -/
def joinedWrites (writes : List (Nat × Bytes)) : List (Nat × Bytes) :=
  writes.foldr (fun (fd, bs) rest =>
    match rest with
    | (fd', more) :: rest' => if fd = fd' then (fd, bs ++ more) :: rest' else (fd, bs) :: rest
    | [] => [(fd, bs)]) []

/-- An effect that writes in as few steps as it can. -/
def joined (e : Effect) : Effect := { e with writes := joinedWrites e.writes }

end Effect

/-- Where a program runs. -/
structure Place where
  here : Trail
  /-- what can be read -/
  input : Bytes := []
  /-- why nothing can be read -/
  inputFault : Option Fault := none
  /-- it is a file -/
  inputIsFile : Bool := false
  env : List (String × String) := []

namespace Utility

/-- A text as bytes, with a newline. -/
def line (s : String) : Bytes := Octets.bytes s ++ [10]

/-- Where the use of a program is explained. -/
def hint (program : String) : String :=
  "Try '" ++ program ++ " --help' for more information."

/-- The text of a failure without its number. -/
def faultText (f : Fault) : String :=
  match f with
  | .system code => (systemTexts.lookup code).getD ""
  | f => f.message

end Utility

/-- Who carries out a small program: a shell or a process of its own, which
    differ in details. -/
structure Voice where
  inShell : Bool
  /-- how its complaints begin -/
  who : String

namespace Voice

/-- A line of a complaint. -/
def line (v : Voice) (s : String) : Bytes := Utility.line (v.who ++ ": " ++ s)

/-- A complaint. -/
def complain (v : Voice) (code : Nat) (s : String) : Effect :=
  { writes := [(2, v.line s)], code }

/-- A complaint that says where the use of the program is explained. -/
def refuse (v : Voice) (code : Nat) (s : String) : Effect :=
  v.complain code (s ++ "\n" ++ Utility.hint v.who)

end Voice

/-- A small program: what it does with its arguments at a place. -/
abbrev Tool := Voice → Place → List String → Effect

end Supervisor.Host
