/-
  Redirections.

  * `Shell.redirect` points descriptors to files, to other descriptors and to
    texts of the script, or says why that fails;
  * `Shell.backFrom` points them back behind a command.
-/
import Supervisor.Host.Shell.Expand

namespace Supervisor.Host.Shell

/-- What is said of a file that cannot be opened: the words for one that is not
    there differ. -/
def openFault (missing : String) (f : Fault) : String :=
  if f = .noSuchFile ∨ f = .notDirectory then missing else Utility.faultText f

/-- A file of that name is there already. -/
def existsFault : Fault := .system 17

/-- Point a descriptor to where another one leads. -/
def share (sh : Shell) (fd source : Nat) : Except Fault Shell :=
  match sh.descriptors.lookup source with
  | some t => .ok (sh.point fd (some t))
  | none => .error badDescriptor

/-- Point a descriptor to a file that is read. -/
def openInput (sh : Shell) (fd : Nat) (path : String) : Except Fault Shell :=
  match sh.here.find path.toList with
  | .error f => .error f
  | .ok .null => .ok (sh.point fd (some .null))
  | .ok (.descriptor n) => (sh.share fd n).mapError fun _ => .noSuchFile
  | .ok .terminal => .error .noDevice
  | .ok (.directory _) => .ok (sh.open_ fd (.supply {}))
  | .ok e => do return sh.open_ fd (.supply (.ofBytes (← e.content)))

/-- Point a descriptor to a file that is written. -/
def openOutput (sh : Shell) (fd : Nat) (opening : Opening) (path : String) : Except Fault Shell :=
  let openedAs (content : Bytes) (executable : Bool) : Except Fault Shell := do
    let names ← sh.here.placeOf path.toList
    let kept := if opening = .emptied || opening = .forced then [] else content
    return { sh with here := sh.here.put names (.file kept executable) }.open_ fd
      (.file names 0 (opening == Opening.extended))
  match sh.here.find path.toList with
  | .ok (.directory _) => .error .isDirectory
  | .ok (.file content executable) =>
    if opening = .emptied && sh.isOn 'C' then .error existsFault else openedAs content executable
  | .ok .full => .ok (sh.point fd (some .full))
  | .ok (.descriptor n) => (sh.share fd n).mapError fun _ => .noSuchFile
  | .ok .terminal => .error .noDevice
  | .ok _ => .ok (sh.point fd (some .null))
  | .error .nameTooLong => .error .nameTooLong
  | .error _ => openedAs [] false

/-- Point a descriptor to or from a file. -/
def openFile (sh : Shell) (fd : Nat) (opening : Opening) (path : String) : Except String Shell :=
  match opening with
  | .reading =>
    (sh.openInput fd path).mapError fun f => "cannot open " ++ path ++ ": " ++ openFault "No such file" f
  | opening =>
    (sh.openOutput fd opening path).mapError fun f =>
      "cannot create " ++ path ++ ": " ++ openFault "Directory nonexistent" f

/-- A redirection whose words are expanded. -/
inductive Redirected where
  | file (fd : Nat) (opening : Opening) (path : String)
  /-- without a source the descriptor is closed -/
  | duplicate (fd : Nat) (source : Option Nat)
  | text (fd : Nat) (bs : Bytes)

/-- The words of a redirection, expanded. -/
def expandRedirect (outputOf : OutputOf) (sh : Shell) : Redirect → Shell × Option Redirected
  | .file fd opening w =>
    let (sh, path) := textOf outputOf sh w
    (sh, some (.file fd opening path))
  | .document fd body =>
    let (sh, segments) := expandPieces outputOf ⟨false, false⟩ sh body
    (sh, some (.text fd (Octets.bytes (joined segments))))
  | .duplicate fd w =>
    let (sh, source) := textOf outputOf sh w
    if sh.isDone then (sh, none)
    else match source.toList with
      | ['-'] => (sh, some (.duplicate fd none))
      | [c] =>
        if c.isDigit then (sh, some (.duplicate fd (some (digitValue c))))
        else (sh.fail "Syntax error: Bad fd number", none)
      | _ => (sh.fail "Syntax error: Bad fd number", none)

/-- The words of some redirections, expanded. -/
def expandRedirects (outputOf : OutputOf) : Shell → List Redirect → Shell × List Redirected
  | sh, [] => (sh, [])
  | sh, r :: rest =>
    let (sh, first) := expandRedirect outputOf sh r
    if sh.isDone then (sh, [])
    else
      let (sh, more) := expandRedirects outputOf sh rest
      (sh, first.toList ++ more)

/-- The descriptor for complaints. -/
def errorDescriptor : Nat := 2

/-- Carry out a redirection.  Where it fails it says why, unless it is about the
    descriptor for complaints, which is closed then. -/
def redirectOne (sh : Shell) : Redirected → Except (Option String) Shell
  | .file fd opening path => (sh.openFile fd opening path).mapError some
  | .text fd bs => .ok (sh.open_ fd (.supply { Supply.ofBytes bs with isFile := false }))
  | .duplicate fd none => .ok (sh.point fd none)
  | .duplicate fd (some source) =>
    if fd = source then .ok sh
    else (sh.share fd source).mapError fun f =>
      if fd = errorDescriptor then none
      else some (toString source ++ ": " ++ Utility.faultText f)

/-- Point some descriptors back to where they led before. -/
def backFrom (fds : List Nat) (old sh : Shell) : Shell :=
  fds.foldl (fun sh fd => sh.point fd (old.descriptors.lookup fd)) sh

/-- Carry out redirections; whether they all succeed.  Where one fails, the
    descriptors lead to where they led before. -/
def redirectAll (old : Shell) : Shell → List Redirected → Shell × Bool
  | sh, [] => (sh, true)
  | sh, r :: rest =>
    match sh.redirectOne r with
    | .ok sh => redirectAll old sh rest
    | .error why =>
      let sh := (why.map fun text => sh.complain 2 text).getD sh
      ({ sh with descriptors := old.descriptors }.setStatus 2, false)

/-- Carry out redirections; whether they all succeed. -/
def redirect (outputOf : OutputOf) (sh : Shell) (rs : List Redirect) : Shell × Bool :=
  if rs.isEmpty then (sh, true)
  else
    let (sh, redirected) := expandRedirects outputOf sh rs
    if sh.isDone then (sh, false) else redirectAll sh sh redirected

end Supervisor.Host.Shell
