/-
  Launching a child on a host.

  * `Host.launch` says why a launch fails, or how the child behaves: it changes
    to the working directory, finds the program, and runs it;
  * `Host.environmentOf` is the environment that a host gives to a supervisor.
-/
import Supervisor.Host.Shell.Eval
import Supervisor.Launch

namespace Supervisor.Host

/-- The variables that every child inherits. -/
def inherited : List (String × String) :=
  [("PATH", "/usr/local/sbin:/usr/local/bin:/usr/sbin:/usr/bin:/sbin:/bin"), ("HOME", "/root")]

/-- Add a variable; a later one of the same name wins. -/
def addVariable (env : List (String × String)) (v : String × String) : List (String × String) :=
  v :: env.filter (·.1 ≠ v.1)

/-- A variable as a program reads it, whose name ends at the first equals
    sign. -/
def readVariable (v : String × String) : String × String :=
  let text := (v.1 ++ "=" ++ v.2).toList
  let name := text.takeWhile (· ≠ '=')
  (String.ofList name, String.ofList (text.drop (name.length + 1)))

/-- The environment of a child, by name. -/
def environOf (spec : LaunchSpec) : List (String × String) :=
  let given := (spec.options.env.foldl addVariable inherited).mergeSort fun a b => a.1 ≤ b.1
  (given.foldl (fun env v => addVariable env (readVariable v)) []).reverse.map fun (name, value) =>
    (Octets.ofString name, Octets.ofString value)

/-- Whether a text holds U+0000. -/
def hasNul (s : String) : Bool := s.toList.contains (Char.ofNat 0)

/-- All texts that are handed over in a launch. -/
def texts (spec : LaunchSpec) : List String :=
  spec.command ++ spec.options.env.flatMap (fun (k, v) => [k, v]) ++ spec.options.workingDir.toList

/-- What a program gets, each as one text: its arguments, and its variables. -/
def handedOver (spec : LaunchSpec) : List String :=
  spec.command ++ spec.options.env.map fun (k, v) => k ++ "=" ++ v

/-- The longest text that a program can be handed, in bytes. -/
def textLimit : Nat := 131071

/-- How much a program can be handed in all, in bytes. -/
def totalLimit : Nat := 2097152

/-- What one text takes beside its bytes: a final zero, and an address. -/
def textOverhead : Nat := 9

/-- Whether a launch hands over too much. -/
def isOversized (spec : LaunchSpec) : Bool :=
  let sizes := (handedOver spec).map fun t => (Utf8.ofString t).length
  sizes.any (textLimit < ·) || totalLimit < (sizes.map (· + textOverhead)).foldl Nat.add 0

/-- The working directory of a launch. -/
def workingDir (here : Trail) (spec : LaunchSpec) : Except Fault Trail :=
  match spec.options.workingDir with
  | none => .ok here
  | some dir => do
    let t ← here.resolve (Octets.ofString dir).toList
    if t.entry.any Entry.isDirectory then return t else .error .notDirectory

/-- The pid of the child in its own scripts. -/
def rootPid : Nat := 4711

/-- How long it takes until a launched program runs. -/
def startDelay : Nat := 1

/-- How deep scripts may nest and repeat. -/
def scriptFuel : Nat := 20000

/-- When the child started the one at the end of a lineage, or an ancestor of
    it. -/
def since (lineage : List Descent) : Option Nat :=
  (lineage.find? (·.parent = rootPid)).map Descent.time

/-- What a process that ran writes to a stream, and who holds it open. -/
def sourceOf (root : Shell) (s : Stream) : Source where
  arrivals :=
    (root.emissions.reverse.filter (·.channel = .stream s)).mergeSort (fun a b => a.time ≤ b.time)
    |>.map fun e => ⟨e.time, .data e.data, since e.lineage⟩
  ownHold := root.heldUntil (.stream s)
  holders := (root.holds.filter (·.channel = .stream s)).map fun h =>
    ⟨(since h.lineage).getD 0, h.release⟩

/-- When and how a process that ran ended. -/
def exitOf (root : Shell) : Option (Nat × WaitStatus) :=
  match root.halt with
  | some (.status s) => some (root.now, s)
  | _ => none

/-- A process that ran, as the one who launched it sees it. -/
def processOf (root : Shell) : Process where
  output := ⟨sourceOf root .out, sourceOf root .err⟩
  exit := exitOf root

/-- Let a process run to its end, where its processes get the signals that they
    send to each other: those that are known are taken for the ones that they
    send, until that is right.  The number bounds how often. -/
def settle (run : List Request → Shell) : Nat → List Request → Shell
  | 0, known => run known
  | tries + 1, known =>
    let root := run known
    if root.sent = known then root else settle run tries root.sent

/-- How often a process is run to find out which signals are sent. -/
def settleTries : Nat := 8

/-- Launch a child at a time, and let it run to its end.  What it writes may be
    read for some time only. -/
def play (here : Trail) (spec : LaunchSpec) (now : Nat) (unread : Option Nat) :
    Except Fault Shell := do
  if (texts spec).any hasNul then .error .nulInLaunch
  let env := environOf spec
  let dir ← workingDir here spec
  let words := spec.command.map Octets.ofString
  let name := Octets.ofString spec.program
  let custom := spec.options.env.any (·.1 = "PATH") && !spec.program.toList.contains '/'
  let program ← locate dir custom (isOversized spec) (env.lookup "PATH") name
  let run (known : List Request) : Shell :=
    let shell : Shell :=
      { now := now + startDelay
        started := now
        unread
        pid := rootPid
        shellPid := rootPid
        nextPid := rootPid + 1
        here := dir
        known
        requests := known.filter (·.target = rootPid) }
    (shell.withEnviron env).execute scriptFuel name program (words.drop 1)
  return settle run settleTries []

/-- Launch a child. -/
def launch (here : Trail) (spec : LaunchSpec) (now : Nat) : Except Fault Process :=
  (play here spec now none).map processOf

/-- How a child ends that is launched at a time and not read after another. -/
def exitUnread (here : Trail) (spec : LaunchSpec) (now unread : Nat) : Option (Nat × WaitStatus) :=
  match play here spec now (some unread) with
  | .ok root => exitOf root
  | .error _ => none

/-- What a host with some files in the working directory provides. -/
def environmentOf (here : Trail) (settings : Settings) (hasHooks : Bool) : Environment :=
  ⟨settings, hasHooks, launch here, exitUnread here⟩

end Supervisor.Host
