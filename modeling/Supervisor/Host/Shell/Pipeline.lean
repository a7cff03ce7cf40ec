/-
  Pipelines: processes each of which reads what the one before it writes.

  * `Shell.pipeParts` runs the parts of a pipeline, all of which start at the
    same time; one whose reader ends may die of its next write;
  * `Shell.awaitAll` waits for them, and `Shell.leaveAll` does not.
-/
import Supervisor.Host.Shell

namespace Supervisor.Host.Shell

/-- The signals that processes in the background ignore. -/
def backgroundIgnored : List (Nat × List Char) := [(2, []), (3, [])]

/-- A process in the background: it ignores some signals. -/
def inBackground (sh : Shell) : Shell :=
  { sh with traps := backgroundIgnored ++ sh.traps.filter fun (n, _) => n ≠ 2 && n ≠ 3 }

/-- Run the parts of a pipeline.  `start` prepares each process, and `input` is
    what the first one reads, if it is not what the shell reads. -/
def pipeParts (runIn : Shell → Script → Shell) (start : Shell → Shell) :
    Shell → Option Supply → List Script → List Shell
  | _, _, [] => []
  | sh, input, part :: rest =>
    let child := start sh.fork
    let child := match input with
      | some s => child.open_ 0 (.supply s)
      | none => child
    if rest.isEmpty then [runIn child.noteReleased part]
    else
      let id := child.nextId
      let child := { child with nextId := id + 1, pipes := id :: child.pipes }.point 1
        (some (.channel (.pipe id)))
      let (written, child) := (runIn child.noteReleased part).supplyOf id
      let others := pipeParts runIn start (sh.continue_ child) (some written) rest
      let child := match others.head?.bind endTime with
        | some t => child.breakPipe written t
        | none => child
      child :: others

/-- When the last of some processes ends. -/
def latestEnd (now : Nat) (children : List Shell) : Option Nat :=
  children.foldl (fun t child => Source.later t child.endTime) (some now)

/-- The status of the last of some processes. -/
def lastStatus (children : List Shell) : WaitStatus :=
  statusOf (children.getLast?.bind fun child => child.halt)

/-- Wait for all of some processes. -/
def awaitAll (sh : Shell) (children : List Shell) : Shell :=
  let sh := (children.foldl adopt sh).pass (latestEnd sh.now children)
  if sh.halt.isSome then sh
  else
    let ended := children.mergeSort fun a b => a.now ≤ b.now
    (ended.foldl (fun sh child => sh.announce (statusOf child.halt)) sh).setStatus
      (codeOf (lastStatus children))

/-- Do not wait for some processes, which are one job. -/
def leaveAll (sh : Shell) (children : List Shell) : Shell :=
  let pid := (children.getLast?.map fun child => child.pid).getD 0
  { children.foldl adopt sh with
    jobs := sh.jobs ++ [⟨pid, latestEnd sh.now children, lastStatus children⟩]
    lastJob := some pid
    status := 0 }

end Supervisor.Host.Shell
