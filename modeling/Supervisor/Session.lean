/-
  A host that uses a world: each function is one thing it does, and lasts until
  that is done.

  * what does not wait is one action, or one after the other without anything
    in between;
  * what waits lets everything else go on meanwhile (`World.awaitUntil`).
-/
import Supervisor.World.Clock

namespace Supervisor.Session

/-- Take an action; one that cannot be taken changes nothing. -/
def act (env : Environment) (a : Action) (w : World) : World := (w.step env a).getD w

/-- Take several actions. -/
def actAll (env : Environment) (as : List Action) (w : World) : World :=
  as.foldl (fun w a => act env a w) w

/-- The longest time that the host waits for anything: longer than any bound of
    64 bits. -/
def horizon : Nat := Nat.pow 2 64

/-- The longest time that the host sleeps, thirty years. -/
def longestSleep : Nat := 30 * 365 * 86400000

/-- Let time pass. -/
def sleep (env : Environment) (ms : Nat) (w : World) : World :=
  w.awaitUntil env (w.now + min ms longestSleep) fun _ => false

/-- Wait for a condition. -/
def await (env : Environment) (done : World → Bool) (w : World) : World :=
  w.awaitUntil env (w.now + horizon) done

/-! ## Guests -/

/-- The steps that a registration takes at most. -/
def registrationSteps : Nat := 5

/-- Register a guest, who gets the next place. -/
def register (env : Environment) (label : String) (g : Guest) (w : World) : World :=
  let m := w.members.length
  actAll env (.welcome label g :: List.replicate registrationSteps (.register m)) w

/-- The id of a member, once it has one. -/
def idOf (w : World) (m : Nat) : Option Nat := w.members[m]?.bind (·.registration.id?)

/-! ## Sweeps -/

/-- Whether the sweep at a place has returned. -/
def isSwept (k : Nat) (w : World) : Bool := w.sweeps[k]?.all (·.endedAt.isSome)

/-- Wait for the sweep at a place. -/
def joinSweep (env : Environment) (k : Nat) (w : World) : World := await env (isSwept k) w

/-- Sweep, and wait for the end of it. -/
def shutdown (env : Environment) (w : World) : World :=
  joinSweep env w.sweeps.length (act env .sweep w)

/-- The report of the sweep at a place. -/
def reportOf (w : World) (k : Nat) : SweepReport :=
  (w.sweeps[k]?.bind (·.report?)).getD ⟨0, 0⟩

/-- Run the exit hooks: each sweeps, if the coordinator still exists. -/
def runHooks (env : Environment) (w : World) : World :=
  (List.range w.coordinator.hooksPending).foldl
    (fun w _ => if w.isAlive then shutdown env w else w) (act env .takeHooks w)

/-! ## Handles -/

/-- Whether the calls from a place on have returned. -/
def areReturned (k : Nat) (w : World) : Bool := (w.calls.drop k).all (·.isReturned)

/-- Make calls at the same time, and wait for all of them up to a time; those
    that have not returned by then are abandoned. -/
def calls (env : Environment) (kind : CallKind) (ms : List Nat) (within : Nat) (w : World) : World :=
  let first := w.calls.length
  let w := actAll env (ms.map (.call kind)) w
  let w := w.awaitUntil env (w.now + within) (areReturned first)
  actAll env ((List.range ms.length).map fun k => .abandon (first + k)) w

/-- Make a call, and wait for it. -/
def call (env : Environment) (kind : CallKind) (m : Nat) (w : World) : World :=
  calls env kind [m] horizon w

/-- What the last call returned; an abandoned one returned nothing. -/
def lastResult (w : World) : Option Bool :=
  match w.calls.getLast? with
  | some ⟨_, _, .returned r⟩ => some r
  | _ => none

/-- Whether a handle has a pid, or is not running. -/
def isSpawned (m : Nat) (w : World) : Bool :=
  (w.handle? m).all fun h => h.status.pid.isSome || h.status.state ≠ .running

/-- Whether some bytes stand in others. -/
def occurs (part : Bytes) : Bytes → Bool
  | [] => part.isEmpty
  | b :: bs => part.isPrefixOf (b :: bs) || occurs part bs

/-- Whether the sink of a handle has stored some bytes. -/
def hasOutput (m : Nat) (s : Stream) (part : Bytes) (w : World) : Bool :=
  (w.handle? m).all fun h => occurs part (h.sink.stored s)

/-- The members that are handles which the host still holds. -/
def liveHandles (w : World) : List Nat :=
  (List.range w.members.length).filter fun m => (w.handle? m).any (0 < ·.copies)

/-! ## Runners without a handle -/

/-- A world with one runner, whose status and cancel flag stand as given. -/
def withRunner (spec : LaunchSpec) (sink : Sink) (state : RunState) (cancelled : Bool) : World :=
  let status : RunStatus := {}
  let h : Handle := {
    command := spec.command
    sink
    options := spec.options
    status := status.advance state
    runner := some { spec } }
  { members := [{ Member.ofHandle h with cancel := cancelled }] }

/-- Whether the runner of a handle is over. -/
def isRunnerOver (m : Nat) (w : World) : Bool :=
  (w.handle? m).all fun h => h.runner.all (·.stage = .gone)

/-- Wait for the end of a runner. -/
def awaitRunner (env : Environment) (m : Nat) (w : World) : World := await env (isRunnerOver m) w

/-- The phases that runners entered: the program, and the names of the phase
    before and of the phase entered. -/
def phases (w : World) : List (String × String × String) :=
  w.log.filterMap fun
    | .phase program source target => some (program, source, target)
    | _ => none

end Supervisor.Session
