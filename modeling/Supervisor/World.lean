/-
  Everything that one coordinator is shared by, and how it moves.

  * a `World` is the coordinator, its members, the sweeps and calls that were
    begun, the log and the time;
  * an `Action` is one atomic step of one party: of the host, a registration, a
    runner, a pump, a sweep, a call, or time that passes;
  * `World.step` is what an action does, if it can be taken.  Runs are lists of
    actions (`World.run`), in any order whatever.
-/
import Supervisor.Call
import Supervisor.Runner.Step
import Supervisor.Sweep

namespace Supervisor

/-- A coordinator with all that share it. -/
structure World where
  now : Nat := 0
  coordinator : Coordinator := {}
  /-- the host still holds the coordinator -/
  held : Bool := true
  members : List Member := []
  sweeps : List Sweep := []
  calls : List Call := []
  /-- the pid of the next child -/
  nextPid : Nat := 1
  /-- the log, latest first -/
  behind : List Event := []

/-- One atomic step. -/
inductive Action where
  /-- a guest comes, who is not registered yet -/
  | welcome (label : String) (g : Guest)
  /-- the next step of the registration of a guest -/
  | register (m : Nat)
  /-- somebody names an id to be taken out -/
  | unregister (id : Nat)
  | setState (m : Nat) (s : RunState)
  | vanish (m : Nat)
  /-- a guest reacts to being cancelled -/
  | react (m : Nat)
  | create (command : List String) (sink : Sink)
  | configure (m : Nat) (c : Change)
  | createControl (m : Nat) (label : String)
  | start (m : Nat) (canSpawn : Bool)
  | copy (m : Nat)
  | drop (m : Nat)
  /-- the next step of a runner -/
  | runner (m : Nat) (s : RunnerStep)
  /-- an event of the pump of a runner -/
  | pump (m : Nat) (e : PumpEvent)
  /-- a call begins -/
  | call (kind : CallKind) (m : Nat)
  /-- the next step of a call -/
  | proceed (k : Nat)
  /-- whoever made a call does not wait for it any longer -/
  | abandon (k : Nat)
  /-- a sweep begins, and raises the flag -/
  | sweep
  /-- the next step of a sweep -/
  | sweepStep (k : Nat) (s : SweepStep)
  /-- the host takes its exit hooks -/
  | takeHooks
  /-- the host lets go of the coordinator -/
  | release
  | pass (ms : Nat)

namespace World

/-- The log, in order. -/
def log (w : World) : List Event := w.behind.reverse

/-- Note events in the log. -/
def note (w : World) (events : List Event) : World :=
  { w with behind := events.reverse ++ w.behind }

/-- Change the member at a place. -/
def setMember (w : World) (m : Nat) (x : Member) : World :=
  { w with members := w.members.set m x }

/-- The handle at a place. -/
def handle? (w : World) (m : Nat) : Option Handle := w.members[m]?.bind (·.handle?)

/-- Whether anybody holds a handle. -/
def isHeld (w : World) (m : Nat) : Bool :=
  (w.handle? m).any (fun h => 0 < h.copies) || w.calls.any fun k => k.member = m && k.holds

/-- Whether the coordinator still exists: the host, a sweep, a handle or a
    runner holds it. -/
def isAlive (w : World) : Bool :=
  w.held || w.sweeps.any (·.endedAt.isNone) ||
    w.members.any fun m => m.handle?.any fun h =>
      0 < h.copies || h.runner.any fun r => r.stage ≠ .gone

/-- The result of a step of a member. -/
def accept (w : World) (m : Nat) (r : Member.Result) : World :=
  ({ w with coordinator := r.coordinator }.setMember m r.member).note r.events

/-- What the runner of a member sees. -/
def view (w : World) (env : Environment) (m : Nat) : Runner.View :=
  ⟨env, w.now, w.coordinator, m, w.nextPid⟩

/-- Change a guest. -/
def onGuest (w : World) (m : Nat) (f : Member → Guest → Option Guest) : Option World := do
  let x ← w.members[m]?
  let g ← f x (← x.guest?)
  return w.setMember m { x with body := .guest g }

/-- Carry out an operation on a handle; one that fails changes nothing. -/
def onHandle (w : World) (m : Nat) (f : Handle → Except Error Handle) : Option World := do
  let x ← w.members[m]?
  match f (← x.handle?) with
  | .ok h => return w.setMember m (x.setHandle h)
  | .error _ => return w

/-- Begin the run of a handle. -/
def start (w : World) (m : Nat) (canSpawn : Bool) : Option World := do
  let x ← w.members[m]?
  let h ← x.handle?
  match h.start canSpawn with
  | .ok h => return (w.setMember m (x.setHandle h)).note [.runnerSpawned h.command]
  | .error _ => return w

/-- One step of a runner. -/
def runnerStep (env : Environment) (w : World) (m : Nat) (s : RunnerStep) : Option World := do
  let x ← w.members[m]?
  let h ← x.handle?
  let r ← h.runner
  let next ← r.step (w.view env m) x h s
  let pid := if r.stage = .launching then w.nextPid + 1 else w.nextPid
  return { w with nextPid := pid }.accept m next

/-- One event of a pump. -/
def pumpStep (env : Environment) (w : World) (m : Nat) (e : PumpEvent) : Option World := do
  let x ← w.members[m]?
  let h ← x.handle?
  let r ← h.runner
  return w.accept m (← r.pumpStep (w.view env m) x h e)

/-- One step of a call. -/
def callStep (env : Environment) (w : World) (k : Nat) : Option World := do
  let call ← w.calls[k]?
  let x ← w.members[call.member]?
  let h ← x.handle?
  let next ← call.step env.settings.stopTimeout w.now (w.isHeld call.member) x h
  return ({ w with calls := w.calls.set k next.call }.setMember call.member next.member).note
    next.events

/-- One step of a sweep. -/
def sweepStep (env : Environment) (w : World) (k : Nat) (step : SweepStep) : Option World := do
  let s ← w.sweeps[k]?
  let put (s : Sweep) : World := { w with sweeps := w.sweeps.set k s }
  match step with
  | .drain =>
    if s.drainedAt.isSome then none
    let w' := put (.drain w.now w.coordinator.registry)
    return { w' with coordinator := w.coordinator.drain }.note
      [.sweepBegun w.coordinator.count env.settings.joinTimeout]
  | .cancel i =>
    let j ← s.joins[i]?
    if j.deadline.isSome then none
    let w' := put (s.setJoin i { j with deadline := some (w.now + env.settings.joinTimeout) })
    match w.members[j.entry.member]? with
    | some x => return w'.setMember j.entry.member { x with cancel := true }
    | none => return w'
  | .stopped i =>
    let j ← s.joins[i]?
    if j.isWaiting ∧ (w.members[j.entry.member]?).all (·.isOver) then
      return put (s.setJoin i { j with result := some .stopped })
    else none
  | .timedOut i =>
    let j ← s.joins[i]?
    if j.isWaiting ∧ j.isOverdue w.now ∧ !(w.members[j.entry.member]?).all (·.isOver) then
      return (put (s.setJoin i { j with result := some .timedOut })).note
        [.joinTimedOut j.id j.entry.label]
    else none
  | .report =>
    if s.endedAt.isNone ∧ s.isSettled then
      return (put { s with endedAt := some w.now }).note
        [.sweepEnded (s.count .stopped) (s.count .timedOut)]
    else none

/-- What an action does, if it can be taken. -/
def step (env : Environment) (w : World) : Action → Option World
  | .welcome label g => some { w with members := w.members ++ [{ label, body := .guest g }] }
  | .register m => do
    let x ← w.members[m]?
    let _ ← x.guest?
    return w.accept m (← x.register env.hasHooks m w.coordinator)
  | .unregister id => some { w with coordinator := w.coordinator.remove id }
  | .setState m s => w.onGuest m fun _ g => some (g.setState s)
  | .vanish m => w.onGuest m fun _ g => some g.vanish
  | .react m => w.onGuest m fun x g => g.react w.now x.cancel
  | .create command sink =>
    match Handle.create command sink with
    | .ok h => some { w with members := w.members ++ [.ofHandle h] }
    | .error _ => some w
  | .configure m c => w.onHandle m (·.configure c)
  | .createControl m label => w.onHandle m (·.createControl label)
  | .start m canSpawn => w.start m canSpawn
  | .copy m => w.onHandle m fun h => .ok { h with copies := h.copies + 1 }
  | .drop m => w.onHandle m fun h => .ok { h with copies := h.copies - 1 }
  | .runner m s => w.runnerStep env m s
  | .pump m e => w.pumpStep env m e
  | .call kind m =>
    if kind = .activate ∨ w.isHeld m then
      some { w with calls := w.calls ++ [{ member := m, kind }] }
    else none
  | .proceed k => w.callStep env k
  | .abandon k => do
    let call ← w.calls[k]?
    if call.isReturned then none
    return { w with calls := w.calls.set k (call.goto .abandoned) }
  | .sweep =>
    some { w with coordinator := w.coordinator.raise, sweeps := w.sweeps ++ [{}] }
  | .sweepStep k s => w.sweepStep env k s
  | .takeHooks => some { w with coordinator := w.coordinator.takeHooks }
  | .release => some { w with held := false }
  | .pass ms => some { w with now := w.now + ms }

/-- A run: actions one after the other, each of which can be taken. -/
def run (env : Environment) (w : World) (actions : List Action) : Option World :=
  actions.foldlM (step env) w

end World

end Supervisor
