/-
  What is asked of a handle before its start, down to the lock.

  * a `Request` is a change of an option, the stop control, or the start;
  * the options of a handle lie behind a lock.  An `Attempt` has got the lock,
    and goes on in single steps (`Attempt.step`) between which all others may
    act: look at the state, do what was asked, let go of the lock;
  * a start makes up its runner while it has the lock, moves the state, lets go,
    and spawns the runner only then;
  * a `Desk` is a world with the attempts on each of its handles, in the order in
    which they got the lock.  It moves by a new attempt, by a step of one, or by
    any other action of the world.
-/
import Supervisor.World

namespace Supervisor

/-- What can be asked of a handle before its start. -/
inductive Request where
  | change (c : Change)
  | control (label : String)
  | start (canSpawn : Bool)
  deriving DecidableEq

/-- The operation that a request is. -/
def Request.operation : Request → Operation
  | change c => c.operation
  | control _ => .createStopControl
  | start _ => .start

/-! ## Attempts -/

/-- How far an attempt has come. -/
inductive AttemptStage where
  /-- it has the lock, and is still to look at the state -/
  | locked
  /-- it found the run not begun -/
  | allowed
  /-- it has made up the runner, and is still to move the state -/
  | prepared (r : Runner)
  /-- the state is moved, and the lock still to be let go -/
  | begun
  /-- the lock is let go, and the runner still to be spawned -/
  | spawning
  /-- it has done what was asked, and is still to let go of the lock -/
  | done
  /-- it will fail, and is still to let go of the lock -/
  | refused (e : Error)
  | succeeded
  | failed (e : Error)
  deriving DecidableEq

/-- A request that has got the lock. -/
structure Attempt where
  request : Request
  stage : AttemptStage := .locked
  deriving DecidableEq

namespace Attempt

/-- Whether it has the lock. -/
def holdsLock (t : Attempt) : Bool :=
  match t.stage with
  | .spawning | .succeeded | .failed _ => false
  | _ => true

/-- At a later stage. -/
def goto (t : Attempt) (s : AttemptStage) : Attempt := { t with stage := s }

/-- What a step of an attempt leaves. -/
structure Result where
  attempt : Attempt
  handle : Handle
  events : List Event := []

/-- Do what was asked, having found the run not begun. -/
def serve (h : Handle) (t : Attempt) : Result :=
  match t.request with
  | .change c => ⟨t.goto .done, { h with options := h.options.apply c }, []⟩
  | .control label => ⟨t.goto .done, { h with control := h.control <|> some { label } }, []⟩
  | .start true => ⟨t.goto (.prepared { spec := h.spec, controlled := h.control.isSome }), h, []⟩
  | .start false => ⟨t.goto (.refused .noRuntime), h, []⟩

/-- The next step of an attempt on a handle. -/
def step (h : Handle) (t : Attempt) : Option Result :=
  match t.stage with
  | .locked =>
    match h.guard t.request.operation with
    | .ok () => some ⟨t.goto .allowed, h, []⟩
    | .error e => some ⟨t.goto (.refused e), h, []⟩
  | .allowed => some (t.serve h)
  | .prepared r =>
    some ⟨t.goto .begun, { h with status := h.status.advance .running, runner := some r },
      [.runnerSpawned h.command]⟩
  | .begun => some ⟨t.goto .spawning, h, []⟩
  | .spawning | .done => some ⟨t.goto .succeeded, h, []⟩
  | .refused e => some ⟨t.goto (.failed e), h, []⟩
  | .succeeded | .failed _ => none

end Attempt

/-! ## Desks -/

/-- A world with the attempts on its handles. -/
structure Desk where
  world : World := {}
  /-- the attempts on each handle, in the order in which they got its lock -/
  attempts : Nat → List Attempt := fun _ => []

/-- What can happen at a desk. -/
inductive DeskAction where
  /-- a request gets the lock of a handle -/
  | lock (m : Nat) (q : Request)
  /-- the next step of an attempt on a handle -/
  | proceed (m k : Nat)
  /-- anything else -/
  | act (a : Action)

namespace Desk

/-- Whether anybody has the lock of a handle. -/
def isLocked (d : Desk) (m : Nat) : Bool := (d.attempts m).any (·.holdsLock)

/-- Whether a runner is still to be spawned. -/
def isSpawning (d : Desk) (m : Nat) : Bool :=
  (d.attempts m).any fun t => t.stage = .begun || t.stage = .spawning

/-- Whether an action is none of the requests, and none of a runner that is
    still to be spawned. -/
def admits (d : Desk) : Action → Bool
  | .configure _ _ | .createControl _ _ | .start _ _ => false
  | .runner m _ | .pump m _ => !d.isSpawning m
  | _ => true

/-- Change the attempts on a handle. -/
def setAttempts (d : Desk) (m : Nat) (ts : List Attempt) : Desk :=
  { d with attempts := fun n => if n = m then ts else d.attempts n }

/-- What an action does, if it can be taken. -/
def step (env : Environment) (d : Desk) : DeskAction → Option Desk
  | .lock m q =>
    if (d.world.handle? m).isSome && !d.isLocked m then
      some (d.setAttempts m (d.attempts m ++ [{ request := q }]))
    else none
  | .proceed m k => do
    let x ← d.world.members[m]?
    let h ← x.handle?
    let t ← (d.attempts m)[k]?
    let next ← t.step h
    let world := (d.world.setMember m (x.setHandle next.handle)).note next.events
    return { d with world }.setAttempts m ((d.attempts m).set k next.attempt)
  | .act a =>
    if d.admits a then do
      let world ← d.world.step env a
      return { d with world }
    else none

/-- A run: actions one after the other, each of which can be taken. -/
def run (env : Environment) (d : Desk) (actions : List DeskAction) : Option Desk :=
  actions.foldlM (step env) d

end Desk

end Supervisor
