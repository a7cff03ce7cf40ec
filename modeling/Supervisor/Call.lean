/-
  Calls that wait: stopping a run, activating its stop control, waiting for
  its end.

  * a `Call` names the member it is about and how far it has come
    (`CallStage`), one stage for each point between two accesses to shared
    state;
  * a stop that finds the run running and is the first to ask for its end
    waits a bounded time, every other stop returns at once;
  * an activation finds its control enabled, then stops the run if the handle
    is still held by anybody, and disables the control.
-/
import Supervisor.Member

namespace Supervisor

/-- What a call does. -/
inductive CallKind where
  | stop
  | activate
  | wait
  deriving DecidableEq

/-- How far a call has come. -/
inductive CallStage where
  | entered
  /-- an activation is still to get hold of the handle -/
  | seeking
  /-- still to read the state -/
  | reading
  /-- it found the run running, and is still to ask for its end -/
  | asking
  /-- it waits for the end, up to a time -/
  | bounded (deadline : Nat)
  /-- it waits for the end -/
  | waiting
  /-- an activation is still to disable the control -/
  | disabling
  /-- an activation returns whether it did something -/
  | returned (result : Bool)
  /-- nobody waits for it any longer -/
  | abandoned
  deriving DecidableEq

/-- A call. -/
structure Call where
  member : Nat
  kind : CallKind
  stage : CallStage := .entered
  deriving DecidableEq

namespace Call

/-- Whether nothing more becomes of it. -/
def isReturned (k : Call) : Bool :=
  match k.stage with
  | .returned _ | .abandoned => true
  | _ => false

/-- Whether it keeps the handle alive. -/
def holds (k : Call) : Bool :=
  match k.kind, k.stage with
  | _, .returned _ | _, .abandoned => false
  | .activate, .reading | .activate, .asking | .activate, .bounded _ => true
  | .activate, _ => false
  | _, _ => true

/-- At a later stage. -/
def goto (k : Call) (s : CallStage) : Call := { k with stage := s }

/-- The stop of a call is over. -/
def leave (k : Call) : Call :=
  k.goto (if k.kind = .activate then .disabling else .returned true)

/-- What a step of a call leaves. -/
structure Result where
  call : Call
  member : Member
  events : List Event := []

/-- The next step of a call on a handle, if it can be taken now.  `held` tells
    whether anybody still holds the handle. -/
def step (bound now : Nat) (held : Bool) (m : Member) (h : Handle) (k : Call) : Option Result :=
  match k.stage with
  | .entered =>
    match k.kind with
    | .activate => some ⟨k.goto (if h.isControlEnabled then .seeking else .returned false), m, []⟩
    | .stop => some ⟨k.goto .reading, m, []⟩
    | .wait =>
      some ⟨k.goto (if h.status.state = .running then .waiting else .returned true), m, []⟩
  | .seeking => some ⟨k.goto (if held then .reading else .disabling), m, []⟩
  | .reading => some ⟨if h.status.state = .running then k.goto .asking else k.leave, m, []⟩
  | .asking =>
    if m.cancel then some ⟨k.leave, m, []⟩
    else some ⟨k.goto (.bounded (now + bound)), { m with cancel := true },
      [.stopping h.command bound]⟩
  | .bounded deadline =>
    if h.status.state = .finished then some ⟨k.leave, m, []⟩
    else if deadline ≤ now then some ⟨k.leave, m, [.stopTimedOut h.command bound]⟩
    else none
  | .waiting => if h.status.state = .finished then some ⟨k.goto (.returned true), m, []⟩ else none
  | .disabling => some ⟨k.goto (.returned true), m.setHandle h.disableControl, []⟩
  | .returned _ | .abandoned => none

/-- The time at which it gives up. -/
def times (k : Call) : List Nat :=
  match k.stage with
  | .bounded deadline => [deadline]
  | _ => []

end Call

end Supervisor
