/-
  Those that can be registered.

  * a `Guest` is a runner of somebody else, of which only the state can be
    seen; it may react to being cancelled after a while;
  * a `Member` is a guest or a handle, with its cancel flag and its
    registration, which are shared with the sweep.
-/
import Supervisor.Coordinator
import Supervisor.Handle

namespace Supervisor

/-- What a guest does when it is cancelled. -/
structure Reaction where
  /-- after so many milliseconds -/
  delay : Nat
  /-- it disappears, instead of finishing -/
  vanishes : Bool
  deriving DecidableEq

/-- A runner of somebody else. -/
structure Guest where
  state : RunState := .running
  /-- nobody can see its state change any more -/
  gone : Bool := false
  reaction : Option Reaction := none
  /-- when it reacts, once it has noticed that it is cancelled -/
  due : Option Nat := none
  deriving DecidableEq

namespace Guest

/-- Show another state, unless it is gone. -/
def setState (g : Guest) (s : RunState) : Guest := if g.gone then g else { g with state := s }

/-- Disappear. -/
def vanish (g : Guest) : Guest := { g with gone := true }

/-- React, if it is time. -/
def react (g : Guest) (now : Nat) (cancelled : Bool) : Option Guest :=
  match g.reaction, g.due with
  | some r, none => if cancelled then some { g with due := some (now + r.delay) } else none
  | some r, some t =>
    if t ≤ now then
      let g := { g with reaction := none }
      some (if r.vanishes then g.vanish else g.setState .finished)
    else none
  | none, _ => none

end Guest

/-- A guest or a handle. -/
inductive Body where
  | guest (g : Guest)
  | handle (h : Handle)

/-- One that can be registered. -/
structure Member where
  label : String
  /-- it was asked to end -/
  cancel : Bool := false
  registration : Registration := .idle
  body : Body

namespace Member

/-- A handle as a member. -/
def ofHandle (h : Handle) : Member := { label := programOf h.command, body := .handle h }

/-- The state that a member shows. -/
def state (m : Member) : RunState :=
  match m.body with
  | .guest g => g.state
  | .handle h => h.status.state

/-- Whether nothing more is to be waited for. -/
def isOver (m : Member) : Bool :=
  m.state = .finished || match m.body with
    | .guest g => g.gone
    | .handle _ => false

/-- The handle of a member that is one. -/
def handle? (m : Member) : Option Handle :=
  match m.body with
  | .guest _ => none
  | .handle h => some h

/-- The guest of a member that is one. -/
def guest? (m : Member) : Option Guest :=
  match m.body with
  | .guest g => some g
  | .handle _ => none

/-- Put back a handle. -/
def setHandle (m : Member) (h : Handle) : Member := { m with body := .handle h }

/-- A member as an entry in the log. -/
def shown (m : Member) : String :=
  "RunnerEntry \x7b label: " ++ Text.quote m.label ++ ", state: " ++ m.state.name ++ ", .. \x7d"

/-- The times at which it could go on. -/
def times (m : Member) : List Nat :=
  match m.body with
  | .guest g => if g.reaction.isSome then g.due.toList else []
  | .handle h => (h.runner.map (·.times)).getD []

end Member

end Supervisor
