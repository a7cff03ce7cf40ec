/-
  The coordinator: which runners a sweep has to end.

  * the registry of a `Coordinator` maps ids to entries; ids are taken in
    order and never again;
  * once a sweep has begun (`shuttingDown`) nothing is inserted any more;
  * the first insertion installs one exit hook with the host, if the host has
    hooks;
  * a `Registration` is how far a call that registers has come.  Its steps
    (`Registration.step`) are single accesses to shared state: take an id,
    test the flag and insert under one lock, claim the hook, install it, or
    cancel the runner that came too late.
-/
import Supervisor.Event

namespace Supervisor

/-! ## Registry -/

/-- A runner in the registry. -/
structure Entry where
  label : String
  /-- which one it is -/
  member : Nat
  deriving DecidableEq

/-- The shared state of all runners. -/
structure Coordinator where
  registry : List (Nat × Entry) := []
  nextId : Nat := 1
  /-- a sweep has begun -/
  shuttingDown : Bool := false
  /-- the exit hook is taken care of -/
  hookClaimed : Bool := false
  /-- how many hooks were given to the host -/
  hooksInstalled : Nat := 0
  /-- how many of them the host has not run yet -/
  hooksPending : Nat := 0
  deriving DecidableEq

namespace Coordinator

/-- How many runners are registered. -/
def count (c : Coordinator) : Nat := c.registry.length

/-- Take an id. -/
def takeId (c : Coordinator) : Coordinator := { c with nextId := c.nextId + 1 }

/-- Put an entry into the registry. -/
def insert (c : Coordinator) (id : Nat) (e : Entry) : Coordinator :=
  { c with registry := c.registry ++ [(id, e)] }

/-- Take an id out of the registry; one that is not there changes nothing. -/
def remove (c : Coordinator) (id : Nat) : Coordinator :=
  { c with registry := c.registry.filter (·.1 ≠ id) }

/-- Begin a sweep. -/
def raise (c : Coordinator) : Coordinator := { c with shuttingDown := true }

/-- Take all entries out. -/
def drain (c : Coordinator) : Coordinator := { c with registry := [] }

/-- Claim the exit hook. -/
def claimHook (c : Coordinator) : Coordinator := { c with hookClaimed := true }

/-- Give a hook to the host. -/
def installHook (c : Coordinator) : Coordinator :=
  { c with hooksInstalled := c.hooksInstalled + 1, hooksPending := c.hooksPending + 1 }

/-- The host takes its hooks to run them. -/
def takeHooks (c : Coordinator) : Coordinator := { c with hooksPending := 0 }

/-- The coordinator as the log shows it. -/
def shown (c : Coordinator) (s : Settings) : String :=
  "ShutdownCoordinator \x7b settings: " ++ s.shown ++ ", registered: " ++ toString c.count ++
    ", shutting_down: " ++ Event.boolText c.shuttingDown ++ ", .. \x7d"

end Coordinator

/-! ## Registration -/

/-- How far a call that registers has come. -/
inductive Registration where
  | idle
  /-- it has an id -/
  | numbered (id : Nat)
  /-- a sweep had begun, and the runner is still to be cancelled -/
  | refused (id : Nat)
  /-- it is inserted, and the exit hook is still to be looked after -/
  | inserted (id : Nat)
  /-- it has claimed the exit hook, and is still to install it -/
  | hooking (id : Nat)
  /-- the call has returned -/
  | settled (id : Nat)
  deriving DecidableEq

namespace Registration

/-- The id, once there is one. -/
def id? : Registration → Option Nat
  | idle => none
  | numbered id | refused id | inserted id | hooking id | settled id => some id

/-- Whether the call has returned. -/
def isSettled : Registration → Bool
  | settled _ => true
  | _ => false

/-- What a step of a call leaves: how far it is, the coordinator, whether it
    cancels its runner, and what it logs. -/
structure Result where
  registration : Registration
  coordinator : Coordinator
  cancels : Bool := false
  events : List Event := []
  deriving DecidableEq

/-- The next step of a call for an entry. -/
def step (hasHooks : Bool) (e : Entry) (c : Coordinator) : Registration → Option Result
  | idle => some ⟨numbered c.nextId, c.takeId, false, []⟩
  | numbered id =>
    if c.shuttingDown then some ⟨refused id, c, false, [.registrationRefused id e.label]⟩
    else some ⟨inserted id, c.insert id e, false, []⟩
  | refused id => some ⟨settled id, c, true, []⟩
  | inserted id =>
    if hasHooks && !c.hookClaimed then some ⟨hooking id, c.claimHook, false, []⟩
    else some ⟨settled id, c, false, []⟩
  | hooking id => some ⟨settled id, c.installHook, false, []⟩
  | settled _ => none

end Registration

end Supervisor
