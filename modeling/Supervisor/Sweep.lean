/-
  A sweep: end every runner that is registered, and wait for each a bounded
  time.

  * a `Sweep` has raised the flag, then takes all entries out of the registry
    at once (`Sweep.drain`), and has a `Join` for each;
  * a join cancels its runner, which starts its bound, and settles when the
    runner is over or the bound has passed;
  * `Sweep.report` counts the joins once all are settled.
-/
import Supervisor.Coordinator

namespace Supervisor

/-- How a join settled. -/
inductive JoinResult where
  | stopped
  | timedOut
  deriving DecidableEq

/-- Waiting for one runner. -/
structure Join where
  id : Nat
  entry : Entry
  /-- when it gives up, once the runner is cancelled -/
  deadline : Option Nat := none
  result : Option JoinResult := none
  deriving DecidableEq

namespace Join

/-- Whether the runner is cancelled and waited for. -/
def isWaiting (j : Join) : Bool := j.deadline.isSome && j.result.isNone

/-- Whether the bound has passed. -/
def isOverdue (j : Join) (now : Nat) : Bool := j.deadline.any (· ≤ now)

end Join

/-- What a sweep reports. -/
structure SweepReport where
  stopped : Nat
  timedOut : Nat
  deriving DecidableEq

/-- A sweep. -/
structure Sweep where
  /-- when it took the entries out, once it has -/
  drainedAt : Option Nat := none
  joins : List Join := []
  /-- when it returned, once it has -/
  endedAt : Option Nat := none
  deriving DecidableEq

/-- The steps of a sweep, those of a join by its place. -/
inductive SweepStep where
  | drain
  | cancel (k : Nat)
  | stopped (k : Nat)
  | timedOut (k : Nat)
  | report
  deriving DecidableEq

namespace Sweep

/-- Take over the entries of a registry. -/
def drain (now : Nat) (registry : List (Nat × Entry)) : Sweep where
  drainedAt := some now
  joins := registry.map fun (id, e) => { id, entry := e }

/-- Change the join at a place. -/
def setJoin (s : Sweep) (k : Nat) (j : Join) : Sweep := { s with joins := s.joins.set k j }

/-- Whether every join is settled. -/
def isSettled (s : Sweep) : Bool := s.drainedAt.isSome && s.joins.all (·.result.isSome)

/-- How many joins settled in a way. -/
def count (s : Sweep) (r : JoinResult) : Nat := s.joins.countP (·.result = some r)

/-- What it reports, once it has returned. -/
def report? (s : Sweep) : Option SweepReport :=
  if s.endedAt.isSome then some ⟨s.count .stopped, s.count .timedOut⟩ else none

/-- All steps that it could have. -/
def steps (s : Sweep) : List SweepStep :=
  .drain :: (List.range s.joins.length).flatMap (fun k => [.cancel k, .stopped k, .timedOut k]) ++
    [.report]

/-- The times at which a join gives up. -/
def times (s : Sweep) : List Nat :=
  s.joins.filterMap fun j => if j.isWaiting then j.deadline else none

end Sweep

end Supervisor
