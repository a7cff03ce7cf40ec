/-
  A world on a clock: everything happens as soon as it can.

  * `World.instant` are the actions that members, sweeps and calls take on
    their own and that take no time;
  * in a prompt run time passes only while none of them can be taken, and never
    past the next time at which one could (`World.mayPass`);
  * `World.settle` lets everything happen that can happen now, and
    `World.awaitUntil` goes on until a condition holds.
-/
import Supervisor.World

namespace Supervisor.World

/-- The actions that a member takes on its own. -/
def memberActions (m : Nat) (x : Member) : List Action :=
  match x.body with
  | .guest _ => [.react m]
  | .handle _ =>
    [.runner m .proceed, .runner m .cancel] ++ Pump.events.map (.pump m) ++ [.runner m .exit]

/-- The actions that are taken without the host, and take no time. -/
def instant (w : World) : List Action :=
  w.members.zipIdx.flatMap (fun (x, m) => memberActions m x) ++
    w.sweeps.zipIdx.flatMap (fun (s, k) =>
      if s.endedAt.isSome then [] else s.steps.map (.sweepStep k)) ++
    w.calls.zipIdx.flatMap fun (c, k) => if c.isReturned then [] else [.proceed k]

/-- Whether something can happen now. -/
def isReady (env : Environment) (w : World) : Bool :=
  w.instant.any fun a => (w.step env a).isSome

/-- The times at which something could happen. -/
def times (w : World) : List Nat :=
  (w.members.flatMap (·.times) ++ w.sweeps.flatMap (·.times) ++ w.calls.flatMap (·.times)).filter
    (w.now < ·)

/-- The next time at which something could happen. -/
def nextTime (w : World) : Option Nat := w.times.min?

/-- Whether so much time may pass in a prompt run. -/
def mayPass (env : Environment) (w : World) (ms : Nat) : Bool :=
  !w.isReady env && w.nextTime.all (w.now + ms ≤ ·)

/-- The next thing that happens now. -/
def next (env : Environment) (w : World) : Option World := w.instant.findSome? (w.step env)

/-- How many steps one wait of the host takes at most. -/
def patience : Nat := 1000000

/-- Let everything happen that can happen now. -/
def settleFor (env : Environment) : Nat → World → World
  | 0, w => w
  | fuel + 1, w =>
    match w.next env with
    | some w => settleFor env fuel w
    | none => w

/-- Let everything happen that can happen now. -/
def settle (env : Environment) (w : World) : World := settleFor env patience w

/-- Go on until a condition holds while nothing can happen, or nothing will
    happen until `limit`. -/
def awaitFor (env : Environment) (limit : Nat) (done : World → Bool) : Nat → World → World
  | 0, w => w
  | fuel + 1, w =>
    match w.next env with
    | some w => awaitFor env limit done fuel w
    | none =>
      if done w then w
      else match w.nextTime with
        | some t =>
          if t ≤ limit then awaitFor env limit done fuel { w with now := t }
          else { w with now := max w.now limit }
        | none => { w with now := max w.now limit }

/-- Go on until a condition holds, up to a time. -/
def awaitUntil (env : Environment) (limit : Nat) (done : World → Bool) (w : World) : World :=
  awaitFor env limit done patience w

end Supervisor.World
