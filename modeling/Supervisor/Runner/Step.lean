/-
  The steps of a runner.

  * `Runner.step` is one step of the program of a runner, between two accesses
    to shared state: the next one, or while it waits the end of its child or
    the request to end it;
  * `Runner.pumpStep` is one event of its pump;
  * a step sees its own member, the coordinator and the time, and nothing of
    other members.

  Waiting for a child and killing it are assumed to succeed.
-/
import Supervisor.Member

namespace Supervisor

/-- What a runner can go on with. -/
inductive RunnerStep where
  /-- its program goes on -/
  | proceed
  /-- the child has ended by itself -/
  | exit
  /-- it was asked to end -/
  | cancel
  deriving DecidableEq

/-- What the steps of a member leave. -/
structure Member.Result where
  member : Member
  coordinator : Coordinator
  events : List Event := []

/-- What a runner sees of the world. -/
structure Runner.View where
  env : Environment
  now : Nat
  coordinator : Coordinator
  /-- which member it is -/
  index : Nat
  /-- the pid of the next child -/
  pid : Nat

namespace Member

/-- A member whose runner has moved. -/
def withRunner (m : Member) (h : Handle) (r : Runner) : Member :=
  m.setHandle { h with runner := some r }

/-- Take the next step of a registration. -/
def register (m : Member) (hasHooks : Bool) (index : Nat) (c : Coordinator) : Option Result := do
  let next ← m.registration.step hasHooks ⟨m.label, index⟩ c
  return {
    member := { m with registration := next.registration, cancel := m.cancel || next.cancels }
    coordinator := next.coordinator
    events := next.events }

end Member

namespace Runner

/-- Write a line, and go on at a stage unless the sink brings the runner
    down. -/
def tell (v : View) (m : Member) (h : Handle) (r : Runner) (line : String) (after : Runner)
    (events : List Event) : Member.Result :=
  let told := { h with sink := h.sink.notice v.now line }
  let noted := h.sink.noticeEvents line
  if h.sink.verdict .err = .fatal then ⟨m.withRunner told r.fall, v.coordinator, noted⟩
  else ⟨m.withRunner told after, v.coordinator, noted ++ events⟩

/-- Launch the child. -/
def launch (v : View) (m : Member) (h : Handle) (r : Runner) : Member.Result :=
  match v.env.launch r.spec v.now with
  | .error f =>
    ⟨m.withRunner h (r.goto (.failing f)), v.coordinator,
      [.launchFailed r.program (r.launchError f)]⟩
  | .ok p =>
    let r' := ((r.adopt v.now v.pid v.env.settings.bufferSize p).enter .running).goto .waiting
    ⟨m.withRunner { h with status := { h.status with pid := some v.pid } } r', v.coordinator,
      [.started r.program v.pid r.spec.options.survivor, r.phaseEvent .running]⟩

/-- The program of a runner goes on. -/
def proceed (v : View) (m : Member) (h : Handle) (r : Runner) : Option Member.Result :=
  let keep (h : Handle) (r : Runner) (events : List Event) : Option Member.Result :=
    some ⟨m.withRunner h r, v.coordinator, events⟩
  match r.stage with
  | .created =>
    let next := if r.spec.options.survivor then Stage.launching else .registering
    keep h ((r.enter .launching).goto next) [r.phaseEvent .launching]
  | .registering => do
    let next ← m.register v.env.hasHooks v.index v.coordinator
    return if next.member.registration.isSettled then
      { next with member := next.member.withRunner h (r.goto .launching) }
    else next
  | .launching => some (launch v m h r)
  | .failing f =>
    some (tell v m h r (r.launchNotice f)
      ((r.enter .terminated).goto (.leaving .launchFailed)) [r.phaseEvent .terminated])
  | .waiting => none
  | .ended o =>
    let pump := r.pump.map fun p =>
      { p with order := p.order.give v.now v.env.settings.gracePeriod }
    keep h (({ r with pump }.enter .draining).goto (.draining o)) [r.phaseEvent .draining]
  | .draining o => do
    let p ← r.pump
    if p.isEnded then
      keep h (r.goto (.telling o)) (if p.stage = .ended .fatal then [.pumpFailed] else [])
    else none
  | .telling o =>
    match r.lastNotice v.coordinator.shuttingDown o with
    | some line => keep h (r.goto (.noting o line)) []
    | none => keep h (r.goto (.closing o)) []
  | .noting o line => some (tell v m h r line (r.goto (.closing o)) [])
  | .closing o => keep h ((r.enter .terminated).goto (.leaving o)) [r.phaseEvent .terminated]
  | .leaving o =>
    let c := match m.registration.id? with
      | some id => v.coordinator.remove id
      | none => v.coordinator
    some ⟨m.withRunner h (r.goto (if r.controlled then .disabling o else .recording o)), c, []⟩
  | .disabling o => keep h.disableControl (r.goto (.detaching o)) []
  | .detaching o => keep h.detachControl (r.goto (.recording o)) []
  | .recording o =>
    keep { h with status := h.status.storeOutcome o } (r.goto (.forgetting o)) []
  | .forgetting o => keep { h with status := h.status.clearPid } (r.goto (.publishing o)) []
  | .publishing _ => keep { h with status := h.status.publish } (r.goto .gone) []
  | .gone => none

/-- One step of a runner, if it can be taken now.  Two failures of the host have no step
    and are assumed away: a wait for the child that fails (it would be logged and the child
    killed, with the outcome of a kill), and a kill that fails (it would be logged, and the
    runner go on as if the child were gone). -/
def step (v : View) (m : Member) (h : Handle) (r : Runner) : RunnerStep → Option Member.Result
  | .proceed => proceed v m h r
  | .exit => do
    if r.stage ≠ .waiting then none
    let status ← (← r.child).status? v.now
    let o := Outcome.ofStatus status
    return ⟨m.withRunner h (r.reap.goto (.ended o)), v.coordinator, [.exited r.program o]⟩
  | .cancel =>
    if r.stage = .waiting ∧ m.cancel then
      some ⟨m.withRunner h ((r.kill v.now).goto (.ended .killed)), v.coordinator,
        [.killing r.program]⟩
    else none

/-- A child whose output is read no more, and may come to another end. -/
def unread (v : View) (r : Runner) (c : Child) : Child :=
  { c with exit := v.env.exitUnread r.spec c.launched v.now }

/-- One event of the pump of a runner, if it can happen now.  When the pump
    comes down, nobody reads what the child writes. -/
def pumpStep (v : View) (m : Member) (h : Handle) (r : Runner) (e : PumpEvent) :
    Option Member.Result := do
  let next ← (← r.pump).step h.sink v.now e
  let child := if next.pump.stage = .ended .fatal then r.child.map (unread v r) else r.child
  return ⟨m.withRunner { h with sink := next.sink } { r with pump := some next.pump, child },
    v.coordinator, next.events⟩

end Runner

end Supervisor
