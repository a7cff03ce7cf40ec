/-
  What one step can do, party by party.

  * `Registration.Move`: the steps of a call that registers
    (`Registration.move_of_step`);
  * `Stage.Calm`, `Runner.Move`: the steps of the program of a runner, with
    what has to hold before (`Runner.move_of_step`);
  * `Call.Move`: the steps of a call (`Call.move_of_step`).

  Every invariant is proved by cases on these relations, never by unfolding the
  step functions again.
-/
import Mathlib.Tactic.Common
import Supervisor.World

namespace Supervisor

/-! ## Registrations -/

/-- How far a call that registers comes, what becomes of the coordinator, and
    whether the runner is cancelled. -/
inductive Registration.Move (hasHooks : Bool) (e : Entry) (c : Coordinator) :
    Registration → Registration → Coordinator → Bool → Prop where
  | number : Move hasHooks e c .idle (.numbered c.nextId) c.takeId false
  | refuse (id : Nat) : c.shuttingDown = true →
      Move hasHooks e c (.numbered id) (.refused id) c false
  | insert (id : Nat) : c.shuttingDown = false →
      Move hasHooks e c (.numbered id) (.inserted id) (c.insert id e) false
  | cancel (id : Nat) : Move hasHooks e c (.refused id) (.settled id) c true
  | claim (id : Nat) : hasHooks = true → c.hookClaimed = false →
      Move hasHooks e c (.inserted id) (.hooking id) c.claimHook false
  | unhooked (id : Nat) : (hasHooks && !c.hookClaimed) = false →
      Move hasHooks e c (.inserted id) (.settled id) c false
  | install (id : Nat) : Move hasHooks e c (.hooking id) (.settled id) c.installHook false

/-- **The steps of a registration are its moves.** -/
theorem Registration.move_of_step {hasHooks : Bool} {e : Entry} {c : Coordinator}
    {g : Registration} {n : Registration.Result} (h : g.step hasHooks e c = some n) :
    Move hasHooks e c g n.registration n.coordinator n.cancels := by
  cases g with
  | idle => cases h; exact .number
  | numbered id =>
    simp only [step] at h
    split at h
    · next hs => cases h; exact .refuse id hs
    · next hs => cases h; exact .insert id (by simpa using hs)
  | refused id => cases h; exact .cancel id
  | inserted id =>
    simp only [step] at h
    split at h
    · next hs =>
      cases h
      simp only [Bool.and_eq_true, Bool.not_eq_true'] at hs
      exact .claim id hs.1 hs.2
    · next hs => cases h; exact .unhooked id (by simpa using hs)
  | hooking id => cases h; exact .install id
  | settled id => cases h

/-- An id is kept. -/
theorem Registration.Move.id? {hasHooks b : Bool} {e : Entry} {c c' : Coordinator}
    {g g' : Registration} (h : Move hasHooks e c g g' c' b) {id : Nat} (hid : g.id? = some id) :
    g'.id? = some id := by
  cases h with
  | number => cases hid
  | _ => exact hid

/-- A member whose registration has moved. -/
def Member.enrol (x : Member) (n : Registration.Result) : Member :=
  { x with registration := n.registration, cancel := x.cancel || n.cancels }

@[simp] theorem Member.enrol_registration (x : Member) (n : Registration.Result) :
    (x.enrol n).registration = n.registration := rfl

@[simp] theorem Member.enrol_cancel (x : Member) (n : Registration.Result) :
    (x.enrol n).cancel = (x.cancel || n.cancels) := rfl

@[simp] theorem Member.enrol_body (x : Member) (n : Registration.Result) :
    (x.enrol n).body = x.body := rfl

theorem Member.register_eq_some {x : Member} {hasHooks : Bool} {m : Nat} {c : Coordinator}
    {n : Member.Result} (h : x.register hasHooks m c = some n) :
    ∃ n', x.registration.step hasHooks ⟨x.label, m⟩ c = some n' ∧ n.member = x.enrol n' ∧
      n.coordinator = n'.coordinator := by
  simp only [Member.register, Option.bind_eq_bind, Option.bind_eq_some_iff, Option.pure_def,
    Option.some.injEq] at h
  obtain ⟨n', hn', rfl⟩ := h
  exact ⟨n', hn', rfl, rfl⟩

/-! ## Runners -/

/-- The steps of a runner that touch nothing shared but the sink. -/
inductive Stage.Calm (survivor : Bool) : Stage → Stage → Prop where
  | enlist : survivor = false → Calm survivor .created .registering
  | exempt : survivor = true → Calm survivor .created .launching
  | fail (f : Fault) : Calm survivor .launching (.failing f)
  | failed (f : Fault) : Calm survivor (.failing f) (.leaving .launchFailed)
  | drain (o : Outcome) : Calm survivor (.ended o) (.draining o)
  | drained (o : Outcome) : Calm survivor (.draining o) (.telling o)
  | tell (o : Outcome) (line : String) : Calm survivor (.telling o) (.noting o line)
  | silent (o : Outcome) : Calm survivor (.telling o) (.closing o)
  | told (o : Outcome) (line : String) : Calm survivor (.noting o line) (.closing o)
  | close (o : Outcome) : Calm survivor (.closing o) (.leaving o)

/-- Whether a line is written next. -/
def Stage.isWriting : Stage → Bool
  | failing _ | noting _ _ => true
  | _ => false

/-- What a step of a runner makes of its member and of the coordinator. -/
inductive Runner.Move (v : View) (x : Member) (h : Handle) (r : Runner) :
    RunnerStep → Member → Coordinator → Prop where
  | calm (k : Sink) (r' : Runner) : Stage.Calm r.spec.options.survivor r.stage r'.stage →
      r'.spec = r.spec → r'.controlled = r.controlled → r'.child = r.child → r'.fell = r.fell →
      Move v x h r .proceed (x.withRunner { h with sink := k } r') v.coordinator
  | fall (k : Sink) : r.stage.isWriting → h.sink.verdict .err = .fatal →
      Move v x h r .proceed (x.withRunner { h with sink := k } r.fall) v.coordinator
  | register (n : Registration.Result) : r.stage = .registering →
      x.registration.step v.env.hasHooks ⟨x.label, v.index⟩ v.coordinator = some n →
      Move v x h r .proceed
        ((x.enrol n).withRunner h (if n.registration.isSettled then r.goto .launching else r))
        n.coordinator
  | launch (p : Process) : r.stage = .launching → v.env.launch r.spec v.now = .ok p →
      Move v x h r .proceed
        (x.withRunner { h with status := { h.status with pid := some v.pid } }
          (((r.adopt v.now v.pid v.env.settings.bufferSize p).enter .running).goto .waiting))
        v.coordinator
  | exit (c : Child) (s : WaitStatus) : r.stage = .waiting → r.child = some c →
      c.status? v.now = some s →
      Move v x h r .exit (x.withRunner h (r.reap.goto (.ended (.ofStatus s)))) v.coordinator
  | cancel : r.stage = .waiting → x.cancel = true →
      Move v x h r .cancel (x.withRunner h ((r.kill v.now).goto (.ended .killed))) v.coordinator
  | leave (o : Outcome) : r.stage = .leaving o →
      Move v x h r .proceed
        (x.withRunner h (r.goto (if r.controlled then .disabling o else .recording o)))
        (match x.registration.id? with
          | some id => v.coordinator.remove id
          | none => v.coordinator)
  | disable (o : Outcome) : r.stage = .disabling o →
      Move v x h r .proceed (x.withRunner h.disableControl (r.goto (.detaching o))) v.coordinator
  | detach (o : Outcome) : r.stage = .detaching o →
      Move v x h r .proceed (x.withRunner h.detachControl (r.goto (.recording o))) v.coordinator
  | record (o : Outcome) : r.stage = .recording o →
      Move v x h r .proceed
        (x.withRunner { h with status := h.status.storeOutcome o } (r.goto (.forgetting o)))
        v.coordinator
  | forget (o : Outcome) : r.stage = .forgetting o →
      Move v x h r .proceed
        (x.withRunner { h with status := h.status.clearPid } (r.goto (.publishing o)))
        v.coordinator
  | publish (o : Outcome) : r.stage = .publishing o →
      Move v x h r .proceed
        (x.withRunner { h with status := h.status.publish } (r.goto .gone)) v.coordinator

namespace Runner

variable {v : View} {x : Member} {h : Handle} {r : Runner} {n : Member.Result}

/-- A line that is written brings the runner down, or it goes on. -/
theorem move_of_tell {line : String} {after : Runner} {events : List Event}
    (hw : r.stage.isWriting) (hc : Stage.Calm r.spec.options.survivor r.stage after.stage)
    (hs : after.spec = r.spec) (hk : after.controlled = r.controlled)
    (hd : after.child = r.child) (hf : after.fell = r.fell) :
    Move v x h r .proceed (tell v x h r line after events).member
      (tell v x h r line after events).coordinator := by
  unfold tell
  by_cases hv : h.sink.verdict .err = .fatal
  · simp only [hv, if_true]
    exact .fall _ hw hv
  · simp only [hv, if_false]
    exact .calm _ after hc hs hk hd hf

theorem move_of_launch (hs : r.stage = .launching) :
    Move v x h r .proceed (launch v x h r).member (launch v x h r).coordinator := by
  unfold launch
  split
  · next f hf =>
    exact .calm h.sink _ (by rw [hs]; exact .fail f) rfl rfl rfl rfl
  · next p hp => exact .launch p hs hp

/-- A registration that goes on without the runner leaves its member as it
    was. -/
theorem withRunner_self (hx : x.body = .handle h) (hr : h.runner = some r)
    (n : Registration.Result) : (x.enrol n).withRunner h r = x.enrol n := by
  cases x; cases h
  simp only [Member.withRunner, Member.setHandle, Member.enrol] at *
  rw [hx, hr]

theorem move_of_proceed (hx : x.body = .handle h) (hr : h.runner = some r)
    (hp : proceed v x h r = some n) : Move v x h r .proceed n.member n.coordinator := by
  unfold proceed at hp
  cases hs : r.stage with
  | created =>
    simp only [hs, Option.some.injEq] at hp
    subst hp
    refine .calm h.sink _ ?_ rfl rfl rfl rfl
    rw [hs]
    cases hv : r.spec.options.survivor with
    | false => exact .enlist rfl
    | true => exact .exempt rfl
  | registering =>
    simp only [hs, Option.bind_eq_bind, Option.bind_eq_some_iff, Option.pure_def,
      Option.some.injEq] at hp
    obtain ⟨n', hn', rfl⟩ := hp
    obtain ⟨n'', hstep, hm, hc⟩ := Member.register_eq_some hn'
    have hmove := Move.register (h := h) n'' hs hstep
    simp only [hm, hc, Member.enrol_registration]
    by_cases hset : n''.registration.isSettled
    · simpa only [hset, if_true] using hmove
    · simpa only [hset, Bool.false_eq_true, if_false, withRunner_self hx hr, hm, hc] using hmove
  | launching =>
    simp only [hs, Option.some.injEq] at hp
    subst hp
    exact move_of_launch hs
  | failing f =>
    simp only [hs, Option.some.injEq] at hp
    subst hp
    exact move_of_tell (by rw [hs]; rfl) (by rw [hs]; exact .failed f) rfl rfl rfl rfl
  | waiting => simp [hs] at hp
  | ended o =>
    simp only [hs, Option.some.injEq] at hp
    subst hp
    exact .calm h.sink _ (by rw [hs]; exact .drain o) rfl rfl rfl rfl
  | draining o =>
    simp only [hs, Option.bind_eq_bind, Option.bind_eq_some_iff] at hp
    obtain ⟨p, -, hp⟩ := hp
    split at hp
    · simp only [Option.some.injEq] at hp
      subst hp
      exact .calm h.sink _ (by rw [hs]; exact .drained o) rfl rfl rfl rfl
    · cases hp
  | telling o =>
    simp only [hs] at hp
    split at hp
    · next line _ =>
      simp only [Option.some.injEq] at hp
      subst hp
      exact .calm h.sink _ (by rw [hs]; exact .tell o line) rfl rfl rfl rfl
    · simp only [Option.some.injEq] at hp
      subst hp
      exact .calm h.sink _ (by rw [hs]; exact .silent o) rfl rfl rfl rfl
  | noting o line =>
    simp only [hs, Option.some.injEq] at hp
    subst hp
    exact move_of_tell (by rw [hs]; rfl) (by rw [hs]; exact .told o line) rfl rfl rfl rfl
  | closing o =>
    simp only [hs, Option.some.injEq] at hp
    subst hp
    exact .calm h.sink _ (by rw [hs]; exact .close o) rfl rfl rfl rfl
  | leaving o =>
    simp only [hs, Option.some.injEq] at hp
    subst hp
    exact .leave o hs
  | disabling o =>
    simp only [hs, Option.some.injEq] at hp
    subst hp
    exact .disable o hs
  | detaching o =>
    simp only [hs, Option.some.injEq] at hp
    subst hp
    exact .detach o hs
  | recording o =>
    simp only [hs, Option.some.injEq] at hp
    subst hp
    exact .record o hs
  | forgetting o =>
    simp only [hs, Option.some.injEq] at hp
    subst hp
    exact .forget o hs
  | publishing o =>
    simp only [hs, Option.some.injEq] at hp
    subst hp
    exact .publish o hs
  | gone => simp [hs] at hp

/-- **The steps of a runner are its moves.** -/
theorem move_of_step {s : RunnerStep} (hx : x.body = .handle h) (hr : h.runner = some r)
    (hs : r.step v x h s = some n) : Move v x h r s n.member n.coordinator := by
  cases s with
  | proceed => exact move_of_proceed hx hr hs
  | exit =>
    by_cases hw : r.stage = .waiting
    · simp only [step, hw, ne_eq, not_true_eq_false, if_false, Option.bind_eq_bind,
        Option.bind_eq_some_iff, Option.pure_def, Option.some.injEq] at hs
      obtain ⟨c, hc, status, hst, rfl⟩ := hs
      exact .exit c status hw hc hst
    · simp [step, hw] at hs
  | cancel =>
    simp only [step] at hs
    split at hs
    · next hw =>
      simp only [Option.some.injEq] at hs
      subst hs
      exact .cancel hw.1 hw.2
    · cases hs

end Runner

/-! ## Calls -/

/-- The stage a call comes to, and what becomes of the member it is about. -/
inductive Call.Move (bound now : Nat) (held : Bool) (x : Member) (h : Handle) (k : Call) :
    CallStage → Member → Prop where
  | disabled : k.stage = .entered → k.kind = .activate → h.isControlEnabled = false →
      Move bound now held x h k (.returned false) x
  | enabled : k.stage = .entered → k.kind = .activate → h.isControlEnabled = true →
      Move bound now held x h k .seeking x
  | begin : k.stage = .entered → k.kind = .stop → Move bound now held x h k .reading x
  | wait : k.stage = .entered → k.kind = .wait → h.status.state = .running →
      Move bound now held x h k .waiting x
  | pointless : k.stage = .entered → k.kind = .wait → h.status.state ≠ .running →
      Move bound now held x h k (.returned true) x
  | found : k.stage = .seeking → held = true → Move bound now held x h k .reading x
  | lost : k.stage = .seeking → held = false → Move bound now held x h k .disabling x
  | running : k.stage = .reading → h.status.state = .running →
      Move bound now held x h k .asking x
  | idle : k.stage = .reading → h.status.state ≠ .running →
      Move bound now held x h k k.leave.stage x
  | asked : k.stage = .asking → x.cancel = true → Move bound now held x h k k.leave.stage x
  | ask : k.stage = .asking → x.cancel = false →
      Move bound now held x h k (.bounded (now + bound)) { x with cancel := true }
  | finished (d : Nat) : k.stage = .bounded d → h.status.state = .finished →
      Move bound now held x h k k.leave.stage x
  | timeout (d : Nat) : k.stage = .bounded d → h.status.state ≠ .finished → d ≤ now →
      Move bound now held x h k k.leave.stage x
  | ended : k.stage = .waiting → h.status.state = .finished →
      Move bound now held x h k (.returned true) x
  | disable : k.stage = .disabling →
      Move bound now held x h k (.returned true) (x.setHandle h.disableControl)

namespace Call

variable {bound now : Nat} {held : Bool} {x : Member} {h : Handle} {k : Call} {n : Call.Result}

@[simp] theorem goto_kind (k : Call) (s : CallStage) : (k.goto s).kind = k.kind := rfl

theorem goto_leave (k : Call) : k.goto k.leave.stage = k.leave := rfl

/-- **The steps of a call are its moves**, and change nothing of it but the
    stage. -/
theorem move_of_step (hs : k.step bound now held x h = some n) :
    ∃ s, n.call = k.goto s ∧ Move bound now held x h k s n.member := by
  unfold step at hs
  cases hk : k.stage with
  | entered =>
    simp only [hk] at hs
    cases hkind : k.kind with
    | stop =>
      simp only [hkind, Option.some.injEq] at hs
      subst hs
      exact ⟨_, rfl, .begin hk hkind⟩
    | activate =>
      simp only [hkind, Option.some.injEq] at hs
      subst hs
      refine ⟨_, rfl, ?_⟩
      cases he : h.isControlEnabled with
      | false => exact .disabled hk hkind he
      | true => exact .enabled hk hkind he
    | wait =>
      simp only [hkind, Option.some.injEq] at hs
      subst hs
      refine ⟨_, rfl, ?_⟩
      by_cases hr : h.status.state = .running
      · simpa only [hr, if_true] using .wait hk hkind hr
      · simpa only [hr, if_false] using .pointless hk hkind hr
  | seeking =>
    simp only [hk, Option.some.injEq] at hs
    subst hs
    refine ⟨_, rfl, ?_⟩
    cases held with
    | false => exact .lost hk rfl
    | true => exact .found hk rfl
  | reading =>
    simp only [hk, Option.some.injEq] at hs
    subst hs
    by_cases hr : h.status.state = .running
    · simp only [hr, if_true]
      exact ⟨_, rfl, .running hk hr⟩
    · simp only [hr, if_false]
      exact ⟨_, rfl, .idle hk hr⟩
  | asking =>
    simp only [hk] at hs
    split at hs
    · next hc =>
      simp only [Option.some.injEq] at hs
      subst hs
      exact ⟨_, rfl, .asked hk hc⟩
    · next hc =>
      simp only [Option.some.injEq] at hs
      subst hs
      exact ⟨_, rfl, .ask hk (by simpa using hc)⟩
  | bounded d =>
    simp only [hk] at hs
    split at hs
    · next hf =>
      simp only [Option.some.injEq] at hs
      subst hs
      exact ⟨_, rfl, .finished d hk hf⟩
    · next hf =>
      split at hs
      · next hd =>
        simp only [Option.some.injEq] at hs
        subst hs
        exact ⟨_, rfl, .timeout d hk hf hd⟩
      · cases hs
  | waiting =>
    simp only [hk] at hs
    split at hs
    · next hf =>
      simp only [Option.some.injEq] at hs
      subst hs
      exact ⟨_, rfl, .ended hk hf⟩
    · cases hs
  | disabling =>
    simp only [hk, Option.some.injEq] at hs
    subst hs
    exact ⟨_, rfl, .disable hk⟩
  | returned b => simp [hk] at hs
  | abandoned => simp [hk] at hs

end Call

end Supervisor
