/-
  Members without their numbers.

  * `Member.anonymous`: a member but for the number that it has in the registry and for
    the pid of its child, of which only the presence is left;
  * what an operation, a step of a runner, an event of a pump and a step of a call
    make of a member does not depend on these numbers (`Runner.step_congr`,
    `Runner.pumpStep_congr`, `Call.step_congr`), nor on anything else of the
    coordinator than the flag of the sweeps and, for the one step that looks after
    it, the exit hook.
-/
import Supervisor.Proofs.Acts

namespace Supervisor

/-- A registration without its id. -/
def Registration.anonymous : Registration → Registration
  | idle => idle
  | numbered _ => numbered 0
  | refused _ => refused 0
  | inserted _ => inserted 0
  | hooking _ => hooking 0
  | settled _ => settled 0

/-- A child without its pid. -/
def Child.anonymous (c : Child) : Child := { c with pid := 0 }

/-- A runner without the pid of its child. -/
def Runner.anonymous (r : Runner) : Runner := { r with child := r.child.map Child.anonymous }

/-- A status of which only the presence of a pid is left. -/
def RunStatus.anonymous (s : RunStatus) : RunStatus := { s with pid := s.pid.map fun _ => 0 }

/-- A handle without pids. -/
def Handle.anonymous (h : Handle) : Handle :=
  { h with status := h.status.anonymous, runner := h.runner.map Runner.anonymous }

/-- A body without pids. -/
def Body.anonymous : Body → Body
  | guest g => guest g
  | handle h => handle h.anonymous

/-- A member without its numbers. -/
def Member.anonymous (x : Member) : Member :=
  { x with registration := x.registration.anonymous, body := x.body.anonymous }

/-! ## What is the same but for numbers -/

section
variable {x y : Member} {h k : Handle} {r q : Runner}

theorem Member.anonymous_withRunner (x : Member) (h : Handle) (r : Runner) :
    (x.withRunner h r).anonymous = x.anonymous.withRunner h.anonymous r.anonymous := rfl

theorem Member.anonymous_setHandle (x : Member) (h : Handle) :
    (x.setHandle h).anonymous = x.anonymous.setHandle h.anonymous := rfl

/-- What looks like a handle is one. -/
theorem Member.handle_of_anonymous (hx : y.anonymous = x.anonymous) (hb : x.body = .handle h) :
    ∃ k, y.body = .handle k ∧ k.anonymous = h.anonymous := by
  have hbody := congrArg Member.body hx
  simp only [Member.anonymous, hb] at hbody
  cases hk : y.body with
  | guest g => rw [hk] at hbody; cases hbody
  | handle k =>
    rw [hk] at hbody
    exact ⟨k, rfl, Body.handle.inj hbody⟩

theorem Handle.runner_of_anonymous (hk : k.anonymous = h.anonymous) (hr : h.runner = some r) :
    ∃ q, k.runner = some q ∧ q.anonymous = r.anonymous := by
  have hrunner := congrArg Handle.runner hk
  simp only [Handle.anonymous, hr, Option.map_some, Option.map_eq_some_iff] at hrunner
  exact hrunner

/-- Handles that are the same but for numbers. -/
theorem Handle.of_anonymous (hk : k.anonymous = h.anonymous) :
    k.command = h.command ∧ k.sink = h.sink ∧ k.options = h.options ∧ k.control = h.control ∧
      k.copies = h.copies ∧ k.status.state = h.status.state ∧
      k.status.outcome = h.status.outcome ∧ k.status.pid.isSome = h.status.pid.isSome := by
  refine ⟨(congrArg Handle.command hk :), (congrArg Handle.sink hk :), (congrArg Handle.options hk :),
    (congrArg Handle.control hk :), (congrArg Handle.copies hk :), ?_, ?_, ?_⟩
  · exact (congrArg (·.status.state) hk :)
  · exact (congrArg (·.status.outcome) hk :)
  · have := congrArg (·.status.pid.isSome) hk
    simpa [Handle.anonymous, RunStatus.anonymous] using this

/-- Runners that are the same but for numbers. -/
theorem Runner.of_anonymous (hq : q.anonymous = r.anonymous) :
    q.spec = r.spec ∧ q.controlled = r.controlled ∧ q.stage = r.stage ∧ q.phase = r.phase ∧
      q.pump = r.pump ∧ q.fell = r.fell :=
  ⟨(congrArg Runner.spec hq :), (congrArg Runner.controlled hq :), (congrArg Runner.stage hq :),
    (congrArg Runner.phase hq :), (congrArg Runner.pump hq :), (congrArg Runner.fell hq :)⟩

theorem Child.status?_of_anonymous {c d : Child} (hd : d.anonymous = c.anonymous) (now : Nat) :
    d.status? now = c.status? now := by
  have he : d.exit = c.exit := (congrArg Child.exit hd :)
  have hr : d.reaped = c.reaped := (congrArg Child.reaped hd :)
  unfold Child.status?
  rw [he, hr]

theorem Runner.child_of_anonymous {c : Child} (hq : q.anonymous = r.anonymous)
    (hc : r.child = some c) : ∃ d, q.child = some d ∧ d.anonymous = c.anonymous := by
  have hchild := congrArg Runner.child hq
  simp only [Runner.anonymous, hc, Option.map_some, Option.map_eq_some_iff] at hchild
  exact hchild

theorem Runner.anonymous_reap (r : Runner) : r.reap.anonymous = r.anonymous.reap := by
  simp only [Runner.reap, Runner.anonymous, Option.map_map]
  rfl

theorem Runner.anonymous_kill (r : Runner) (now : Nat) :
    (r.kill now).anonymous = r.anonymous.kill now := by
  simp only [Runner.kill, Runner.reap, Runner.anonymous, Option.map_map]
  rfl

theorem RunStatus.anonymous_advance (s : RunStatus) (next : RunState) :
    (s.advance next).anonymous = s.anonymous.advance next := by
  by_cases hn : s.state < next
  · simp [advance, canAdvance, RunStatus.anonymous, hn]
  · simp [advance, canAdvance, RunStatus.anonymous, hn]

end

/-! ## Operations -/

section
variable {h k : Handle}

theorem Handle.guard_congr (hk : k.anonymous = h.anonymous) (op : Operation) :
    k.guard op = h.guard op := by
  unfold Handle.guard
  rw [(Handle.of_anonymous hk).2.2.2.2.2.1]

theorem Handle.configure_congr (hk : k.anonymous = h.anonymous) (c : Change) :
    (k.configure c).map anonymous = (h.configure c).map anonymous := by
  unfold Handle.configure
  rw [Handle.guard_congr hk]
  cases h.guard c.operation with
  | error e => rfl
  | ok u =>
    have heq := congrArg (fun k : Handle => { k with options := k.options.apply c }) hk
    exact congrArg Except.ok heq

theorem Handle.createControl_congr (hk : k.anonymous = h.anonymous) (label : String) :
    (k.createControl label).map anonymous = (h.createControl label).map anonymous := by
  unfold Handle.createControl
  rw [Handle.guard_congr hk]
  cases h.guard .createStopControl with
  | error e => rfl
  | ok u =>
    have heq := congrArg (fun k : Handle =>
      { k with control := k.control <|> some ({ label := label } : StopControl) }) hk
    exact congrArg Except.ok heq

theorem Handle.start_congr (hk : k.anonymous = h.anonymous) (canSpawn : Bool) :
    (k.start canSpawn).map anonymous = (h.start canSpawn).map anonymous := by
  unfold Handle.start
  rw [Handle.guard_congr hk]
  cases h.guard .start with
  | error e => rfl
  | ok u =>
    cases canSpawn with
    | false => rfl
    | true =>
      have hst : (k.status.advance .running).anonymous = (h.status.advance .running).anonymous := by
        rw [RunStatus.anonymous_advance, RunStatus.anonymous_advance]
        exact (congrArg (·.status.advance .running) hk :)
      have heq := congrArg (fun k : Handle => ({ k with
        status := (h.status.advance .running).anonymous
        runner := some { spec := k.spec, controlled := k.control.isSome } } : Handle)) hk
      refine congrArg Except.ok (Eq.trans ?_ heq)
      rw [← hst]
      rfl

end

/-! ## Registrations -/

theorem Registration.isSettled_anonymous (g : Registration) :
    g.anonymous.isSettled = g.isSettled := by
  cases g <;> rfl

section
variable {g g' : Registration} {hasHooks : Bool} {c c' : Coordinator}

/-- Only one who is inserted looks at the exit hook. -/
theorem Registration.step_congr (e e' : Entry) (hg : g'.anonymous = g.anonymous)
    (hdown : c'.shuttingDown = c.shuttingDown)
    (hhook : g.anonymous = .inserted 0 → hasHooks = true → c'.hookClaimed = c.hookClaimed) :
    (g'.step hasHooks e' c').map (fun n => (n.registration.anonymous, n.cancels)) =
      (g.step hasHooks e c).map fun n => (n.registration.anonymous, n.cancels) := by
  cases g with
  | inserted id =>
    cases g' with
    | inserted id' =>
      cases hasHooks with
      | false => rfl
      | true =>
        simp only [step, hhook rfl rfl]
        split <;> rfl
    | _ => cases hg
  | numbered id =>
    cases g' with
    | numbered id' =>
      simp only [step, hdown]
      split <;> rfl
    | _ => cases hg
  | _ => cases g' <;> first | rfl | cases hg

variable {x y : Member} {m n : Nat}

theorem Member.register_congr (hx : y.anonymous = x.anonymous)
    (hdown : c'.shuttingDown = c.shuttingDown)
    (hhook : x.registration.anonymous = .inserted 0 → hasHooks = true →
      c'.hookClaimed = c.hookClaimed) :
    (y.register hasHooks n c').map (·.member.anonymous) =
      (x.register hasHooks m c).map (·.member.anonymous) := by
  have hg : y.registration.anonymous = x.registration.anonymous :=
    (congrArg Member.registration hx :)
  have hstep := Registration.step_congr ⟨x.label, m⟩ ⟨y.label, n⟩ hg hdown hhook
  have hcancel : y.cancel = x.cancel := (congrArg Member.cancel hx :)
  unfold Member.register
  cases hs : x.registration.step hasHooks ⟨x.label, m⟩ c with
  | none =>
    rw [hs, Option.map_none, Option.map_eq_none_iff] at hstep
    rw [hstep]
    rfl
  | some next =>
    rw [hs, Option.map_some, Option.map_eq_some_iff] at hstep
    obtain ⟨next', hs', heq⟩ := hstep
    rw [hs']
    have heq' := Prod.mk.inj heq
    have hmem := congrArg (fun x : Member => ({ x with
      registration := next.registration.anonymous, cancel := x.cancel || next.cancels } : Member)) hx
    refine congrArg some (Eq.trans ?_ hmem)
    simp only [Member.anonymous, heq'.1, heq'.2]

end

/-! ## Steps -/

namespace Runner

variable {v u : View} {x y : Member} {h k : Handle} {r q : Runner}

/-- What matters of two views: they are of the same host at the same time, and no sweep
    has begun in one of them alone. -/
structure View.Alike (v u : View) : Prop where
  env : u.env = v.env
  now : u.now = v.now
  shuttingDown : u.coordinator.shuttingDown = v.coordinator.shuttingDown

theorem tell_congr (hv : v.Alike u) (hx : y.anonymous = x.anonymous)
    (hk : k.anonymous = h.anonymous) (hq : q.anonymous = r.anonymous) {line : String}
    {after after' : Runner} {events events' : List Event}
    (ha : after'.anonymous = after.anonymous) :
    (tell u y k q line after' events').member.anonymous =
      (tell v x h r line after events).member.anonymous := by
  have hsink : k.sink = h.sink := (Handle.of_anonymous hk).2.1
  have htold := congrArg
    (fun k : Handle => ({ k with sink := h.sink.notice v.now line } : Handle)) hk
  unfold tell
  rw [hsink, hv.now]
  split
  · rw [Member.anonymous_withRunner, Member.anonymous_withRunner, hx]
    congr 1
    exact congrArg Runner.fall hq
  · rw [Member.anonymous_withRunner, Member.anonymous_withRunner, hx, ha]
    congr 1

theorem launch_congr (hv : v.Alike u) (hx : y.anonymous = x.anonymous)
    (hk : k.anonymous = h.anonymous) (hq : q.anonymous = r.anonymous) :
    (launch u y k q).member.anonymous = (launch v x h r).member.anonymous := by
  have hspec : q.spec = r.spec := (Runner.of_anonymous hq).1
  unfold launch
  rw [hv.env, hv.now, hspec]
  split
  · rw [Member.anonymous_withRunner, Member.anonymous_withRunner, hx, hk]
    congr 1
    exact (congrArg (fun r : Runner => r.goto (.failing _)) hq :)
  · next p _ =>
    rw [Member.anonymous_withRunner, Member.anonymous_withRunner, hx]
    congr 1
    · exact (congrArg (fun k : Handle =>
        ({ k with status := { k.status with pid := some 0 } } : Handle)) hk :)
    · exact (congrArg (fun r : Runner =>
        ((r.adopt v.now 0 v.env.settings.bufferSize p).enter .running).goto .waiting) hq :)

theorem withRunner_congr {k' h' : Handle} {q' r' : Runner} (hx : y.anonymous = x.anonymous)
    (hk : k'.anonymous = h'.anonymous) (hq : q'.anonymous = r'.anonymous) :
    (y.withRunner k' q').anonymous = (x.withRunner h' r').anonymous := by
  rw [Member.anonymous_withRunner, Member.anonymous_withRunner, hx, hk, hq]

theorem goto_congr (hq : q.anonymous = r.anonymous) (s : Stage) :
    (q.goto s).anonymous = (r.goto s).anonymous :=
  (congrArg (fun r : Runner => r.goto s) hq :)

/-- **What a runner makes of its member does not depend on numbers.** -/
theorem proceed_congr (hv : v.Alike u) (hx : y.anonymous = x.anonymous)
    (hk : k.anonymous = h.anonymous) (hq : q.anonymous = r.anonymous)
    (hhook : r.stage = .registering → x.registration.anonymous = .inserted 0 →
      v.env.hasHooks = true → u.coordinator.hookClaimed = v.coordinator.hookClaimed) :
    (proceed u y k q).map (·.member.anonymous) = (proceed v x h r).map (·.member.anonymous) := by
  obtain ⟨hspec, hctl, hstage, hphase, hpump, hfell⟩ := Runner.of_anonymous hq
  have hgoto := goto_congr hq
  have hlate : ∀ {k' h' : Handle} {c c' : Coordinator} {es es' : List Event} (s : Stage),
      k'.anonymous = h'.anonymous →
      (some (⟨y.withRunner k' (q.goto s), c', es'⟩ : Member.Result)).map (·.member.anonymous) =
        (some (⟨x.withRunner h' (r.goto s), c, es⟩ : Member.Result)).map (·.member.anonymous) :=
    fun s hk' => congrArg some (withRunner_congr hx hk' (hgoto s))
  unfold proceed
  rw [hstage]
  cases hs : r.stage with
  | created =>
    simp only [hspec]
    exact congrArg some (withRunner_congr hx hk
      (congrArg (fun r : Runner => (r.enter .launching).goto _) hq :))
  | registering =>
    have hreg := Member.register_congr (m := v.index) (n := u.index) hx hv.shuttingDown (hhook hs)
    dsimp only
    rw [hv.env]
    cases hn : x.register v.env.hasHooks v.index v.coordinator with
    | none =>
      rw [hn, Option.map_none, Option.map_eq_none_iff] at hreg
      rw [hreg]
      rfl
    | some n =>
      rw [hn, Option.map_some, Option.map_eq_some_iff] at hreg
      obtain ⟨n', hn', heq⟩ := hreg
      have hsettled : n'.member.registration.isSettled = n.member.registration.isSettled := by
        rw [← Registration.isSettled_anonymous, ← n.member.registration.isSettled_anonymous]
        exact (congrArg (·.registration.isSettled) heq :)
      rw [hn']
      refine congrArg some ?_
      dsimp only
      rw [hsettled]
      split
      · exact withRunner_congr heq hk (hgoto _)
      · exact heq
  | launching => exact congrArg some (launch_congr hv hx hk hq)
  | failing f =>
    dsimp only
    rw [launchNotice_eq, launchNotice_eq, hspec]
    exact congrArg some (tell_congr hv hx hk hq
      (congrArg (fun r : Runner => (r.enter .terminated).goto _) hq :))
  | waiting => rfl
  | ended o =>
    dsimp only
    rw [hv.env, hv.now]
    exact congrArg some (withRunner_congr hx hk
      (congrArg (fun r : Runner => ((r.order _ _).enter .draining).goto _) hq :))
  | draining o =>
    dsimp only
    rw [hpump]
    cases r.pump with
    | none => rfl
    | some p =>
      simp only [Option.bind_eq_bind, Option.bind_some]
      split
      · exact hlate _ hk
      · rfl
  | telling o =>
    have hnote : q.lastNotice u.coordinator.shuttingDown o =
        r.lastNotice v.coordinator.shuttingDown o := by
      simp only [Runner.lastNotice, hspec, hv.shuttingDown]
    simp only [hnote]
    split
    · exact hlate _ hk
    · exact hlate _ hk
  | noting o line => exact congrArg some (tell_congr hv hx hk hq (hgoto _))
  | closing o =>
    exact congrArg some (withRunner_congr hx hk
      (congrArg (fun r : Runner => (r.enter .terminated).goto _) hq :))
  | leaving o => simp only [hctl]; exact hlate _ hk
  | disabling o => exact hlate _ (congrArg Handle.disableControl hk :)
  | detaching o => exact hlate _ (congrArg Handle.detachControl hk :)
  | recording o =>
    exact hlate _ (congrArg (fun k : Handle =>
      ({ k with status := k.status.storeOutcome o } : Handle)) hk :)
  | forgetting o =>
    exact hlate _ (congrArg (fun k : Handle =>
      ({ k with status := k.status.clearPid } : Handle)) hk :)
  | publishing o =>
    have hst : k.status.publish.anonymous = h.status.publish.anonymous := by
      unfold RunStatus.publish
      rw [RunStatus.anonymous_advance, RunStatus.anonymous_advance]
      exact (congrArg (·.status.advance .finished) hk :)
    have heq := congrArg
      (fun k : Handle => ({ k with status := h.status.publish.anonymous } : Handle)) hk
    refine hlate _ (Eq.trans ?_ heq)
    rw [← hst]
    rfl
  | gone => rfl

theorem step_congr (hv : v.Alike u) (hx : y.anonymous = x.anonymous)
    (hk : k.anonymous = h.anonymous) (hq : q.anonymous = r.anonymous)
    (hhook : r.stage = .registering → x.registration.anonymous = .inserted 0 →
      v.env.hasHooks = true → u.coordinator.hookClaimed = v.coordinator.hookClaimed)
    (s : RunnerStep) :
    (q.step u y k s).map (·.member.anonymous) = (r.step v x h s).map (·.member.anonymous) := by
  obtain ⟨-, -, hstage, -, -, -⟩ := Runner.of_anonymous hq
  have hcancel : y.cancel = x.cancel := (congrArg Member.cancel hx :)
  cases s with
  | proceed => exact proceed_congr hv hx hk hq hhook
  | exit =>
    simp only [step, hstage, hv.now, Option.bind_eq_bind]
    by_cases hs : r.stage = .waiting
    · simp only [hs, ne_eq, not_true_eq_false, if_false]
      cases hc : r.child with
      | none =>
        have hd : q.child = none := by simpa [anonymous, hc] using congrArg Runner.child hq
        rw [hd]
        rfl
      | some c =>
        obtain ⟨d, hd, heq⟩ := child_of_anonymous hq hc
        rw [hd, Option.bind_some, Option.bind_some, Child.status?_of_anonymous heq]
        cases c.status? v.now with
        | none => rfl
        | some st =>
          refine congrArg some (withRunner_congr hx hk ?_)
          exact goto_congr (by rw [anonymous_reap, anonymous_reap, hq]) _
    · simp [hs]
  | cancel =>
    unfold step
    dsimp only
    rw [hstage, hcancel, hv.now]
    split
    · refine congrArg some (withRunner_congr hx hk ?_)
      exact goto_congr (by rw [anonymous_kill, anonymous_kill, hq]) _
    · rfl

theorem pumpStep_congr (hv : v.Alike u) (hx : y.anonymous = x.anonymous)
    (hk : k.anonymous = h.anonymous) (hq : q.anonymous = r.anonymous) (e : PumpEvent) :
    (q.pumpStep u y k e).map (·.member.anonymous) =
      (r.pumpStep v x h e).map (·.member.anonymous) := by
  obtain ⟨hspec, -, -, -, hpump, -⟩ := Runner.of_anonymous hq
  have hsink : k.sink = h.sink := (Handle.of_anonymous hk).2.1
  unfold pumpStep
  rw [hpump, hsink, hv.now]
  cases r.pump with
  | none => rfl
  | some p =>
    cases hp : p.step h.sink v.now e with
    | none => simp [hp]
    | some n =>
      simp only [hp, Option.bind_eq_bind, Option.bind_some, Option.pure_def]
      refine congrArg some (withRunner_congr hx ?_ ?_)
      · exact (congrArg (fun k : Handle => ({ k with sink := n.sink } : Handle)) hk :)
      · have hchild : (if n.pump.stage = .ended .fatal then q.child.map (unread u q) else q.child).map
            Child.anonymous = (if n.pump.stage = .ended .fatal then r.child.map (unread v r)
              else r.child).map Child.anonymous := by
          have hc : q.child.map Child.anonymous = r.child.map Child.anonymous :=
            (congrArg Runner.child hq :)
          split
          · have hfun : unread u q = unread v r := by
              funext c
              simp only [unread, hspec, hv.env, hv.now]
            have hcomm : Child.anonymous ∘ unread v r = unread v r ∘ Child.anonymous := rfl
            rw [hfun, Option.map_map, Option.map_map, hcomm, ← Option.map_map, hc, Option.map_map]
          · exact hc
        have heq := congrArg (fun r' : Runner => ({ r' with
          pump := some n.pump
          child := (if n.pump.stage = .ended .fatal then r.child.map (unread v r)
            else r.child).map Child.anonymous } : Runner)) hq
        refine Eq.trans ?_ heq
        rw [← hchild]
        rfl

end Runner

/-- **What a call makes of itself and of its member does not depend on numbers**, nor on which
    member it names. -/
theorem Call.step_congr {x y : Member} {h k : Handle} {c d : Call} (bound now : Nat) (held : Bool)
    (hx : y.anonymous = x.anonymous) (hk : k.anonymous = h.anonymous) (hkind : d.kind = c.kind)
    (hstage : d.stage = c.stage) :
    (d.step bound now held y k).map (fun n => (n.call.stage, n.member.anonymous)) =
      (c.step bound now held x h).map fun n => (n.call.stage, n.member.anonymous) := by
  obtain ⟨hcmd, -, -, hctl, -, hst, -, -⟩ := Handle.of_anonymous hk
  have hcancel : y.cancel = x.cancel := (congrArg Member.cancel hx :)
  have hleave : d.leave.stage = c.leave.stage := by
    simp only [Call.leave, hkind, Call.goto]
  have henabled : k.isControlEnabled = h.isControlEnabled := by
    simp only [Handle.isControlEnabled, hctl]
  unfold Call.step
  rw [hstage]
  cases c.stage with
  | entered =>
    dsimp only
    rw [hkind]
    cases c.kind with
    | activate => simp [henabled, hx, Call.goto]
    | stop => simp [hx, Call.goto]
    | wait => simp [hst, hx, Call.goto]
  | seeking => simp [hx, Call.goto]
  | reading =>
    simp only [hst]
    split
    · simp [hx, Call.goto]
    · simp [hx, hleave]
  | asking =>
    simp only [hcancel]
    split
    · simp [hx, hleave]
    · have hasked := congrArg (fun x : Member => ({ x with cancel := true } : Member)) hx
      exact congrArg (fun x => some (CallStage.bounded (now + bound), x)) hasked
  | bounded deadline =>
    simp only [hst]
    split
    · simp [hx, hleave]
    · split
      · simp [hx, hleave]
      · rfl
  | waiting =>
    simp only [hst]
    split
    · simp [hx, Call.goto]
    · rfl
  | disabling =>
    have hdis : (y.setHandle k.disableControl).anonymous = (x.setHandle h.disableControl).anonymous := by
      rw [Member.anonymous_setHandle, Member.anonymous_setHandle, hx]
      congr 1
      exact (congrArg Handle.disableControl hk :)
    simp [hdis, Call.goto]
  | returned b => rfl
  | abandoned => rfl

end Supervisor
