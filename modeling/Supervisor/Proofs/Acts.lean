/-
  What a step of a runner does to its handle, in full.

  * `LaunchSpec.failureLine`: the line of a launch that failed, in full
    (`Runner.launchNotice_eq`);
  * `Runner.Act`: the steps of a runner with all that they write, read and wait for
    (`Runner.act_of_step`); `Runner.Move` tells less of the sink and of the
    pump, and more of the coordinator;
  * `Runner.Advance`: what becomes of a run that has begun, in an action of whatever
    party (`advance_of_step`);
  * `Stage.rank`: how far a runner is, which no step takes back (`Act.rank_lt`).
-/
import Supervisor.Proofs.Forwarding
import Supervisor.Proofs.Lifecycle

namespace Supervisor

/-- The line of a launch that failed. -/
def LaunchSpec.failureLine (spec : LaunchSpec) (f : Fault) : String :=
  "failed to launch '" ++ spec.program ++ "': spawning '" ++ spec.program ++ "': " ++ f.message

namespace Runner

/-- The pump is told to finish. -/
def order (r : Runner) (now grace : Nat) : Runner :=
  { r with pump := r.pump.map fun p => { p with order := p.order.give now grace } }

theorem launchNotice_eq (r : Runner) (f : Fault) : r.launchNotice f = r.spec.failureLine f := by
  have hjoin : "': spawning '" = "': " ++ "spawning '" := by decide
  unfold LaunchSpec.failureLine launchNotice launchError program
  simp only [hjoin, String.append_assoc]

/-- What a step of the runner `r` of the handle `h` makes of both. -/
inductive Act (v : View) (x : Member) (h : Handle) (r : Runner) :
    RunnerStep → Handle → Runner → Prop where
  | begin : r.stage = .created →
      Act v x h r .proceed h ((r.enter .launching).goto
        (if r.spec.options.survivor then .launching else .registering))
  | register (n : Registration.Result) : r.stage = .registering →
      x.registration.step v.env.hasHooks ⟨x.label, v.index⟩ v.coordinator = some n →
      Act v x h r .proceed h (if n.registration.isSettled then r.goto .launching else r)
  | launch (p : Process) : r.stage = .launching → v.env.launch r.spec v.now = .ok p →
      Act v x h r .proceed { h with status := { h.status with pid := some v.pid } }
        (((r.adopt v.now v.pid v.env.settings.bufferSize p).enter .running).goto .waiting)
  | refuse (f : Fault) : r.stage = .launching → v.env.launch r.spec v.now = .error f →
      Act v x h r .proceed h (r.goto (.failing f))
  | exit (c : Child) (s : WaitStatus) : r.stage = .waiting → r.child = some c →
      c.status? v.now = some s → Act v x h r .exit h (r.reap.goto (.ended (.ofStatus s)))
  | cancel : r.stage = .waiting → x.cancel = true →
      Act v x h r .cancel h ((r.kill v.now).goto (.ended .killed))
  | drain (o : Outcome) : r.stage = .ended o →
      Act v x h r .proceed h
        (((r.order v.now v.env.settings.gracePeriod).enter .draining).goto (.draining o))
  | drained (o : Outcome) (p : Pump) : r.stage = .draining o → r.pump = some p →
      p.isEnded = true → Act v x h r .proceed h (r.goto (.telling o))
  | resolve (o : Outcome) (line : String) : r.stage = .telling o →
      r.lastNotice v.coordinator.shuttingDown o = some line →
      Act v x h r .proceed h (r.goto (.noting o line))
  | silent (o : Outcome) : r.stage = .telling o →
      r.lastNotice v.coordinator.shuttingDown o = none →
      Act v x h r .proceed h (r.goto (.closing o))
  | tellFailure (f : Fault) : r.stage = .failing f → h.sink.verdict .err ≠ .fatal →
      Act v x h r .proceed { h with sink := h.sink.notice v.now (r.launchNotice f) }
        ((r.enter .terminated).goto (.leaving .launchFailed))
  | tellEnd (o : Outcome) (line : String) : r.stage = .noting o line →
      h.sink.verdict .err ≠ .fatal →
      Act v x h r .proceed { h with sink := h.sink.notice v.now line } (r.goto (.closing o))
  | fall (line : String) : r.stage.isWriting = true → h.sink.verdict .err = .fatal →
      Act v x h r .proceed { h with sink := h.sink.notice v.now line } r.fall
  | close (o : Outcome) : r.stage = .closing o →
      Act v x h r .proceed h ((r.enter .terminated).goto (.leaving o))
  | leave (o : Outcome) : r.stage = .leaving o →
      Act v x h r .proceed h (r.goto (if r.controlled then .disabling o else .recording o))
  | disable (o : Outcome) : r.stage = .disabling o →
      Act v x h r .proceed h.disableControl (r.goto (.detaching o))
  | detach (o : Outcome) : r.stage = .detaching o →
      Act v x h r .proceed h.detachControl (r.goto (.recording o))
  | record (o : Outcome) : r.stage = .recording o →
      Act v x h r .proceed { h with status := h.status.storeOutcome o } (r.goto (.forgetting o))
  | forget (o : Outcome) : r.stage = .forgetting o →
      Act v x h r .proceed { h with status := h.status.clearPid } (r.goto (.publishing o))
  | publish (o : Outcome) : r.stage = .publishing o →
      Act v x h r .proceed { h with status := h.status.publish } (r.goto .gone)

variable {v : View} {x : Member} {h : Handle} {r : Runner} {n : Member.Result} {s : RunnerStep}

/-- The member after a step has the handle and the runner of an act; it is
    registered and cancelled only while the runner registers. -/
structure HasActed (v : View) (x : Member) (h : Handle) (r : Runner) (s : RunnerStep)
    (x' : Member) : Prop where
  act : ∃ h' r', Act v x h r s h' r' ∧ x'.body = .handle { h' with runner := some r' }
  registration : r.stage ≠ .registering → x'.registration = x.registration
  cancel : r.stage ≠ .registering → x'.cancel = x.cancel
  enrolment : r.stage = .registering → ∃ n,
    x.registration.step v.env.hasHooks ⟨x.label, v.index⟩ v.coordinator = some n ∧
      x'.registration = n.registration

theorem Act.hasActed {h' : Handle} {r' : Runner} (ha : Act v x h r s h' r')
    (hs : r.stage ≠ .registering) : HasActed v x h r s (x.withRunner h' r') :=
  ⟨⟨h', r', ha, rfl⟩, fun _ => rfl, fun _ => rfl, fun hs' => absurd hs' hs⟩

theorem hasActed_of_tell {line : String} {after : Runner} {events : List Event}
    (hw : r.stage.isWriting = true)
    (ha : h.sink.verdict .err ≠ .fatal →
      Act v x h r .proceed { h with sink := h.sink.notice v.now line } after) :
    HasActed v x h r .proceed (tell v x h r line after events).member := by
  have hs : r.stage ≠ .registering := fun hs => by rw [hs] at hw; cases hw
  unfold tell
  by_cases hv : h.sink.verdict .err = .fatal
  · simp only [hv, if_true]
    exact (Act.fall line hw hv).hasActed hs
  · simp only [hv, if_false]
    exact (ha hv).hasActed hs

theorem hasActed_of_launch (hs : r.stage = .launching) :
    HasActed v x h r .proceed (launch v x h r).member := by
  have hne : r.stage ≠ .registering := by simp [hs]
  unfold launch
  split
  · next f hf => exact (Act.refuse f hs hf).hasActed hne
  · next p hp => exact (Act.launch p hs hp).hasActed hne

theorem hasActed_of_register {n : Member.Result} (hx : x.body = .handle h)
    (hr : h.runner = some r) (hs : r.stage = .registering)
    (hn : x.register v.env.hasHooks v.index v.coordinator = some n) :
    HasActed v x h r .proceed (if n.member.registration.isSettled then
      n.member.withRunner h (r.goto .launching) else n.member) := by
  obtain ⟨n', hstep, hm, -⟩ := Member.register_eq_some hn
  rw [hm, Member.enrol_registration]
  refine ⟨⟨h, _, .register n' hs hstep, ?_⟩, fun hne => absurd hs hne, fun hne => absurd hs hne,
    fun _ => ⟨n', hstep, ?_⟩⟩
  · by_cases hset : n'.registration.isSettled = true
    · rw [if_pos hset, if_pos hset]
      rfl
    · rw [if_neg hset, if_neg hset, Member.enrol_body, hx, ← hr]
  · split <;> rfl

theorem hasActed_of_proceed (hx : x.body = .handle h) (hr : h.runner = some r)
    (hp : proceed v x h r = some n) : HasActed v x h r .proceed n.member := by
  unfold proceed at hp
  cases hs : r.stage with
  | registering =>
    simp only [hs, Option.bind_eq_bind, Option.bind_eq_some_iff, Option.pure_def,
      Option.some.injEq] at hp
    obtain ⟨n', hn', rfl⟩ := hp
    have := hasActed_of_register hx hr hs hn'
    split at this <;> rename_i hset <;> simpa only [hset, if_true, if_false, Bool.false_eq_true] using this
  | launching =>
    simp only [hs, Option.some.injEq] at hp
    subst hp
    exact hasActed_of_launch hs
  | failing f =>
    simp only [hs, Option.some.injEq] at hp
    subst hp
    exact hasActed_of_tell (by rw [hs]; rfl) (.tellFailure f hs)
  | noting o line =>
    simp only [hs, Option.some.injEq] at hp
    subst hp
    exact hasActed_of_tell (by rw [hs]; rfl) (.tellEnd o line hs)
  | draining o =>
    simp only [hs, Option.bind_eq_bind, Option.bind_eq_some_iff] at hp
    obtain ⟨p, hpump, hp⟩ := hp
    split at hp
    · next he =>
      simp only [Option.some.injEq] at hp
      subst hp
      exact (Act.drained o p hs hpump he).hasActed (by simp [hs])
    · cases hp
  | telling o =>
    simp only [hs] at hp
    split at hp
    · next line hl =>
      simp only [Option.some.injEq] at hp
      subst hp
      exact (Act.resolve o line hs hl).hasActed (by simp [hs])
    · next hl =>
      simp only [Option.some.injEq] at hp
      subst hp
      exact (Act.silent o hs hl).hasActed (by simp [hs])
  | waiting => simp [hs] at hp
  | gone => simp [hs] at hp
  | created =>
    simp only [hs, Option.some.injEq] at hp
    subst hp
    exact (Act.begin hs).hasActed (by simp [hs])
  | ended o =>
    simp only [hs, Option.some.injEq] at hp
    subst hp
    exact (Act.drain o hs).hasActed (by simp [hs])
  | closing o =>
    simp only [hs, Option.some.injEq] at hp
    subst hp
    exact (Act.close o hs).hasActed (by simp [hs])
  | leaving o =>
    simp only [hs, Option.some.injEq] at hp
    subst hp
    exact (Act.leave o hs).hasActed (by simp [hs])
  | disabling o =>
    simp only [hs, Option.some.injEq] at hp
    subst hp
    exact (Act.disable o hs).hasActed (by simp [hs])
  | detaching o =>
    simp only [hs, Option.some.injEq] at hp
    subst hp
    exact (Act.detach o hs).hasActed (by simp [hs])
  | recording o =>
    simp only [hs, Option.some.injEq] at hp
    subst hp
    exact (Act.record o hs).hasActed (by simp [hs])
  | forgetting o =>
    simp only [hs, Option.some.injEq] at hp
    subst hp
    exact (Act.forget o hs).hasActed (by simp [hs])
  | publishing o =>
    simp only [hs, Option.some.injEq] at hp
    subst hp
    exact (Act.publish o hs).hasActed (by simp [hs])

/-- **The steps of a runner are its acts.** -/
theorem act_of_step (hx : x.body = .handle h) (hr : h.runner = some r)
    (hs : r.step v x h s = some n) : HasActed v x h r s n.member := by
  cases s with
  | proceed => exact hasActed_of_proceed hx hr hs
  | exit =>
    by_cases hw : r.stage = .waiting
    · simp only [step, hw, ne_eq, not_true_eq_false, if_false, Option.bind_eq_bind,
        Option.bind_eq_some_iff, Option.pure_def, Option.some.injEq] at hs
      obtain ⟨c, hc, status, hst, rfl⟩ := hs
      exact (Act.exit c status hw hc hst).hasActed (by simp [hw])
    · simp [step, hw] at hs
  | cancel =>
    simp only [step] at hs
    split at hs
    · next hw =>
      simp only [Option.some.injEq] at hs
      subst hs
      exact (Act.cancel hw.1 hw.2).hasActed (by simp [hw.1])
    · cases hs

/-- An event of the pump of a runner is a turn of the pump. -/
theorem turn_of_pumpStep {e : PumpEvent} (hs : r.pumpStep v x h e = some n) :
    ∃ p p' k', r.pump = some p ∧ Pump.Turn v.now p h.sink e p' k' ∧
      n.member = x.withRunner { h with sink := k' }
        { r with pump := some p', child := r.childAfter v p' } := by
  simp only [pumpStep, Option.bind_eq_bind, Option.bind_eq_some_iff, Option.pure_def,
    Option.some.injEq] at hs
  obtain ⟨p, hp, next, hn, rfl⟩ := hs
  exact ⟨p, next.pump, next.sink, hp, Pump.turn_of_step hn, rfl⟩

/-- What can become of the run of the handle `h` at the place `m` in an action of
    whatever party. -/
inductive Advance (env : Environment) (w : World) (m : Nat) (x : Member) (h : Handle)
    (r : Runner) : Action → Handle → Runner → Prop where
  | act {s : RunnerStep} {h' : Handle} {r' : Runner} : Act (w.view env m) x h r s h' r' →
      Advance env w m x h r (.runner m s) h' r'
  | pump {e : PumpEvent} {p p' : Pump} {k' : Sink} : r.pump = some p →
      Pump.Turn w.now p h.sink e p' k' →
      Advance env w m x h r (.pump m e) { h with sink := k' }
        { r with pump := some p', child := r.childAfter (w.view env m) p' }
  | idle {a : Action} {h' : Handle} : h'.sink = h.sink → h'.status = h.status →
      Advance env w m x h r a h' r

end Runner

/-! ## How far a runner is -/

/-- The place of a stage in the life of a runner. -/
def Stage.rank : Stage → Nat
  | created => 0
  | registering => 1
  | launching => 2
  | failing _ | waiting => 3
  | ended _ => 4
  | draining _ => 5
  | telling _ => 6
  | noting _ _ => 7
  | closing _ => 8
  | leaving _ => 9
  | disabling _ => 10
  | detaching _ => 11
  | recording _ => 12
  | forgetting _ => 13
  | publishing _ => 14
  | gone => 15

namespace Runner

variable {v : View} {x : Member} {h h' : Handle} {r r' : Runner} {s : RunnerStep}

/-- A step of a runner writes nothing, or one line. -/
theorem Act.sink (ha : Act v x h r s h' r') :
    h'.sink = h.sink ∨ ∃ line, h'.sink = h.sink.notice v.now line := by
  cases ha with
  | tellFailure f _ _ => exact Or.inr ⟨_, rfl⟩
  | tellEnd o line _ _ => exact Or.inr ⟨_, rfl⟩
  | fall line _ _ => exact Or.inr ⟨_, rfl⟩
  | _ => exact Or.inl rfl

/-- A runner that has a pump keeps it. -/
theorem Act.pump_eq_none (ha : Act v x h r s h' r') (hp : r'.pump = none) : r.pump = none := by
  cases ha with
  | launch p _ _ => cases hp
  | register n _ _ => split at hp <;> exact hp
  | cancel _ _ => exact Option.map_eq_none_iff.1 hp
  | drain o _ => exact Option.map_eq_none_iff.1 hp
  | _ => exact hp

/-- **Every step of a runner leads to a later stage**, except that a registration
    may take more than one. -/
theorem Act.rank_lt (ha : Act v x h r s h' r') (hs : r.stage ≠ .registering) :
    r.stage.rank < r'.stage.rank := by
  cases ha with
  | begin h => rw [h]; simp only [goto]; split <;> decide
  | register n h _ => exact absurd h hs
  | fall line h _ => cases hst : r.stage <;> simp_all [Stage.isWriting, Stage.rank, Runner.fall]
  | leave o h => rw [h]; simp only [goto]; split <;> simp [Stage.rank]
  | _ => simp_all [goto, enter, reap, kill, order, Stage.rank]

theorem Act.rank_le (ha : Act v x h r s h' r') : r.stage.rank ≤ r'.stage.rank := by
  by_cases hs : r.stage = .registering
  · cases ha with
    | register n h _ =>
      split
      · rw [h]; exact Nat.le_succ _
      · exact Nat.le_refl _
    | _ => simp_all [Stage.isWriting]
  · exact Nat.le_of_lt (ha.rank_lt hs)

theorem Advance.rank_le {env : Environment} {w : World} {m : Nat} {a : Action}
    (ha : Advance env w m x h r a h' r') : r.stage.rank ≤ r'.stage.rank := by
  cases ha with
  | act ha => exact ha.rank_le
  | pump => exact Nat.le_refl _
  | idle => exact Nat.le_refl _

end Runner

namespace World

variable {env : Environment} {w w' : World} {m : Nat} {x x' : Member} {h : Handle} {r : Runner}
  {a : Action}

theorem hasActed_of_step {s : RunnerStep} (ha : step env w (.runner m s) = some w')
    (hx : w.members[m]? = some x) (hb : x.body = .handle h) (hr : h.runner = some r) :
    ∃ n, r.step (w.view env m) x h s = some n ∧ w'.members = w.members.set m n.member ∧
      w'.coordinator = n.coordinator ∧ Runner.HasActed (w.view env m) x h r s n.member := by
  simp only [step, runnerStep, hx, Member.handle?, hb, hr, Option.bind_eq_bind, Option.bind_some,
    Option.bind_eq_some_iff, Option.pure_def, Option.some.injEq] at ha
  obtain ⟨n, hn, rfl⟩ := ha
  exact ⟨n, hn, rfl, rfl, Runner.act_of_step hb hr hn⟩

/-- **A run that has begun advances in each action**, or is left alone. -/
theorem advance_of_step (ha : step env w a = some w') (hS : x.Sound)
    (hx : w.members[m]? = some x) (hb : x.body = .handle h) (hr : h.runner = some r) :
    ∃ x' h' r', w'.members[m]? = some x' ∧ x'.body = .handle { h' with runner := some r' } ∧
      r.Advance env w m x h a h' r' := by
  obtain ⟨hlt, -⟩ := List.getElem?_eq_some_iff.1 hx
  have hself : ({ h with runner := some r } : Handle) = h := by rw [← hr]
  have hst : h.status.state ≠ .notStarted := fun hs => by
    rw [(hS h hb).runner_eq_none hs] at hr
    cases hr
  obtain ⟨x', hx', hs⟩ := (effect_of_step ha).shift hx
  cases hs with
  | same => exact ⟨x, h, r, hx', by rw [hb, hself], .idle rfl rfl⟩
  | turn ht =>
    cases ht with
    | guest g' hg => rw [hg] at hb; cases hb
    | register n hg _ => rw [hg] at hb; cases hb
    | configure c hb' hs => rw [hb'] at hb; cases hb; exact absurd hs hst
    | createControl label hb' hs => rw [hb'] at hb; cases hb; exact absurd hs hst
    | start hb' hs => rw [hb'] at hb; cases hb; exact absurd hs hst
    | copies n hb' =>
      rw [hb'] at hb
      cases hb
      exact ⟨_, { h with copies := n }, r, hx', by simp only [← hr]; rfl, .idle rfl rfl⟩
    | @runner _ _ s _ _ hb' hr' hm =>
      obtain ⟨n, hn, hmem, -, hact⟩ := hasActed_of_step ha hx hb hr
      obtain ⟨h', r', hact, hbody⟩ := hact.act
      rw [hmem] at hx'
      have : n.member = x' := by simpa [hlt] using hx'
      subst this
      exact ⟨_, h', r', by rw [hmem]; exact hx', hbody, .act hact⟩
    | pump n hb' hr' hp hn =>
      rw [hb'] at hb
      cases hb
      rw [hr'] at hr
      cases hr
      exact ⟨_, _, _, hx', rfl, .pump hp (Pump.turn_of_step hn)⟩
  | call _ _ hb' hm =>
    rw [hb'] at hb
    cases hb
    cases hm with
    | ask => exact ⟨_, h, r, hx', by rw [hself]; exact hb', .idle rfl rfl⟩
    | disable _ =>
      exact ⟨_, h.disableControl, r, hx', by simp only [Handle.disableControl, ← hr]; rfl,
        .idle rfl rfl⟩
    | _ => exact ⟨_, h, r, hx', by rw [hself]; exact hb', .idle rfl rfl⟩
  | cancel _ _ _ _ => exact ⟨_, h, r, hx', by rw [hself]; exact hb, .idle rfl rfl⟩

end World

end Supervisor
