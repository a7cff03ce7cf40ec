/-
  The life of a handle, as far as it can be told from the handle alone.

  * `Stage.hasLeft`, ..., `Stage.hasForgotten`: which steps of the teardown lie
    behind a stage;
  * `Handle.Sound g h`: the status, the stop control, the registration `g` and
    the runner of a handle fit together, whatever the runner does next;
  * `sound_of_run`: all handles are sound after every run.
-/
import Supervisor.Proofs.Effect

namespace Supervisor

/-! ## How far a teardown is -/

namespace Stage

/-- The child is still to be launched. -/
def isBeforeLaunch : Stage → Bool
  | created | registering | launching => true
  | _ => false

/-- The registry is left. -/
def hasLeft : Stage → Bool
  | disabling _ | detaching _ | recording _ | forgetting _ | publishing _ | gone => true
  | _ => false

/-- The stop control is disabled. -/
def hasDisabled : Stage → Bool
  | detaching _ | recording _ | forgetting _ | publishing _ | gone => true
  | _ => false

/-- The stop control is detached. -/
def hasDetached : Stage → Bool
  | recording _ | forgetting _ | publishing _ | gone => true
  | _ => false

/-- The outcome is recorded. -/
def hasRecorded : Stage → Bool
  | forgetting _ | publishing _ | gone => true
  | _ => false

/-- The pid is forgotten. -/
def hasForgotten : Stage → Bool
  | publishing _ | gone => true
  | _ => false

end Stage

/-! ## Soundness -/

/-- The runner `r` of the handle `h` fits its status, its stop control and its
    registration `g`. -/
structure Runner.Sound (g : Registration) (h : Handle) (r : Runner) : Prop where
  state : h.status.state = if r.stage = .gone then .finished else .running
  controlled : r.controlled = h.control.isSome
  enrols : r.stage = .registering → r.spec.options.survivor = false
  exempt : r.spec.options.survivor = true → g = .idle
  unlaunched : r.stage.isBeforeLaunch = true → r.child = none
  reaped : r.stage ≠ .waiting → ∀ c, r.child = some c → c.reaped = true
  disabled : r.stage.hasDisabled = true → ∀ c, h.control = some c → c.enabled = false
  detached : r.stage.hasDetached = true → ∀ c, h.control = some c → c.attached = false
  recorded : h.status.outcome.isSome = r.stage.hasRecorded
  forgotten : r.stage.hasForgotten = true → h.status.pid = none

/-- The end of a run is published when its runner is gone. -/
theorem Runner.Sound.finished_iff {g : Registration} {h : Handle} {r : Runner} (hS : r.Sound g h) :
    h.status.state = .finished ↔ r.stage = .gone := by
  rw [hS.state]
  split <;> simp_all

/-- A handle fits its registration `g`: before the start there is nothing of a
    run, and from then on a runner that fits. -/
structure Handle.Sound (g : Registration) (h : Handle) : Prop where
  idle : h.runner = none → g = .idle ∧ h.status = {}
  run : ∀ r, h.runner = some r → r.Sound g h

namespace Handle.Sound

variable {g : Registration} {h : Handle}

/-- A run that has not begun has no runner. -/
theorem runner_eq_none (hS : h.Sound g) (hs : h.status.state = .notStarted) : h.runner = none := by
  cases hr : h.runner with
  | none => rfl
  | some r =>
    have := (hS.run r hr).state
    rw [hs] at this
    split at this <;> cases this

/-- Nothing of a handle without a runner depends on its options, its stop
    control and how often it is held. -/
theorem congr {h' : Handle} (hS : h.Sound g) (hn : h.runner = none) (hr : h'.runner = h.runner)
    (hs : h'.status = h.status) : h'.Sound g := by
  refine ⟨fun _ => by rw [hs]; exact hS.idle hn, fun r hr' => ?_⟩
  rw [hr, hn] at hr'
  cases hr'

/-- The start of a run. -/
theorem start (hS : h.Sound g) (hs : h.status.state = .notStarted) :
    Handle.Sound g { h with
      status := h.status.advance .running
      runner := some { spec := h.spec, controlled := h.control.isSome } } := by
  obtain ⟨hg, hst⟩ := hS.idle (hS.runner_eq_none hs)
  refine ⟨nofun, fun r hr => ?_⟩
  cases hr
  rw [hst, hg]
  exact ⟨rfl, rfl, nofun, fun _ => rfl, fun _ => rfl, nofun, nofun, nofun, rfl, nofun⟩

end Handle.Sound

/-! ## What the steps keep -/

theorem Stage.of_not_hasLeft {s : Stage} (h : s.hasLeft = false) :
    s.hasDisabled = false ∧ s.hasDetached = false ∧ s.hasRecorded = false ∧
      s.hasForgotten = false ∧ s ≠ .gone := by
  cases s <;> simp_all [hasLeft, hasDisabled, hasDetached, hasRecorded, hasForgotten]

/-- Calm steps are taken before the teardown, and not while the child runs. -/
theorem Stage.Calm.early {b : Bool} {s t : Stage} (h : Calm b s t) :
    s.hasLeft = false ∧ t.hasLeft = false ∧ s ≠ .waiting ∧
      (t.isBeforeLaunch = true → s.isBeforeLaunch = true) ∧ (t = .registering → b = false) := by
  cases h <;> simp_all [hasLeft, isBeforeLaunch]

namespace Runner

variable {v : View} {x x' : Member} {h h' : Handle} {r r' : Runner} {s : RunnerStep}
  {c' : Coordinator} {g g' : Registration}

/-- Before the teardown it is enough to look at the registration and at the
    child. -/
theorem Sound.early (hS : r.Sound g h) (hl : r.stage.hasLeft = false)
    (hl' : r'.stage.hasLeft = false) (hst : h'.status.state = h.status.state)
    (ho : h'.status.outcome = h.status.outcome) (hc : h'.control = h.control)
    (hk : r'.controlled = r.controlled)
    (henrols : r'.stage = .registering → r'.spec.options.survivor = false)
    (hexempt : r'.spec.options.survivor = true → g' = .idle)
    (hunlaunched : r'.stage.isBeforeLaunch = true → r'.child = none)
    (hreaped : r'.stage ≠ .waiting → ∀ c, r'.child = some c → c.reaped = true) :
    r'.Sound g' h' := by
  obtain ⟨-, -, hrec, -, hov⟩ := Stage.of_not_hasLeft hl
  obtain ⟨hdis', hdet', hrec', hfor', hov'⟩ := Stage.of_not_hasLeft hl'
  refine ⟨?_, by rw [hk, hc, hS.controlled], henrols, hexempt, hunlaunched, hreaped, ?_, ?_, ?_, ?_⟩
  · rw [hst, hS.state, if_neg hov, if_neg hov']
  · rw [hdis']; nofun
  · rw [hdet']; nofun
  · rw [ho, hS.recorded, hrec, hrec']
  · rw [hfor']; nofun

theorem Sound.calm (hS : r.Sound g h) (k : Sink)
    (hc : Stage.Calm r.spec.options.survivor r.stage r'.stage) (hs : r'.spec = r.spec)
    (hk : r'.controlled = r.controlled) (hd : r'.child = r.child) :
    r'.Sound g { h with sink := k } := by
  obtain ⟨hl, hl', hw, hbl, henr⟩ := hc.early
  refine hS.early hl hl' rfl rfl rfl hk ?_ ?_ ?_ ?_
  · rw [hs]; exact henr
  · rw [hs]; exact hS.exempt
  · rw [hd]; exact fun hb => hS.unlaunched (hbl hb)
  · rw [hd]; exact fun _ => hS.reaped hw

theorem Sound.fall (hS : r.Sound g h) (k : Sink) (hw : r.stage.isWriting = true) :
    r.fall.Sound g { h with sink := k } := by
  have hl : r.stage.hasLeft = false := by
    cases hs : r.stage <;> simp_all [Stage.isWriting, Stage.hasLeft]
  have hnw : r.stage ≠ .waiting := fun hs => by rw [hs] at hw; cases hw
  exact hS.early hl rfl rfl rfl rfl rfl nofun hS.exempt nofun fun _ => hS.reaped hnw

/-- A registration is made only by one who is not exempt. -/
theorem Sound.register (hS : r.Sound g h) (hs : r.stage = .registering) (b : Bool) :
    Runner.Sound g' h (if b then r.goto .launching else r) := by
  have hl : r.stage.hasLeft = false := by rw [hs]; rfl
  have henr := hS.enrols hs
  have hun := hS.unlaunched (by rw [hs]; rfl)
  cases b with
  | false =>
    refine hS.early hl hl rfl rfl rfl rfl (fun _ => henr) ?_ (fun _ => hun) ?_
    · exact fun hsv => absurd hsv (by simp [henr])
    · intro _ c hc; simp [hun] at hc
  | true =>
    refine hS.early hl rfl rfl rfl rfl rfl nofun ?_ (fun _ => hun) ?_
    · exact fun hsv => absurd hsv (by simp [goto, henr])
    · intro _ c hc; simp [goto, hun] at hc

/-- A child is waited for until it is reaped. -/
theorem Sound.reap {o : Outcome} {p : Option Pump} (hS : r.Sound g h) (hw : r.stage = .waiting) :
    Runner.Sound g h { r.reap with stage := .ended o, pump := p } := by
  have hl : r.stage.hasLeft = false := by rw [hw]; rfl
  refine hS.early hl rfl rfl rfl rfl rfl nofun hS.exempt nofun fun _ c hc => ?_
  simp only [Runner.reap, Option.map_eq_some_iff] at hc
  obtain ⟨c₀, -, rfl⟩ := hc
  rfl

/-- Soundness of a runner looks at the status and the stop control only. -/
theorem Sound.congr (hS : r.Sound g h) (hst : h'.status = h.status) (hc : h'.control = h.control) :
    r.Sound g h' := by
  refine { hS with
    state := by rw [hst, hS.state]
    controlled := by rw [hc, hS.controlled]
    disabled := by rw [hc]; exact hS.disabled
    detached := by rw [hc]; exact hS.detached
    recorded := by rw [hst, hS.recorded]
    forgotten := by rw [hst]; exact hS.forgotten }

/-- During the teardown it is enough to look at the status and at the stop
    control. -/
theorem Sound.late {t : Stage} (hS : r.Sound g h) (hw : r.stage ≠ .waiting)
    (ht : t.isBeforeLaunch = false)
    (hstate : h'.status.state = if t = .gone then .finished else .running)
    (hcontrol : h'.control.isSome = h.control.isSome)
    (hdisabled : t.hasDisabled = true → ∀ c, h'.control = some c → c.enabled = false)
    (hdetached : t.hasDetached = true → ∀ c, h'.control = some c → c.attached = false)
    (hrecorded : h'.status.outcome.isSome = t.hasRecorded)
    (hforgotten : t.hasForgotten = true → h'.status.pid = none) : (r.goto t).Sound g h' where
  state := hstate
  controlled := hS.controlled.trans hcontrol.symm
  enrols := fun he => by rw [show t = .registering from he] at ht; cases ht
  exempt := hS.exempt
  unlaunched := fun he => by rw [show t.isBeforeLaunch = true from he] at ht; cases ht
  reaped := fun _ => hS.reaped hw
  disabled := hdisabled
  detached := hdetached
  recorded := hrecorded
  forgotten := hforgotten

theorem disableControl_enabled {c : StopControl} (hc : h.disableControl.control = some c) :
    c.enabled = false := by
  simp only [Handle.disableControl, Option.map_eq_some_iff] at hc
  obtain ⟨c₀, -, rfl⟩ := hc
  rfl

theorem detachControl_attached {c : StopControl} (hc : h.detachControl.control = some c) :
    c.attached = false := by
  simp only [Handle.detachControl, Option.map_eq_some_iff] at hc
  obtain ⟨c₀, -, rfl⟩ := hc
  rfl

/-- The stop control may be disabled at every stage. -/
theorem Sound.disableControl (hS : r.Sound g h) : r.Sound g h.disableControl := by
  refine { hS with
    controlled := by simp [Handle.disableControl, hS.controlled]
    disabled := fun _ _ => disableControl_enabled
    detached := fun hd c hc => ?_ }
  simp only [Handle.disableControl, Option.map_eq_some_iff] at hc
  obtain ⟨c₀, hc₀, rfl⟩ := hc
  exact hS.detached hd c₀ hc₀

/-- The registry is left: next is the stop control, if there is one. -/
theorem Sound.leave {o : Outcome} (hS : r.Sound g h) (hs : r.stage = .leaving o) :
    Runner.Sound g h (r.goto (if r.controlled then .disabling o else .recording o)) := by
  have hst := hS.state
  have hrec := hS.recorded
  have hw : r.stage ≠ .waiting := by rw [hs]; nofun
  rw [hs] at hst hrec
  cases hk : r.controlled with
  | true => exact hS.late hw rfl hst rfl nofun nofun hrec nofun
  | false =>
    have hnone : h.control = none := by
      have hcon := hS.controlled
      rw [hk] at hcon
      simpa using hcon.symm
    refine hS.late hw rfl hst rfl ?_ ?_ hrec nofun
    · intro _ c hc; rw [hnone] at hc; cases hc
    · intro _ c hc; rw [hnone] at hc; cases hc

theorem Sound.detach {o : Outcome} (hS : r.Sound g h) (hs : r.stage = .detaching o) :
    Runner.Sound g h.detachControl (r.goto (.recording o)) := by
  have hst := hS.state
  have hrec := hS.recorded
  have hdis := hS.disabled (by rw [hs]; rfl)
  rw [hs] at hst hrec
  refine hS.late (by rw [hs]; nofun) rfl hst (by simp [Handle.detachControl]) ?_
    (fun _ _ => detachControl_attached) hrec nofun
  intro _ c hc
  simp only [Handle.detachControl, Option.map_eq_some_iff] at hc
  obtain ⟨c₀, hc₀, rfl⟩ := hc
  exact hdis c₀ hc₀

/-- **The steps of a runner keep it sound**: one case for each move, the
    teardown in its order. -/
theorem Move.sound (hm : r.Move v x h s x' c') (hS : r.Sound x.registration h) :
    ∃ h' r', x'.body = .handle h' ∧ h'.runner = some r' ∧ r'.Sound x'.registration h' := by
  cases hm with
  | calm k r' hc hs hk hd _ => exact ⟨_, _, rfl, rfl, (hS.calm k hc hs hk hd).congr rfl rfl⟩
  | fall k hw _ => exact ⟨_, _, rfl, rfl, (hS.fall k hw).congr rfl rfl⟩
  | register n hs _ => exact ⟨_, _, rfl, rfl, (hS.register hs _).congr rfl rfl⟩
  | launch p hs _ =>
    have hl : r.stage.hasLeft = false := by rw [hs]; rfl
    refine ⟨_, _, rfl, rfl, ?_⟩
    exact hS.early hl rfl rfl rfl rfl rfl nofun hS.exempt nofun fun hw => absurd rfl hw
  | exit c st hs _ _ => exact ⟨_, _, rfl, rfl, (hS.reap hs).congr rfl rfl⟩
  | cancel hs _ => exact ⟨_, _, rfl, rfl, (hS.reap hs).congr rfl rfl⟩
  | leave o hs => exact ⟨_, _, rfl, rfl, (hS.leave hs).congr rfl rfl⟩
  | disable o hs =>
    have hst := hS.state
    have hrec := hS.recorded
    rw [hs] at hst hrec
    exact ⟨_, _, rfl, rfl, hS.late (by rw [hs]; nofun) rfl hst (by simp [Handle.disableControl])
      (fun _ _ => disableControl_enabled) nofun hrec nofun⟩
  | detach o hs => exact ⟨_, _, rfl, rfl, (hS.detach hs).congr rfl rfl⟩
  | record o hs =>
    have hst := hS.state
    have hdis := hS.disabled
    have hdet := hS.detached
    rw [hs] at hst hdis hdet
    exact ⟨_, _, rfl, rfl, hS.late (by rw [hs]; nofun) rfl hst rfl (fun _ => hdis rfl)
      (fun _ => hdet rfl) (by simp [RunStatus.storeOutcome, Stage.hasRecorded]) nofun⟩
  | forget o hs =>
    have hst := hS.state
    have hdis := hS.disabled
    have hdet := hS.detached
    have hrec := hS.recorded
    rw [hs] at hst hdis hdet hrec
    exact ⟨_, _, rfl, rfl, hS.late (by rw [hs]; nofun) rfl hst rfl (fun _ => hdis rfl)
      (fun _ => hdet rfl) hrec fun _ => rfl⟩
  | publish o hs =>
    have hst := hS.state
    have hdis := hS.disabled
    have hdet := hS.detached
    have hrec := hS.recorded
    have hfor := hS.forgotten
    rw [hs] at hst hdis hdet hrec hfor
    have hadv : h.status.publish = { h.status with
        state := .finished, version := h.status.version + 1 } := by
      unfold RunStatus.publish RunStatus.advance RunStatus.canAdvance
      rw [hst]; rfl
    refine ⟨_, _, rfl, rfl, hS.late (by rw [hs]; nofun) rfl ?_ rfl (fun _ => hdis rfl)
      (fun _ => hdet rfl) ?_ fun _ => ?_⟩
    · rw [hadv]; rfl
    · rw [hadv]; exact hrec
    · rw [hadv]; exact hfor rfl

end Runner

/-! ## What every action keeps -/

/-- A member is sound if its handle is; nothing is asked of a guest. -/
def Member.Sound (x : Member) : Prop := ∀ h, x.body = .handle h → h.Sound x.registration

theorem Member.IsNew.sound {x : Member} (hx : x.IsNew) : x.Sound := by
  intro h hb
  obtain ⟨-, -, hst, hr⟩ := hx.handle h hb
  refine ⟨fun _ => ⟨hx.registration, hst⟩, fun r hr' => ?_⟩
  rw [hr] at hr'
  cases hr'

theorem Call.Move.sound {bound now : Nat} {held : Bool} {x x' : Member} {h : Handle} {k : Call}
    {s : CallStage} (hm : k.Move bound now held x h s x') (hb : x.body = .handle h)
    (hS : x.Sound) : x'.Sound := by
  cases hm with
  | ask => exact fun hd hd' => hS hd hd'
  | disable _ =>
    intro hd hd'
    cases hd'
    have hh := hS h hb
    exact ⟨hh.idle, fun r hr => (hh.run r hr).disableControl⟩
  | _ => exact hS

section
variable {env : Environment} {w w' : World} {m : Nat} {x x' : Member} {a : Action}
  {c' : Coordinator}

theorem Turn.sound (ht : Turn env w m x a x' c') (hS : x.Sound) : x'.Sound := by
  cases ht with
  | guest g' _ => intro h hb; cases hb
  | register n hb _ => intro h hb'; rw [Member.enrol_body, hb] at hb'; cases hb'
  | configure c hb hs =>
    intro h hb'
    cases hb'
    exact (hS _ hb).congr ((hS _ hb).runner_eq_none hs) rfl rfl
  | createControl label hb hs =>
    intro h hb'
    cases hb'
    exact (hS _ hb).congr ((hS _ hb).runner_eq_none hs) rfl rfl
  | start hb hs =>
    intro h hb'
    cases hb'
    exact (hS _ hb).start hs
  | copies n hb =>
    intro h hb'
    cases hb'
    exact ⟨(hS _ hb).idle, fun r hr => ((hS _ hb).run r hr).congr rfl rfl⟩
  | runner hb hr hm =>
    intro h hb'
    obtain ⟨h', r', hb'', hr', hS'⟩ := hm.sound ((hS _ hb).run _ hr)
    rw [hb''] at hb'
    cases hb'
    refine ⟨fun hn => ?_, fun r₁ hr₁ => ?_⟩
    · rw [hr'] at hn; cases hn
    · rw [hr'] at hr₁; cases hr₁; exact hS'
  | @pump hd r p e n hb hr _ _ =>
    intro h hb'
    cases hb'
    refine ⟨nofun, fun r₁ hr₁ => ?_⟩
    cases hr₁
    have hR := (hS hd hb).run r hr
    refine { hR with
      unlaunched := fun hbl => by simp [Runner.childAfter, hR.unlaunched hbl]
      reaped := fun hw c hc => ?_ }
    simp only [Runner.childAfter] at hc
    split at hc
    · obtain ⟨c₀, hc₀, rfl⟩ := Option.map_eq_some_iff.1 hc
      exact hR.reaped hw c₀ hc₀
    · exact hR.reaped hw c hc

theorem Shift.sound (hs : Shift env w m x a x') (hS : x.Sound) : x'.Sound := by
  cases hs with
  | same => exact hS
  | turn ht => exact ht.sound hS
  | call _ _ hb hm => exact hm.sound hb hS
  | cancel _ _ _ _ => exact fun h hb => hS h hb

/-- **All members are sound after every run.** -/
theorem World.sound_of_run {as : List Action} (h : run env {} as = some w)
    (hx : w.members[m]? = some x) : x.Sound := by
  refine run_induction (P := fun _ w => ∀ m x, w.members[m]? = some x → x.Sound) ?_ ?_ h m x hx
  · intro m x hx; simp at hx
  · intro as a w w' _ ih ha m x' hx'
    rcases (effect_of_step ha).shift_back hx' with ⟨x, hx, hs⟩ | ⟨-, hnew⟩
    · exact hs.sound (ih m x hx)
    · exact hnew.sound

/-- Whoever is registered is no survivor. -/
theorem World.not_survivor_of_registration {as : List Action} {h : Handle} {r : Runner}
    (hw : run env {} as = some w) (hx : w.members[m]? = some x) (hb : x.body = .handle h)
    (hr : h.runner = some r) (hne : x.registration ≠ .idle) : r.spec.options.survivor = false := by
  cases hs : r.spec.options.survivor with
  | false => rfl
  | true => exact absurd (((sound_of_run hw hx h hb).run r hr).exempt hs) hne

end

end Supervisor
