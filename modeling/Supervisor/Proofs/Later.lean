/-
  What is settled for good.

  * `Member.Later x x'`: `x'` may be what has become of the member `x` some
    time later.  A cancel flag stays set, an id is kept, a run state never goes
    back, a recorded outcome stays, a runner keeps what it was started with,
    and a child stays reaped;
  * `later_of_run`: the members of a world later on are such;
  * `running_or_finished`, `finished_of_later`: what this says of the run states.
-/
import Supervisor.Proofs.Lifecycle

namespace Supervisor

/-- A child later on. -/
structure Child.Later (c c' : Child) : Prop where
  pid : c'.pid = c.pid
  reaped : c.reaped = true → c'.reaped = true

/-- A runner later on. -/
structure Runner.Later (r r' : Runner) : Prop where
  spec : r'.spec = r.spec
  controlled : r'.controlled = r.controlled
  fell : r.fell = true → r'.fell = true
  child : ∀ c, r.child = some c → ∃ c', r'.child = some c' ∧ c.Later c'

/-- A handle later on. -/
structure Handle.Later (h h' : Handle) : Prop where
  state : h.status.state ≤ h'.status.state
  outcome : ∀ o, h.status.outcome = some o → h'.status.outcome = some o
  runner : ∀ r, h.runner = some r → ∃ r', h'.runner = some r' ∧ r.Later r'

/-- A member later on. -/
structure Member.Later (x x' : Member) : Prop where
  cancel : x.cancel = true → x'.cancel = true
  id : ∀ id, x.registration.id? = some id → x'.registration.id? = some id
  handle : ∀ h, x.body = .handle h → ∃ h', x'.body = .handle h' ∧ h.Later h'

/-! ## Later is an order -/

theorem Child.Later.refl (c : Child) : c.Later c := ⟨rfl, fun h => h⟩

theorem Child.Later.trans {a b c : Child} (h₁ : a.Later b) (h₂ : b.Later c) : a.Later c :=
  ⟨h₂.pid.trans h₁.pid, fun h => h₂.reaped (h₁.reaped h)⟩

theorem Runner.Later.refl (r : Runner) : r.Later r :=
  ⟨rfl, rfl, fun h => h, fun c hc => ⟨c, hc, .refl c⟩⟩

theorem Runner.Later.trans {a b c : Runner} (h₁ : a.Later b) (h₂ : b.Later c) : a.Later c := by
  refine ⟨h₂.spec.trans h₁.spec, h₂.controlled.trans h₁.controlled,
    fun h => h₂.fell (h₁.fell h), fun d hd => ?_⟩
  obtain ⟨d₁, hd₁, hl₁⟩ := h₁.child d hd
  obtain ⟨d₂, hd₂, hl₂⟩ := h₂.child d₁ hd₁
  exact ⟨d₂, hd₂, hl₁.trans hl₂⟩

theorem Handle.Later.refl (h : Handle) : h.Later h :=
  ⟨Nat.le_refl _, fun _ ho => ho, fun r hr => ⟨r, hr, .refl r⟩⟩

theorem Handle.Later.trans {a b c : Handle} (h₁ : a.Later b) (h₂ : b.Later c) : a.Later c := by
  refine ⟨Nat.le_trans h₁.state h₂.state, fun o ho => h₂.outcome o (h₁.outcome o ho),
    fun r hr => ?_⟩
  obtain ⟨r₁, hr₁, hl₁⟩ := h₁.runner r hr
  obtain ⟨r₂, hr₂, hl₂⟩ := h₂.runner r₁ hr₁
  exact ⟨r₂, hr₂, hl₁.trans hl₂⟩

theorem Member.Later.refl (x : Member) : x.Later x :=
  ⟨fun h => h, fun _ h => h, fun h hb => ⟨h, hb, .refl h⟩⟩

theorem Member.Later.trans {a b c : Member} (h₁ : a.Later b) (h₂ : b.Later c) : a.Later c := by
  refine ⟨fun h => h₂.cancel (h₁.cancel h), fun id h => h₂.id id (h₁.id id h), fun h hb => ?_⟩
  obtain ⟨h', hb', hl₁⟩ := h₁.handle h hb
  obtain ⟨h'', hb'', hl₂⟩ := h₂.handle h' hb'
  exact ⟨h'', hb'', hl₁.trans hl₂⟩

/-! ## What one action does is later -/

theorem RunState.eq_finished_of_le {s : RunState} (h : finished ≤ s) : s = finished := by
  cases s with
  | notStarted => exact absurd h (by decide)
  | running => exact absurd h (by decide)
  | finished => rfl

theorem RunState.eq_notStarted_of_le {s : RunState} (h : s ≤ notStarted) : s = notStarted := by
  cases s with
  | notStarted => rfl
  | running => exact absurd h (by decide)
  | finished => exact absurd h (by decide)

theorem RunStatus.state_le_advance (s : RunStatus) (next : RunState) :
    s.state ≤ (s.advance next).state := by
  unfold advance canAdvance
  split
  · next h => exact Nat.le_of_lt (of_decide_eq_true h)
  · exact Nat.le_refl _

theorem RunStatus.advance_outcome (s : RunStatus) (next : RunState) :
    (s.advance next).outcome = s.outcome := by
  unfold advance
  split <;> rfl

/-- The same handle with another runner, if there was one. -/
theorem Handle.Later.of_runner {h h' : Handle} {r r' : Runner} (hr : h.runner = some r)
    (hr' : h'.runner = some r') (hs : h.status.state ≤ h'.status.state)
    (ho : ∀ o, h.status.outcome = some o → h'.status.outcome = some o) (hl : r.Later r') :
    h.Later h' := by
  refine ⟨hs, ho, fun r₁ hr₁ => ?_⟩
  rw [hr] at hr₁
  cases hr₁
  exact ⟨r', hr', hl⟩

/-- A member whose handle has changed, and nothing else. -/
theorem Member.Later.of_handle {x : Member} {h h' : Handle} (hb : x.body = .handle h)
    (hl : h.Later h') : x.Later (x.setHandle h') := by
  refine ⟨fun hc => hc, fun _ hid => hid, fun h₁ hb₁ => ?_⟩
  rw [hb] at hb₁
  cases hb₁
  exact ⟨h', rfl, hl⟩

namespace Runner

variable {v : View} {x x' : Member} {h : Handle} {r : Runner} {s : RunnerStep} {c' : Coordinator}

theorem Later.goto (r : Runner) (t : Stage) : r.Later (r.goto t) :=
  ⟨rfl, rfl, fun h => h, fun c hc => ⟨c, hc, .refl c⟩⟩

theorem Later.reap (r : Runner) (t : Stage) (p : Option Pump) :
    r.Later { r.reap with stage := t, pump := p } := by
  refine ⟨rfl, rfl, fun h => h, fun c hc => ⟨{ c with reaped := true }, ?_, ⟨rfl, fun _ => rfl⟩⟩⟩
  simp [Runner.reap, hc]

theorem Move.later (hm : r.Move v x h s x' c') (hb : x.body = .handle h) (hr : h.runner = some r)
    (hS : r.Sound x.registration h) : x.Later x' := by
  have hkeep : ∀ o, h.status.outcome = some o → h.status.outcome = some o := fun _ ho => ho
  cases hm with
  | calm k r' _ hs hk hd hf =>
    refine .of_handle hb (.of_runner hr rfl (Nat.le_refl _) hkeep ?_)
    exact ⟨hs, hk, fun h => hf.trans h, fun c hc => ⟨c, hd.trans hc, .refl c⟩⟩
  | fall k _ _ =>
    refine .of_handle hb (.of_runner hr rfl (Nat.le_refl _) hkeep ?_)
    exact ⟨rfl, rfl, fun _ => rfl, fun c hc => ⟨c, hc, .refl c⟩⟩
  | register n _ hn =>
    have hmove := Registration.move_of_step hn
    refine ⟨fun hc => by simp [Member.withRunner, Member.setHandle, hc],
      fun id hid => hmove.id? hid, fun h₁ hb₁ => ?_⟩
    rw [hb] at hb₁
    cases hb₁
    refine ⟨_, rfl, .of_runner hr rfl (Nat.le_refl _) hkeep ?_⟩
    split
    · exact .goto r _
    · exact .refl r
  | launch p hs _ =>
    have hnone := hS.unlaunched (by rw [hs]; rfl)
    refine .of_handle hb (.of_runner hr rfl (Nat.le_refl _) hkeep ?_)
    refine ⟨rfl, rfl, fun h => h, fun c hc => ?_⟩
    rw [hnone] at hc
    cases hc
  | exit c st _ _ _ =>
    exact .of_handle hb (.of_runner hr rfl (Nat.le_refl _) hkeep (.reap r _ _))
  | cancel _ _ => exact .of_handle hb (.of_runner hr rfl (Nat.le_refl _) hkeep (.reap r _ _))
  | record o hs =>
    refine .of_handle hb (.of_runner hr rfl (Nat.le_refl _) (fun o' ho => ?_) (.goto r _))
    simp [RunStatus.storeOutcome, ho]
  | publish o hs =>
    refine .of_handle hb (.of_runner hr rfl (h.status.state_le_advance _) (fun o' ho => ?_)
      (.goto r _))
    exact (h.status.advance_outcome _).trans ho
  | _ => exact .of_handle hb (.of_runner hr rfl (Nat.le_refl _) hkeep (.goto r _))

end Runner

theorem Call.Move.later {bound now : Nat} {held : Bool} {x x' : Member} {h : Handle} {k : Call}
    {s : CallStage} (hm : k.Move bound now held x h s x') (hb : x.body = .handle h) :
    x.Later x' := by
  cases hm with
  | ask => exact ⟨fun _ => rfl, fun _ hid => hid, fun h hb => ⟨h, hb, .refl h⟩⟩
  | disable _ =>
    exact .of_handle hb ⟨Nat.le_refl _, fun _ ho => ho, fun r hr => ⟨r, hr, .refl r⟩⟩
  | _ => exact .refl x

section
variable {env : Environment} {w w' : World} {m : Nat} {x x' : Member} {a : Action}
  {c' : Coordinator}

theorem Turn.later (ht : Turn env w m x a x' c') (hS : x.Sound) : x.Later x' := by
  cases ht with
  | guest g' hb =>
    refine ⟨fun hc => hc, fun _ hid => hid, fun h hb' => ?_⟩
    rw [hb] at hb'
    cases hb'
  | register n hb hn =>
    have hmove := Registration.move_of_step hn
    refine ⟨fun hc => by simp [hc], fun id hid => hmove.id? hid, fun h hb' => ?_⟩
    rw [hb] at hb'
    cases hb'
  | configure c hb _ =>
    exact .of_handle hb ⟨Nat.le_refl _, fun _ ho => ho, fun r hr => ⟨r, hr, .refl r⟩⟩
  | createControl label hb _ =>
    exact .of_handle hb ⟨Nat.le_refl _, fun _ ho => ho, fun r hr => ⟨r, hr, .refl r⟩⟩
  | @start h hb hs =>
    refine .of_handle hb ⟨h.status.state_le_advance _, fun o ho => ?_, fun r hr => ?_⟩
    · exact (h.status.advance_outcome _).trans ho
    · rw [(hS h hb).runner_eq_none hs] at hr
      cases hr
  | copies n hb =>
    exact .of_handle hb ⟨Nat.le_refl _, fun _ ho => ho, fun r hr => ⟨r, hr, .refl r⟩⟩
  | runner hb hr hm => exact hm.later hb hr ((hS _ hb).run _ hr)
  | @pump h r p e n hb hr _ _ =>
    refine .of_handle hb (.of_runner hr rfl (Nat.le_refl _) (fun _ ho => ho) ?_)
    refine ⟨rfl, rfl, fun h => h, fun c hc => ?_⟩
    simp only [Runner.childAfter]
    split
    · exact ⟨r.unread (w.view env m) c, by rw [hc]; rfl, ⟨rfl, fun h => h⟩⟩
    · exact ⟨c, hc, .refl c⟩

theorem Shift.later (hs : Shift env w m x a x') (hS : x.Sound) : x.Later x' := by
  cases hs with
  | same => exact .refl x
  | turn ht => exact ht.later hS
  | call _ _ hb hm => exact hm.later hb
  | cancel _ _ _ _ => exact ⟨fun _ => rfl, fun _ hid => hid, fun h hb => ⟨h, hb, .refl h⟩⟩

/-- **Members are kept**: each is at its place later on, and is later. -/
theorem World.later_of_run {as bs : List Action} (h : run env {} as = some w)
    (h' : run env w bs = some w') (hx : w.members[m]? = some x) :
    ∃ x', w'.members[m]? = some x' ∧ x.Later x' := by
  refine run_induction (P := fun _ w' => ∃ x', w'.members[m]? = some x' ∧ x.Later x') ?_ ?_ h'
  · exact ⟨x, hx, .refl x⟩
  · intro cs a u u' hu ⟨y, hy, hl⟩ ha
    obtain ⟨y', hy', hs⟩ := (effect_of_step ha).shift hy
    have hS := sound_of_run (run_append_eq_some.2 ⟨w, h, hu⟩) hy
    exact ⟨y', hy', hl.trans (hs.later hS)⟩

/-- A run that is running is running or finished later on. -/
theorem World.running_or_finished {as bs : List Action} {h : Handle} (hw : run env {} as = some w)
    (hw' : run env w bs = some w') (hx : w.members[m]? = some x) (hb : x.body = .handle h)
    (hs : h.status.state = .running) (hx' : w'.members[m]? = some x') :
    x'.state = .running ∨ x'.state = .finished := by
  obtain ⟨y, hy, hl⟩ := later_of_run hw hw' hx
  obtain rfl := Option.some.inj (hx'.symm.trans hy)
  obtain ⟨h', hb', hl⟩ := hl.handle h hb
  have hst : x'.state = h'.status.state := by simp [Member.state, hb']
  have hle := hl.state
  rw [hs] at hle
  rw [hst]
  cases hs' : h'.status.state with
  | notStarted => rw [hs'] at hle; exact absurd hle (by decide)
  | running => exact Or.inl rfl
  | finished => exact Or.inr rfl

/-- A run that is finished stays so. -/
theorem World.finished_of_later {as bs : List Action} {h : Handle} (hw : run env {} as = some w)
    (hw' : run env w bs = some w') (hx : w.members[m]? = some x) (hb : x.body = .handle h)
    (hs : x.state = .finished) : ∃ x', w'.members[m]? = some x' ∧ x'.state = .finished := by
  obtain ⟨x', hx', hl⟩ := later_of_run hw hw' hx
  obtain ⟨h', hb', hl⟩ := hl.handle h hb
  have hle := hl.state
  rw [show h.status.state = .finished by simpa [Member.state, hb] using hs] at hle
  exact ⟨x', hx', by simpa [Member.state, hb'] using RunState.eq_finished_of_le hle⟩

/-- The runner of a moment is there at the end of the run, and is later. -/
theorem World.runner_later {as past : List Action} {v : World} {x₀ : Member} {h₀ h : Handle}
    {r₀ : Runner} (ht : Took env as past a v) (hw : run env {} as = some w)
    (hx₀ : v.members[m]? = some x₀) (hb₀ : x₀.body = .handle h₀) (hr₀ : h₀.runner = some r₀)
    (hx : w.members[m]? = some x) (hb : x.body = .handle h) :
    ∃ r, h.runner = some r ∧ r₀.Later r := by
  obtain ⟨rest, hrest⟩ := ht.rest hw
  obtain ⟨y, hy, hl⟩ := later_of_run ht.2 hrest hx₀
  rw [hx] at hy
  cases hy
  obtain ⟨h₁, hb₁, hl⟩ := hl.handle h₀ hb₀
  rw [hb] at hb₁
  cases hb₁
  exact hl.runner r₀ hr₀

end

end Supervisor
