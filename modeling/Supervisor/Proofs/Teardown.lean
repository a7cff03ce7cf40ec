/-
  A run that is finished is torn down.

  * `Member.HasLeft`: the runner of the member has left the registry;
  * `not_hasLeft_of_mem`: no entry of the registry is that of a runner which has
    left;
  * `finished_is_torn_down`: whoever sees a run finished finds its runner
    unregistered, its stop control disabled and detached, its outcome recorded,
    its pid forgotten and its child reaped, and that for good.
-/
import Supervisor.Proofs.Later
import Supervisor.Proofs.Ledger

namespace Supervisor

/-- The runner of the member has left the registry. -/
def Member.HasLeft (x : Member) : Prop :=
  ∃ h r, x.body = .handle h ∧ h.runner = some r ∧ r.stage.hasLeft = true

theorem Member.HasLeft.runner {x : Member} {h : Handle} {r : Runner} (hl : x.HasLeft)
    (hb : x.body = .handle h) (hr : h.runner = some r) : r.stage.hasLeft = true := by
  obtain ⟨h', r', hb', hr', hl⟩ := hl
  rw [hb] at hb'
  cases hb'
  rw [hr] at hr'
  cases hr'
  exact hl

theorem Member.IsNew.not_hasLeft {x : Member} (hx : x.IsNew) : ¬ x.HasLeft := by
  rintro ⟨h, r, hb, hr, -⟩
  rw [(hx.handle h hb).2.2.2] at hr
  cases hr

/-! ## What the registry holds -/

/-- **A runner that leaves takes its entry with it**: one that has left after
    its step, and still has an entry, had left before. -/
theorem Runner.Move.hasLeft_back {v : View} {x x' : Member} {h : Handle} {r : Runner}
    {s : RunnerStep} {c' : Coordinator} (hm : r.Move v x h s x' c') {p : Nat × Entry}
    (hp : p ∈ c'.registry)
    (hent : p ∈ v.coordinator.registry → x.registration.HasEntered p.1) (hl : x'.HasLeft) :
    p ∈ v.coordinator.registry ∧ r.stage.hasLeft = true := by
  have hl' := fun h' r' => hl.runner (h := h') (r := r')
  cases hm with
  | calm k r' hc _ _ _ _ =>
    have := hl' _ _ rfl rfl
    rw [hc.early.2.1] at this
    cases this
  | register n hs _ =>
    have := hl' _ _ rfl rfl
    split at this
    · cases this
    · rw [hs] at this; cases this
  | leave o hs =>
    exfalso
    cases hid : x.registration.id? with
    | none =>
      rw [hid] at hp
      rw [(hent hp).id?] at hid
      cases hid
    | some id =>
      rw [hid] at hp
      obtain ⟨hp, hne⟩ := List.mem_filter.1 hp
      rw [(hent hp).id?] at hid
      cases hid
      simp at hne
  | disable o hs => exact ⟨hp, by rw [hs]; rfl⟩
  | detach o hs => exact ⟨hp, by rw [hs]; rfl⟩
  | record o hs => exact ⟨hp, by rw [hs]; rfl⟩
  | forget o hs => exact ⟨hp, by rw [hs]; rfl⟩
  | publish o hs => exact ⟨hp, by rw [hs]; rfl⟩
  | _ => cases hl' _ _ rfl rfl

section
variable {env : Environment} {w w' : World} {m : Nat} {x x' : Member} {a : Action}
  {c' : Coordinator}

theorem Turn.hasLeft_back (ht : Turn env w m x a x' c') {p : Nat × Entry} (hp : p ∈ c'.registry)
    (hent : p ∈ w.coordinator.registry → x.registration.HasEntered p.1) (hl : x'.HasLeft) :
    p ∈ w.coordinator.registry ∧ x.HasLeft := by
  obtain ⟨h', r', hb', hr', hl'⟩ := hl
  cases ht with
  | guest g' _ => cases hb'
  | register n hb _ => rw [Member.enrol_body, hb] at hb'; cases hb'
  | configure c hb _ => cases hb'; exact ⟨hp, _, r', hb, hr', hl'⟩
  | createControl label hb _ => cases hb'; exact ⟨hp, _, r', hb, hr', hl'⟩
  | start hb _ => cases hb'; cases hr'; cases hl'
  | copies n hb => cases hb'; exact ⟨hp, _, r', hb, hr', hl'⟩
  | runner hb hr hm =>
    obtain ⟨hp, hl⟩ := hm.hasLeft_back hp hent ⟨h', r', hb', hr', hl'⟩
    exact ⟨hp, _, _, hb, hr, hl⟩
  | pump n hb hr _ _ => cases hb'; cases hr'; exact ⟨hp, _, _, hb, hr, hl'⟩

/-- An entry was in the registry before the turn of a member, or is the
    member's. -/
theorem Turn.mem_registry_back (hx : w.members[m]? = some x) (ht : Turn env w m x a x' c')
    {p : Nat × Entry} (hp : p ∈ c'.registry) :
    p ∈ w.coordinator.registry ∨ p.2.member = m := by
  rcases ht.enrolment hx with ⟨-, -, rfl | ⟨id, -, rfl⟩⟩ | ⟨b, hm, -⟩
  · exact Or.inl hp
  · exact Or.inl (List.mem_filter.1 hp).1
  · rcases Ledger.mem_registry_of_move hm hp with hp | ⟨he, -, -⟩
    · exact Or.inl hp
    · exact Or.inr (by rw [he])

theorem Call.Move.hasLeft_back {bound now : Nat} {held : Bool} {h : Handle} {k : Call}
    {s : CallStage} (hm : k.Move bound now held x h s x') (hb : x.body = .handle h)
    (hl : x'.HasLeft) : x.HasLeft := by
  cases hm with
  | ask => exact hl
  | disable _ =>
    obtain ⟨h', r, hb', hr, hl⟩ := hl
    cases hb'
    exact ⟨h, r, hb, hr, hl⟩
  | _ => exact hl

end

namespace World

variable {env : Environment} {w w' : World} {m : Nat} {x : Member} {h : Handle}
  {as : List Action}

/-- **No entry of the registry is that of a runner which has left.** -/
theorem not_hasLeft_of_mem (hw : run env {} as = some w) {p : Nat × Entry}
    (hp : p ∈ w.coordinator.registry) (hx : w.members[p.2.member]? = some x) : ¬ x.HasLeft := by
  refine run_induction (P := fun _ w => ∀ p ∈ w.coordinator.registry, ∀ x,
    w.members[p.2.member]? = some x → ¬ x.HasLeft) ?_ ?_ hw p hp x hx
  · intro p hp
    cases hp
  · intro as a w w' hw ih ha p hp x' hx' hl
    cases effect_of_step ha with
    | arrive y hy =>
      rcases getElem?_concat_cases hx' with hx | ⟨-, rfl⟩
      · exact ih p hp x' hx hl
      · exact hy.not_hasLeft hl
    | turn pid log hx ht =>
      rcases getElem?_set_cases hx' with ⟨rfl, rfl⟩ | ⟨hne, hx'⟩
      · obtain ⟨hp, hl⟩ := ht.hasLeft_back hp (fun hp => hasEntered_of_mem hw hp hx) hl
        exact ih p hp _ hx hl
      · rcases ht.mem_registry_back hx hp with hp | hm
        · exact ih p hp x' hx' hl
        · exact hne hm.symm
    | unregister id => exact ih p (List.mem_filter.1 hp).1 x' hx' hl
    | proceed log hk hx hb hm =>
      rcases getElem?_set_cases hx' with ⟨hm', rfl⟩ | ⟨-, hx'⟩
      · exact ih p hp _ (hm' ▸ hx) (hm.hasLeft_back hb hl)
      · exact ih p hp x' hx' hl
    | drain log _ _ => cases hp
    | cancel hs hj hd =>
      rw [List.getElem?_modify, Option.map_eq_map, Option.map_eq_some_iff] at hx'
      obtain ⟨x, hx, rfl⟩ := hx'
      refine ih p hp x hx ?_
      split at hl <;> exact hl
    | _ => exact ih p hp x' hx' hl

/-- A run that is finished has a runner which is gone. -/
theorem gone_of_finished (hw : run env {} as = some w) (hx : w.members[m]? = some x)
    (hb : x.body = .handle h) (hf : h.status.state = .finished) :
    ∃ r, h.runner = some r ∧ r.stage = .gone ∧ r.Sound x.registration h := by
  have hS := sound_of_run hw hx h hb
  cases hr : h.runner with
  | none =>
    rw [(hS.idle hr).2] at hf
    cases hf
  | some r =>
    have hR := hS.run r hr
    refine ⟨r, rfl, ?_, hR⟩
    by_contra hs
    have hst := hR.state
    rw [if_neg hs, hf] at hst
    cases hst

/-- Nothing that the run of the handle `h` of the member `x` at the place `m`
    has shared is left. -/
structure TornDown (w : World) (m : Nat) (x : Member) (h : Handle) : Prop where
  unregistered : ∀ p ∈ w.coordinator.registry, x.registration.id? ≠ some p.1 ∧ p.2.member ≠ m
  control : ∀ c, h.control = some c → c.enabled = false ∧ c.attached = false
  outcome : h.status.outcome.isSome
  pid : h.status.pid = none
  child : ∀ r c, h.runner = some r → r.child = some c → c.reaped = true

/-- At some moment of the run `as` the handle at the place `m` had a child with
    the pid. -/
def HadChild (env : Environment) (as : List Action) (m pid : Nat) : Prop :=
  ∃ past a v x h r c, Took env as past a v ∧ v.members[m]? = some x ∧ x.body = .handle h ∧
    h.runner = some r ∧ r.child = some c ∧ c.pid = pid

theorem tornDown_of_finished (hw : run env {} as = some w) (hx : w.members[m]? = some x)
    (hb : x.body = .handle h) (hf : h.status.state = .finished) : w.TornDown m x h := by
  obtain ⟨r, hr, hs, hR⟩ := gone_of_finished hw hx hb hf
  have hleft : x.HasLeft := ⟨h, r, hb, hr, by rw [hs]; rfl⟩
  refine ⟨fun p hp => ?_, fun c hc => ?_, ?_, ?_, fun r' c hr' hc => ?_⟩
  · have hm : p.2.member ≠ m := by
      rintro rfl
      exact not_hasLeft_of_mem hw hp hx hleft
    refine ⟨fun hid => hm ?_, hm⟩
    obtain ⟨g, hg, hent⟩ := (ledger_of_run hw).entry p hp
    exact (ledger_of_run hw).distinct _ _ g _ p.1 hg (getElem?_registrations hx) hent.id? hid
  · exact ⟨hR.disabled (by rw [hs]; rfl) c hc, hR.detached (by rw [hs]; rfl) c hc⟩
  · rw [hR.recorded, hs]; rfl
  · exact hR.forgotten (by rw [hs]; rfl)
  · rw [hr] at hr'
    cases hr'
    exact hR.reaped (by rw [hs]; nofun) c hc

/-- **Finished means torn down.**  Whoever sees a run finished finds nothing of
    it left; every child that it had at any time is reaped; and from then on it
    is finished, with that outcome. -/
theorem finished_is_torn_down (hw : run env {} as = some w) (hx : w.members[m]? = some x)
    (hb : x.body = .handle h) (hf : h.status.state = .finished) :
    w.TornDown m x h ∧
    (∀ pid, HadChild env as m pid →
      ∃ r c, h.runner = some r ∧ r.child = some c ∧ c.pid = pid ∧ c.reaped = true) ∧
    ∀ bs w', run env w bs = some w' → ∃ x' h', w'.members[m]? = some x' ∧ x'.body = .handle h' ∧
      h'.status.state = .finished ∧ h'.status.outcome = h.status.outcome ∧
      w'.TornDown m x' h' := by
  have hT := tornDown_of_finished hw hx hb hf
  refine ⟨hT, ?_, fun bs w' hbs => ?_⟩
  · rintro pid ⟨past, a, v, x₀, h₀, r₀, c₀, ht, hx₀, hb₀, hr₀, hc₀, rfl⟩
    obtain ⟨r, hr, hl⟩ := runner_later ht hw hx₀ hb₀ hr₀ hx hb
    obtain ⟨c, hc, hl⟩ := hl.child c₀ hc₀
    exact ⟨r, c, hr, hc, hl.pid, hT.child r c hr hc⟩
  · obtain ⟨x', hx', hl⟩ := later_of_run hw hbs hx
    obtain ⟨h', hb', hl⟩ := hl.handle h hb
    obtain ⟨o, ho⟩ := Option.isSome_iff_exists.1 hT.outcome
    have hle := hl.state
    rw [hf] at hle
    have hf' := RunState.eq_finished_of_le hle
    exact ⟨x', h', hx', hb', hf', by rw [ho, hl.outcome o ho],
      tornDown_of_finished (run_append_eq_some.2 ⟨w, hw, hbs⟩) hx' hb' hf'⟩

/-- A child is stopped, and the sink brings the runner down when it is to be told
    so. -/
def fallenRun : List Action :=
  [.create ["sleep"] { policy := fun _ _ => .fatal }, .createControl 0 "stop", .start 0 true] ++
    List.replicate 5 (.runner 0 .proceed) ++
    [.pump 0 .start, .call .stop 0, .proceed 0, .proceed 0, .proceed 0, .runner 0 .cancel,
      .runner 0 .proceed, .pump 0 (.read .out), .pump 0 (.read .err)] ++
    List.replicate 9 (.runner 0 .proceed)

/-- Also the run of a runner that fell is torn down. -/
theorem finished_is_torn_down_fallenRun :
    ∃ w x h r, run .silent {} fallenRun = some w ∧ w.members[0]? = some x ∧
      x.body = .handle h ∧ h.status.state = .finished ∧ h.runner = some r ∧ r.fell = true ∧
      r.controlled = true ∧ r.child.isSome ∧ w.TornDown 0 x h := by
  refine ⟨_, _, _, _, rfl, rfl, rfl, rfl, rfl, rfl, rfl, rfl, ?_⟩
  exact (@finished_is_torn_down .silent _ 0 _ _ fallenRun rfl rfl rfl rfl).1

end World

end Supervisor
