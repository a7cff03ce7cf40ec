/-
  Runs in which a handle loses no time.

  * `World.playBy`: actions of whatever parties, where time passes only as far as it may.
    Every wait on the clock of all is one, if what may pass for all may pass
    (`exists_playBy_of_awaitFor`);
  * `World.mayPassAt`: as far as one member is concerned, so much time may pass: nothing
    can happen to it now, and nothing that it waits for comes before;
  * `World.playAt`: the runs in which time passes only so;
  * `quiet_of_not_isReadyAt`: what is known of a run to which nothing can happen;
  * `Runner.work`: how much can happen to a run after its launch before time has to
    pass, so that time can always go on (`exists_playAt_to`).
-/
import Mathlib.Data.List.MinMax
import Supervisor.Proofs.Acts
import Supervisor.Proofs.Footprint
import Supervisor.World.Clock

namespace Supervisor

namespace World

variable {env : Environment} {w w' : World} {m ms : Nat} {a : Action} {as bs : List Action}
  {x : Member} {h : Handle} {r : Runner}

/-! ## Runs on a clock -/

/-- One action of a run in which time passes only as far as it may. -/
def promptBy (may : World → Nat → Bool) (env : Environment) (w : World) : Action → Option World
  | .pass ms => if may w ms then w.step env (.pass ms) else none
  | a => w.step env a

/-- A run in which time passes only as far as it may. -/
def playBy (may : World → Nat → Bool) (env : Environment) (w : World) (as : List Action) :
    Option World :=
  as.foldlM (promptBy may env) w

section
variable {may : World → Nat → Bool}

theorem step_of_promptBy (ha : promptBy may env w a = some w') : step env w a = some w' := by
  unfold promptBy at ha
  split at ha
  · split at ha
    · exact ha
    · cases ha
  · exact ha

theorem promptBy_of_step (hp : ∀ ms, a ≠ .pass ms) (ha : step env w a = some w') :
    promptBy may env w a = some w' := by
  unfold promptBy
  split
  · exact absurd rfl (hp _)
  · exact ha

theorem may_of_promptBy (ha : promptBy may env w (.pass ms) = some w') :
    may w ms = true ∧ w' = { w with now := w.now + ms } := by
  simp only [promptBy] at ha
  split at ha
  · next hp => cases ha; exact ⟨hp, rfl⟩
  · cases ha

theorem run_of_playBy (hw : playBy may env w as = some w') : run env w as = some w' :=
  foldlM_induction (P := fun as w' => run env w as = some w') rfl
    (fun _ _ v _ _ hv ha => run_concat.2 ⟨v, hv, step_of_promptBy ha⟩) hw

theorem playBy_append : playBy may env w (as ++ bs) = some w' ↔
    ∃ v, playBy may env w as = some v ∧ playBy may env v bs = some w' :=
  foldlM_append_eq_some

theorem playBy_cons : playBy may env w (a :: as) = some w' ↔
    ∃ v, promptBy may env w a = some v ∧ playBy may env v as = some w' := by
  unfold playBy
  rw [List.foldlM_cons, Option.bind_eq_bind, Option.bind_eq_some_iff]

theorem playBy_pass (hp : may w ms = true) :
    playBy may env w [.pass ms] = some { w with now := w.now + ms } := by
  simp only [playBy, promptBy, hp, if_true, List.foldlM_cons, List.foldlM_nil, step]
  rfl

/-- An action that is taken without the host takes no time. -/
theorem ne_pass_of_mem_instant (ha : a ∈ w.instant) : a ≠ .pass ms := by
  rintro rfl
  simp only [instant, List.mem_append, List.mem_flatMap, Prod.exists] at ha
  rcases ha with (⟨x, m, -, ha⟩ | ⟨s, k, -, ha⟩) | ⟨c, k, -, ha⟩
  · unfold memberActions at ha
    split at ha <;> simp at ha
  · split at ha <;> simp at ha
  · split at ha <;> simp at ha

theorem mem_instant_of_call {i : Nat} {k : Call} (hk : w.calls[i]? = some k)
    (hr : k.isReturned = false) : .proceed i ∈ w.instant := by
  have hmem : (k, i) ∈ w.calls.zipIdx := List.mem_zipIdx_iff_getElem?.2 hk
  exact List.mem_append_right _ (List.mem_flatMap.2 ⟨_, hmem, by simp [hr]⟩)

/-- **A wait on the clock of all is a run on every slower clock.** -/
theorem exists_playBy_of_awaitFor
    (hmay : ∀ (w : World) (ms : Nat), w.mayPass env ms = true → may w ms = true)
    (limit : Nat) (done : World → Bool) (fuel : Nat) (w : World) :
    ∃ as, playBy may env w as = some (awaitFor env limit done fuel w) := by
  induction fuel generalizing w with
  | zero => exact ⟨[], rfl⟩
  | succ fuel ih =>
    cases hnext : w.next env with
    | some v =>
      obtain ⟨a, hmem, ha⟩ := List.exists_of_findSome?_eq_some hnext
      obtain ⟨as, has⟩ := ih v
      refine ⟨a :: as, playBy_cons.2 ⟨v, ?_, ?_⟩⟩
      · exact promptBy_of_step (fun ms => ne_pass_of_mem_instant hmem) ha
      · simpa only [awaitFor, hnext] using has
    | none =>
      have hready : w.isReady env = false := by
        rw [World.next, List.findSome?_eq_none_iff] at hnext
        exact List.any_eq_false.2 fun a ha => by simp [hnext a ha]
      -- Up to a time that is not behind the next one a wait is prompt.
      have hpass : ∀ u, w.now ≤ u → w.nextTime.all (u ≤ ·) = true →
          playBy may env w [.pass (u - w.now)] = some { w with now := u } := by
        intro u hle hu
        have heq : w.now + (u - w.now) = u := by omega
        have hp : w.mayPass env (u - w.now) = true := by
          simpa only [mayPass, hready, heq, Bool.not_false, Bool.true_and] using hu
        rw [playBy_pass (hmay w _ hp), heq]
      cases hdone : done w with
      | true => exact ⟨[], by simp [awaitFor, hnext, hdone, playBy]⟩
      | false =>
        cases ht : w.nextTime with
        | none =>
          refine ⟨_, (hpass (max w.now limit) (Nat.le_max_left _ _) (by simp [ht])).trans ?_⟩
          simp [awaitFor, hnext, hdone, ht]
        | some t =>
          have hlt : w.now < t :=
            of_decide_eq_true (List.mem_filter.1 (List.min?_eq_some_iff.1 ht).1).2
          by_cases hle : t ≤ limit
          · obtain ⟨as, has⟩ := ih { w with now := t }
            refine ⟨[.pass (t - w.now)] ++ as, playBy_append.2 ⟨_,
              hpass t (Nat.le_of_lt hlt) (by simp [ht]), ?_⟩⟩
            simpa [awaitFor, hnext, hdone, ht, hle] using has
          · refine ⟨_, (hpass (max w.now limit) (Nat.le_max_left _ _) ?_).trans ?_⟩
            · simp only [ht, Option.all_some, decide_eq_true_eq]
              omega
            · simp [awaitFor, hnext, hdone, ht, hle]

/-- Time that may pass for all passes no time at which something could happen. -/
theorem le_of_mayPass {t : Nat} (hp : w.mayPass env ms = true) (ht : t ∈ w.times) :
    w.now + ms ≤ t := by
  simp only [mayPass, Bool.and_eq_true] at hp
  cases hn : w.nextTime with
  | none =>
    rw [List.min?_eq_none_iff.1 hn] at ht
    cases ht
  | some u =>
    have hle := (List.min?_eq_some_iff.1 hn).2 t ht
    have hnext := hp.2
    rw [hn] at hnext
    simp only [Option.all_some, decide_eq_true_eq] at hnext
    omega

theorem step_eq_none_of_mayPass (hp : w.mayPass env ms = true) (ha : a ∈ w.instant) :
    step env w a = none := by
  simp only [mayPass, Bool.and_eq_true, Bool.not_eq_true', isReady] at hp
  simpa using List.any_eq_false.1 hp.1 a ha

end

/-! ## Prompt runs -/

/-- Whether something can happen to a member now. -/
def isReadyAt (env : Environment) (w : World) (m : Nat) : Bool :=
  w.members[m]?.any fun x => (memberActions m x).any fun a => (w.step env a).isSome

/-- Whether so much time may pass as far as a member is concerned. -/
def mayPassAt (env : Environment) (w : World) (m ms : Nat) : Bool :=
  !w.isReadyAt env m && w.members[m]?.all fun x =>
    x.times.all fun t => t ≤ w.now || w.now + ms ≤ t

/-- One action of a run that is prompt as far as a member is concerned. -/
def promptAt (env : Environment) (m : Nat) (w : World) : Action → Option World
  | .pass ms => if w.mayPassAt env m ms then w.step env (.pass ms) else none
  | a => w.step env a

/-- A run that is prompt as far as a member is concerned. -/
def playAt (env : Environment) (m : Nat) (w : World) (as : List Action) : Option World :=
  as.foldlM (promptAt env m) w

theorem promptAt_eq : promptAt env m = promptBy (fun w ms => w.mayPassAt env m ms) env := by
  funext w a
  cases a <;> rfl

theorem playAt_eq :
    playAt env m w as = playBy (fun w ms => w.mayPassAt env m ms) env w as := by
  rw [playAt, playBy, promptAt_eq]

theorem promptAt_of_step (hp : ∀ ms, a ≠ .pass ms) (ha : step env w a = some w') :
    promptAt env m w a = some w' := by
  rw [promptAt_eq]
  exact promptBy_of_step hp ha

theorem step_of_promptAt (ha : promptAt env m w a = some w') : step env w a = some w' := by
  rw [promptAt_eq] at ha
  exact step_of_promptBy ha

theorem mayPassAt_of_promptAt (ha : promptAt env m w (.pass ms) = some w') :
    w.mayPassAt env m ms = true ∧ w' = { w with now := w.now + ms } := by
  rw [promptAt_eq] at ha
  exact may_of_promptBy ha

theorem run_of_playAt (hw : playAt env m w as = some w') : run env w as = some w' :=
  run_of_playBy (playAt_eq ▸ hw)

theorem playAt_append : playAt env m w (as ++ bs) = some w' ↔
    ∃ v, playAt env m w as = some v ∧ playAt env m v bs = some w' :=
  foldlM_append_eq_some

theorem playAt_singleton : playAt env m w [a] = some w' ↔ promptAt env m w a = some w' := by
  simp [playAt]

/-! ## On the clock of all -/

theorem mem_instant (hx : w.members[m]? = some x) (ha : a ∈ memberActions m x) :
    a ∈ w.instant := by
  have hmem : (x, m) ∈ w.members.zipIdx := List.mem_zipIdx_iff_getElem?.2 hx
  exact List.mem_append_left _ (List.mem_append_left _ (List.mem_flatMap.2 ⟨_, hmem, ha⟩))

theorem mem_times {t : Nat} (hx : w.members[m]? = some x) (ht : t ∈ x.times) (hlt : w.now < t) :
    t ∈ w.times := by
  refine List.mem_filter.2 ⟨?_, decide_eq_true hlt⟩
  exact List.mem_append_left _ (List.mem_append_left _
    (List.mem_flatMap.2 ⟨x, List.mem_of_getElem? hx, ht⟩))

/-- **Time that may pass for all may pass for each.** -/
theorem mayPassAt_of_mayPass (hp : w.mayPass env ms = true) (m : Nat) :
    w.mayPassAt env m ms = true := by
  cases hx : w.members[m]? with
  | none => simp [mayPassAt, isReadyAt, hx]
  | some x =>
    simp only [mayPassAt, isReadyAt, hx, Option.any_some, Option.all_some, Bool.and_eq_true,
      Bool.not_eq_true', List.any_eq_false, List.all_eq_true, Bool.or_eq_true, decide_eq_true_eq]
    refine ⟨fun a ha => by simp [step_eq_none_of_mayPass hp (mem_instant hx ha)], fun t ht => ?_⟩
    by_cases hlt : w.now < t
    · exact Or.inr (le_of_mayPass hp (mem_times hx ht hlt))
    · exact Or.inl (Nat.le_of_not_lt hlt)

/-- **A wait on the clock is prompt as far as each member is concerned.** -/
theorem exists_playAt_of_awaitFor (env : Environment) (limit : Nat) (done : World → Bool)
    (fuel m : Nat) (w : World) :
    ∃ as, playAt env m w as = some (awaitFor env limit done fuel w) := by
  simp only [playAt_eq]
  exact exists_playBy_of_awaitFor (fun w _ hp => mayPassAt_of_mayPass hp m) limit done fuel w

/-! ## While nothing can happen -/

theorem not_isReadyAt_of_mayPassAt (hp : w.mayPassAt env m ms = true) :
    w.isReadyAt env m = false := by
  simp only [mayPassAt, Bool.and_eq_true, Bool.not_eq_true'] at hp
  exact hp.1

/-- Time does not pass beyond what a member waits for. -/
theorem le_of_mayPassAt {t : Nat} (hp : w.mayPassAt env m ms = true) (hx : w.members[m]? = some x)
    (ht : t ∈ x.times) (hlt : w.now < t) : w.now + ms ≤ t := by
  simp only [mayPassAt, hx, Option.all_some, Bool.and_eq_true, List.all_eq_true, Bool.or_eq_true,
    decide_eq_true_eq] at hp
  have := hp.2 t ht
  omega

/-- **While nothing can happen to a run** its runner cannot go on, and its pump is
    quiet. -/
theorem quiet_of_not_isReadyAt (hx : w.members[m]? = some x) (hb : x.body = .handle h)
    (hr : h.runner = some r) (hn : w.isReadyAt env m = false) :
    (∀ s, r.step (w.view env m) x h s = none) ∧ ∀ p, r.pump = some p → p.Quiet w.now := by
  have hnone : ∀ a ∈ memberActions m x, step env w a = none := fun a ha => by
    simp only [isReadyAt, hx, Option.any_some, List.any_eq_false,
      Option.not_isSome_iff_eq_none] at hn
    exact hn a ha
  simp only [memberActions, hb] at hnone
  refine ⟨fun s => ?_, fun p hp => Pump.quiet_of_step (k := h.sink) fun e => ?_⟩
  · cases hs : r.step (w.view env m) x h s with
    | none => rfl
    | some next =>
      obtain ⟨pid, hstep⟩ := runnerStep_of_step hx hb hr hs
      rw [hnone (.runner m s) (by cases s <;> simp)] at hstep
      cases hstep
  · cases hs : p.step h.sink w.now e with
    | none => rfl
    | some next =>
      have he : e ∈ Pump.events := by
        cases e with
        | read s => cases s <;> simp [Pump.events]
        | _ => simp [Pump.events]
      have hstep := hnone (.pump m e) (by simp [he])
      simp [step, pumpStep, hx, handle?_eq_some.2 hb, hr, Runner.pumpStep, hp, World.view,
        hs] at hstep

end World

/-! ## How much can happen to a run -/

/-- How much can happen to a run after its launch before time has to pass. -/
def Runner.work (r : Runner) : Nat :=
  2 * (Stage.gone.rank - r.stage.rank) + (r.pump.map (·.work)).getD 0

theorem Stage.rank_le_gone (s : Stage) : s.rank ≤ Stage.gone.rank := by
  cases s <;> simp [Stage.rank]

namespace Runner

variable {v : View} {x : Member} {h h' : Handle} {r r' : Runner} {s : RunnerStep}

/-- After the launch a step of the runner leaves its pump alone, or orders it to finish. -/
theorem Act.pump_of_launched (ha : Act v x h r s h' r')
    (hl : Stage.waiting.rank ≤ r.stage.rank) (hc : x.cancel = false) :
    r'.pump = r.pump ∨ r'.pump = (r.order v.now v.env.settings.gracePeriod).pump := by
  cases ha with
  | begin hs => rw [hs] at hl; exact absurd hl (by decide)
  | register n hs _ => rw [hs] at hl; exact absurd hl (by decide)
  | launch p hs _ => rw [hs] at hl; exact absurd hl (by decide)
  | cancel _ hc' => rw [hc] at hc'; cases hc'
  | drain o _ => exact Or.inr rfl
  | _ => exact Or.inl rfl

/-- **Each step of a runner uses up some of what can happen.** -/
theorem Act.work_lt (ha : Act v x h r s h' r') (hl : Stage.waiting.rank ≤ r.stage.rank)
    (hc : x.cancel = false) : r'.work < r.work := by
  have hlt := ha.rank_lt fun hs => by rw [hs] at hl; exact absurd hl (by decide)
  have hle := r'.stage.rank_le_gone
  have hpump : (r'.pump.map (·.work)).getD 0 ≤ (r.pump.map (·.work)).getD 0 + 1 := by
    rcases ha.pump_of_launched hl hc with hp | hp
    · rw [hp]
      exact Nat.le_succ _
    · rw [hp]
      cases hq : r.pump with
      | none => simp [order, hq]
      | some p => simpa [order, hq] using p.work_give_le v.now v.env.settings.gracePeriod
  unfold work
  omega

end Runner

namespace World

variable {env : Environment} {w w' : World} {m : Nat} {a : Action} {as : List Action}
  {x x' : Member} {h : Handle} {r : Runner}

/-- The run of the handle `m` has a child that was launched, and nobody has asked for
    its end. -/
def RunsOn (w : World) (m : Nat) (r : Runner) : Prop :=
  ∃ x h, w.members[m]? = some x ∧ x.body = .handle h ∧ h.runner = some r ∧ x.cancel = false ∧
    Stage.waiting.rank ≤ r.stage.rank

theorem exists_of_mem_memberActions (hb : x.body = .handle h) (ha : a ∈ memberActions m x) :
    (∃ s, a = .runner m s) ∨ ∃ e, a = .pump m e := by
  simp only [memberActions, hb, List.mem_append, List.mem_cons, List.mem_map, List.not_mem_nil,
    or_false] at ha
  rcases ha with ((rfl | rfl) | ⟨e, -, rfl⟩) | rfl
  · exact Or.inl ⟨_, rfl⟩
  · exact Or.inl ⟨_, rfl⟩
  · exact Or.inr ⟨e, rfl⟩
  · exact Or.inl ⟨_, rfl⟩

/-- **What happens to a run after its launch uses up some of what can**, and takes no
    time. -/
theorem RunsOn.step (hR : w.RunsOn m r) (hx : w.members[m]? = some x)
    (ha : a ∈ memberActions m x) (hs : step env w a = some w') :
    ∃ r', w'.RunsOn m r' ∧ r'.work < r.work ∧ w'.now = w.now := by
  obtain ⟨y, h, hy, hb, hr, hc, hl⟩ := hR
  rw [hx] at hy
  cases hy
  obtain ⟨hlt, -⟩ := List.getElem?_eq_some_iff.1 hx
  have hnow := now_of_step hs fun ms => ne_pass_of_mem_instant (mem_instant hx ha)
  rcases exists_of_mem_memberActions hb ha with ⟨s, rfl⟩ | ⟨e, rfl⟩
  · obtain ⟨n, -, hmem, -, hacted⟩ := hasActed_of_step hs hx hb hr
    obtain ⟨h', r', hact, hb'⟩ := hacted.act
    have hne : r.stage ≠ .registering := fun hst => by rw [hst] at hl; exact absurd hl (by decide)
    exact ⟨r', ⟨n.member, _, by rw [hmem]; simp [hlt], hb', rfl, (hacted.cancel hne).trans hc,
      Nat.le_trans hl hact.rank_le⟩, hact.work_lt hl hc, hnow⟩
  · obtain ⟨y, k, q, next, hy, hk, hq, hn, rfl⟩ := pumpStep_eq_some hs
    rw [hx] at hy
    cases hy
    rw [hb] at hk
    cases hk
    rw [hr] at hq
    cases hq
    obtain ⟨p, p', k', hp, ht, hmem⟩ := Runner.turn_of_pumpStep hn
    refine ⟨{ r with pump := some p', child := r.childAfter (w.view env m) p' }, ⟨next.member, _,
      by simp [accept, setMember, note, hlt], by rw [hmem]; rfl, rfl, by rw [hmem]; exact hc, hl⟩,
      ?_, hnow⟩
    simpa [Runner.work, hp] using ht.work_lt

/-- Everything happens to a run that can happen now. -/
theorem RunsOn.exists_quiet (env : Environment) (hR : w.RunsOn m r) :
    ∃ as w' r', playAt env m w as = some w' ∧ w'.RunsOn m r' ∧ w'.now = w.now ∧
      w'.isReadyAt env m = false := by
  induction hn : r.work using Nat.strong_induction_on generalizing w r with
  | _ n ih =>
    cases hready : w.isReadyAt env m with
    | false => exact ⟨[], w, r, rfl, hR, rfl, hready⟩
    | true =>
      obtain ⟨x, hx, hready⟩ := (Option.any_eq_true _ _).1 hready
      obtain ⟨a, ha, hsome⟩ := List.any_eq_true.1 hready
      obtain ⟨v, hv⟩ := Option.isSome_iff_exists.1 hsome
      obtain ⟨q, hq, hlt, hnow⟩ := hR.step hx ha hv
      obtain ⟨as, w', r', has, hR', hnow', hquiet⟩ := ih q.work (hn ▸ hlt) hq rfl
      refine ⟨[a] ++ as, w', r', playAt_append.2 ⟨v, playAt_singleton.2 ?_, has⟩, hR',
        hnow'.trans hnow, hquiet⟩
      exact promptAt_of_step (fun ms => ne_pass_of_mem_instant (mem_instant hx ha)) hv

/-- **Time can go on after the launch of a run**, without anything but its own steps. -/
theorem RunsOn.exists_playAt_to (env : Environment) (hR : w.RunsOn m r) (limit : Nat) :
    ∃ as w' r', playAt env m w as = some w' ∧ w'.RunsOn m r' ∧ limit ≤ w'.now := by
  induction hn : limit - w.now using Nat.strong_induction_on generalizing w r with
  | _ n ih =>
    obtain ⟨as, v, q, hplay, hq, hnow, hquiet⟩ := hR.exists_quiet env
    by_cases hdone : limit ≤ v.now
    · exact ⟨as, v, q, hplay, hq, hdone⟩
    · have hpass : v.mayPassAt env m 1 = true := by
        simp only [mayPassAt, hquiet, Bool.not_false, Bool.true_and, Option.all_eq_true,
          List.all_eq_true, Bool.or_eq_true, decide_eq_true_eq]
        intro x _ t _
        omega
      obtain ⟨more, w', r', hmore, hrest⟩ := ih (limit - (v.now + 1)) (by omega)
        (w := { v with now := v.now + 1 }) (r := q) hq rfl
      refine ⟨as ++ ([.pass 1] ++ more), w', r', playAt_append.2 ⟨v, hplay, playAt_append.2
        ⟨_, playAt_singleton.2 ?_, hmore⟩⟩, hrest⟩
      simp only [promptAt, hpass, if_true]
      rfl

end World

end Supervisor
