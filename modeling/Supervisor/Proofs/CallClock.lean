/-
  A stop on the clock.

  * `World.playOn`: actions of whatever parties, where time passes only if a call can do
    nothing now, and not beyond what it waits for.  Every wait on the clock of all is one
    (`exists_playOn_of_awaitFor`);
  * `World.stopBound`, `World.stopEnd`: when a stop that turns the flag gives up, and when it
    is to be over, given when the run is finished;
  * `CallStage.Timed`: how such a stop stands on the clock, by its stage.  Every prompt run
    keeps it (`stopTimed_of_play`), so it goes on at that time (`StopStep.now_eq`), with a
    warning if it gives up (`log_of_leave`), and it can always return (`exists_returned`);
  * `at_once_of_play`: every other stop takes its steps at the time at which it begins.
-/
import Supervisor.Proofs.StopCalls
import Supervisor.Proofs.SweepClock

namespace Supervisor

namespace World

variable {env : Environment} {w w' u v : World} {a : Action} {as bs rest past : List Action}
  {m i ms : Nat} {x : Member} {h : Handle} {k : Call}

/-! ## Prompt runs of a call -/

/-- Whether a call can do something now. -/
def isReadyOn (env : Environment) (w : World) (i : Nat) : Bool := (w.step env (.proceed i)).isSome

/-- Whether so much time may pass as far as a call is concerned. -/
def mayPassOn (env : Environment) (w : World) (i ms : Nat) : Bool :=
  !w.isReadyOn env i && w.calls[i]?.all fun k => k.times.all fun t => t ≤ w.now || w.now + ms ≤ t

/-- A run that is prompt as far as a call is concerned. -/
def playOn (env : Environment) (i : Nat) (w : World) (as : List Action) : Option World :=
  playBy (fun w ms => w.mayPassOn env i ms) env w as

/-- A call that has returned does nothing more. -/
theorem not_isReadyOn_of_isReturned (hk : w.calls[i]? = some k) (hr : k.isReturned = true) :
    w.isReadyOn env i = false := by
  by_contra hready
  obtain ⟨w', ha⟩ := Option.isSome_iff_exists.1 (Bool.not_eq_false _ ▸ hready)
  obtain ⟨k', x, h, s, x', log, hk', -, -, hm, -⟩ := exists_move_of_proceed ha
  obtain rfl := Option.some.inj (hk.symm.trans hk')
  cases hm <;> simp_all [Call.isReturned]

/-- Time that may pass for all may pass for each call. -/
theorem mayPassOn_of_mayPass (hp : w.mayPass env ms = true) (i : Nat) :
    w.mayPassOn env i ms = true := by
  cases hk : w.calls[i]? with
  | none => simp [mayPassOn, isReadyOn, hk, step, callStep]
  | some k =>
    simp only [mayPassOn, hk, Option.all_some, Bool.and_eq_true, Bool.not_eq_true',
      List.all_eq_true, Bool.or_eq_true, decide_eq_true_eq]
    refine ⟨?_, fun t ht => ?_⟩
    · cases hr : k.isReturned with
      | true => exact not_isReadyOn_of_isReturned hk hr
      | false => simp [isReadyOn, step_eq_none_of_mayPass hp (mem_instant_of_call hk hr)]
    · by_cases hlt : w.now < t
      · refine Or.inr (le_of_mayPass hp (List.mem_filter.2 ⟨?_, decide_eq_true hlt⟩))
        exact List.mem_append_right _ (List.mem_flatMap.2
          ⟨k, List.mem_of_getElem? hk, ht⟩)
      · exact Or.inl (Nat.le_of_not_lt hlt)

/-- **A wait on the clock is prompt as far as each call is concerned.** -/
theorem exists_playOn_of_awaitFor (env : Environment) (limit : Nat) (done : World → Bool)
    (fuel i : Nat) (w : World) :
    ∃ as, playOn env i w as = some (awaitFor env limit done fuel w) :=
  exists_playBy_of_awaitFor (fun _ _ hp => mayPassOn_of_mayPass hp i) limit done fuel w

/-- The part of a prompt run up to a step of the call. -/
theorem exists_play_of_prefix (hplay : playOn env i v as = some w)
    (hpre : bs ++ [.proceed i] <+: as) :
    ∃ u u' cs, playOn env i v bs = some u ∧ step env u (.proceed i) = some u' ∧
      run env u (.proceed i :: cs) = some w ∧ as = bs ++ .proceed i :: cs := by
  obtain ⟨cs, rfl⟩ := hpre
  rw [List.append_assoc, List.singleton_append] at hplay
  obtain ⟨u, hu, hrest⟩ := playBy_append.1 hplay
  obtain ⟨u', ha, -⟩ := playBy_cons.1 hrest
  exact ⟨u, u', cs, hu, step_of_promptBy ha, run_of_playBy hrest, by simp⟩

/-- **While a call can do nothing**, it is on its way no more, and what it waits for is still
    to come. -/
theorem quiet_of_not_isReadyOn (hn : w.isReadyOn env i = false) (hk : w.calls[i]? = some k)
    (hx : w.members[k.member]? = some x) (hb : x.body = .handle h) :
    k.stage.ahead = 0 ∧ ∀ d, k.stage = .bounded d → h.status.state ≠ .finished ∧ w.now < d := by
  have hnone : k.step env.settings.stopTimeout w.now (w.isHeld k.member) x h = none :=
    Option.eq_none_iff_forall_ne_some.2
      (by simpa [isReadyOn, step, callStep, hk, hx, handle?_eq_some.2 hb] using hn)
  refine ⟨?_, fun d hs => ?_⟩
  · by_contra ha
    have hsome := Call.isSome_step env.settings.stopTimeout w.now (w.isHeld k.member) x h
      (Nat.pos_of_ne_zero ha)
    rw [hnone] at hsome
    cases hsome
  · simp only [Call.step, hs] at hnone
    split at hnone
    · cases hnone
    · next hfin =>
      split at hnone
      · cases hnone
      · next hlt => exact ⟨hfin, Nat.lt_of_not_le hlt⟩

/-! ## When a run is finished -/

theorem isOverAt_of_handle (hx : w.members[m]? = some x) (hb : x.body = .handle h) :
    w.isOverAt m = true ↔ h.status.state = .finished := by
  rw [isOverAt_eq hx]
  simp [Member.isOver, Member.state, hb]

/-- **A run is finished exactly if it has been so.** -/
theorem isSome_finishTime_of_handle (hv : run env {} past = some v) (hw : run env v as = some w)
    (hx : v.members[m]? = some x) (hb : x.body = .handle h) :
    (finishTime env m v as).isSome = w.isOverAt m := by
  refine run_induction (P := fun as w => (finishTime env m v as).isSome = w.isOverAt m) ?_ ?_ hw
  · cases ho : v.isOverAt m <;> simp [finishTime, ho]
  · intro as a u u' hu ih ha
    refine isSome_finishTime_concat hu ha (fun ho => ?_) ih
    have hrun := run_append_eq_some.2 ⟨v, hv, hu⟩
    obtain ⟨y, hy, hl⟩ := later_of_run hv hu hx
    obtain ⟨g, hg, -⟩ := hl.handle h hb
    have hfin : y.state = .finished := by
      simpa [Member.state, hg] using (isOverAt_of_handle hy hg).1 ho
    have hone : run env u [a] = some u' := run_cons.2 ⟨u', ha, rfl⟩
    obtain ⟨y', hy', hfin'⟩ := finished_of_later hrun hone hy hg hfin
    simp [isOverAt_eq hy', Member.isOver, hfin']

/-- When a stop gives up that turns the flag now. -/
def stopBound (env : Environment) (v : World) : Nat := v.now + env.settings.stopTimeout

/-- When a stop that turned the flag of a member in `v` is to be over: when the run is
    finished, or at the bound if this comes first. -/
def stopEnd (env : Environment) (v : World) (as : List Action) (m : Nat) : Nat :=
  min ((finishTime env m v as).getD (v.stopBound env)) (v.stopBound env)

/-- Once the run is finished or the bound reached, the end of the stop is settled. -/
theorem stopEnd_append (hu : run env v as = some u) (hw : run env u bs = some w)
    (hset : (finishTime env m v as).isSome ∨ v.stopBound env ≤ u.now) :
    stopEnd env v (as ++ bs) m = stopEnd env v as m := by
  rw [stopEnd, stopEnd, finishTime_append hu]
  cases hf : finishTime env m v as with
  | some t => rfl
  | none =>
    have hle : v.stopBound env ≤ u.now := by simpa [hf] using hset
    cases hf' : finishTime env m u bs with
    | none => rfl
    | some t =>
      have := finishTime_bounds hw hf'
      simp only [Option.none_or, Option.getD_some, Option.getD_none]
      omega

end World

/-! ## A stop on the clock -/

/-- How a stop that has turned the flag stands on the clock, by its stage; its time is up at
    `bound`, and `finish` says when its run was finished first. -/
inductive CallStage.Timed (bound now : Nat) (finish : Option Nat) : CallStage → Prop where
  | bounded : now ≤ bound → (∀ t, finish = some t → t = now) →
      Timed bound now finish (.bounded bound)
  | disabling : finish.isSome ∨ bound ≤ now → now = min (finish.getD bound) bound →
      Timed bound now finish .disabling
  | returned (b : Bool) : Timed bound now finish (.returned b)
  | abandoned : Timed bound now finish .abandoned

namespace CallStage.Timed

variable {bound now : Nat} {finish : Option Nat} {s : CallStage} {b : Bool}

/-- The run may be finished now. -/
theorem look (h : s.Timed bound now finish) :
    s.Timed bound now (finish.or (if b then some now else none)) := by
  cases h with
  | bounded hle hf =>
    refine .bounded hle fun t ht => ?_
    rcases Option.or_eq_some_iff.1 ht with ht | ⟨-, ht⟩
    · exact hf t ht
    · simp only [Option.ite_none_right_eq_some, Option.some.injEq] at ht
      exact ht.2.symm
  | disabling hset heq =>
    cases finish with
    | some t => exact .disabling hset heq
    | none =>
      have hle : bound ≤ now := by simpa using hset
      refine .disabling (.inr hle) ?_
      cases b <;> simp at heq ⊢ <;> omega
  | returned b => exact .returned b
  | abandoned => exact .abandoned

/-- Who waits up to the bound leaves when the run is finished or the bound reached. -/
theorem now_eq {d : Nat} (h : Timed bound now finish (.bounded d))
    (hset : finish.isSome ∨ d ≤ now) : d = bound ∧ now = min (finish.getD bound) bound := by
  cases h with
  | bounded hle hf =>
    refine ⟨rfl, ?_⟩
    cases finish with
    | some t =>
      have := hf t rfl
      simp only [Option.getD_some]
      omega
    | none =>
      have : bound ≤ now := by simpa using hset
      simp only [Option.getD_none]
      omega

/-- Who waits up to the bound does not wait longer. -/
theorem now_le {d : Nat} (h : Timed bound now finish (.bounded d)) :
    now ≤ min (finish.getD bound) bound := by
  cases h with
  | bounded hle hf =>
    cases finish with
    | some t =>
      have := hf t rfl
      simp only [Option.getD_some]
      omega
    | none => simpa using hle

end CallStage.Timed

namespace World

variable {env : Environment} {w w' u v : World} {a : Action} {as bs rest past : List Action}
  {m i ms : Nat} {x : Member} {h : Handle} {k : Call}

/-- **A stop that stands on the clock goes on when it is to be over**, and stands on the clock
    still. -/
theorem timed_of_move {s : CallStage} {bound stop now : Nat} {x' : Member} {held : Bool}
    {finish : Option Nat} (hT : k.stage.Timed bound now finish)
    (hm : k.Move stop now held x h s x') (hf : finish.isSome = true ↔ h.status.state = .finished) :
    (finish.isSome ∨ bound ≤ now) ∧ now = min (finish.getD bound) bound ∧
      s.Timed bound now finish := by
  -- the stop of a call ends in one of two stages
  have hleave : ∀ d, k.stage = .bounded d → finish.isSome ∨ d ≤ now →
      (finish.isSome ∨ bound ≤ now) ∧ now = min (finish.getD bound) bound ∧
        k.leave.stage.Timed bound now finish := by
    intro d hs hset
    rw [hs] at hT
    obtain ⟨rfl, heq⟩ := hT.now_eq hset
    obtain hl | hl := k.leave_stage
    · exact ⟨hset, heq, by rw [hl]; exact .disabling hset heq⟩
    · exact ⟨hset, heq, by rw [hl]; exact .returned _⟩
  cases hm with
  | finished d hs hfin => exact hleave d hs (.inl (hf.2 hfin))
  | timeout d hs _ hle => exact hleave d hs (.inr hle)
  | disable hs =>
    rw [hs] at hT
    cases hT with
    | disabling hset heq => exact ⟨hset, heq, .returned _⟩
  | disabled hs _ _ | enabled hs _ _ | begin hs _ | wait hs _ _ | pointless hs _ _ | found hs _
  | lost hs _ | running hs _ | idle hs _ | asked hs _ | ask hs _ | ended hs _ =>
    rw [hs] at hT
    cases hT

/-- The call `i` on the member `m` turned the flag in `v`, and stands on the clock after the
    actions `as`. -/
def StopTimed (env : Environment) (m i : Nat) (v : World) (as : List Action) (w : World) : Prop :=
  ∃ k, w.calls[i]? = some k ∧ k.member = m ∧
    k.stage.Timed (v.stopBound env) w.now (finishTime env m v as)

namespace StopTimed

/-- An action that takes no time. -/
theorem step (hT : StopTimed env m i v as w) (hw : run env v as = some w)
    (ha : step env w a = some w') (hnow : w'.now = w.now)
    (hf : (finishTime env m v as).isSome = w.isOverAt m) : StopTimed env m i v (as ++ [a]) w' := by
  obtain ⟨k, hk, rfl, hT⟩ := hT
  obtain ⟨k', hk', hsh⟩ := (effect_of_step ha).call_shift hk
  suffices hT' : k'.member = k.member ∧
      k'.stage.Timed (v.stopBound env) w.now (finishTime env k.member v as) by
    refine ⟨k', hk', hT'.1, ?_⟩
    rw [finishTime_concat hw ha, hnow]
    exact hT'.2.look
  cases hsh with
  | same => exact ⟨rfl, hT⟩
  | proceed hx hb hm =>
    exact ⟨rfl, (timed_of_move hT hm (by rw [hf, isOverAt_of_handle hx hb])).2.2⟩
  | abandon => exact ⟨rfl, .abandoned⟩

/-- Time passes while the call can do nothing. -/
theorem pass (hT : StopTimed env m i v as w) (hw : run env v as = some w)
    (hx : w.members[m]? = some x) (hb : x.body = .handle h)
    (hf : (finishTime env m v as).isSome = w.isOverAt m) (hp : w.mayPassOn env i ms = true) :
    StopTimed env m i v (as ++ [Action.pass ms]) { w with now := w.now + ms } := by
  obtain ⟨k, hk, rfl, hT⟩ := hT
  simp only [mayPassOn, hk, Option.all_some, Bool.and_eq_true, Bool.not_eq_true',
    List.all_eq_true, Bool.or_eq_true, decide_eq_true_eq] at hp
  obtain ⟨hready, htimes⟩ := hp
  obtain ⟨hahead, hquiet⟩ := quiet_of_not_isReadyOn hready hk hx hb
  have ha : World.step env w (.pass ms) = some { w with now := w.now + ms } := rfl
  refine ⟨k, hk, rfl, ?_⟩
  cases hs : k.stage with
  | bounded d =>
    obtain ⟨hfin, hlt⟩ := hquiet d hs
    have hno : w.isOverAt k.member = false := by
      rw [← Bool.not_eq_true, isOverAt_of_handle hx hb]
      exact hfin
    have hnone : finishTime env k.member v as = none := by
      rw [← Option.not_isSome_iff_eq_none, hf, hno]
      exact Bool.false_ne_true
    have hle := htimes d (by simp [Call.times, hs])
    rw [hs] at hT
    cases hT with
    | bounded _ _ =>
      refine .bounded (by simp only; omega) fun t ht => ?_
      rw [finishTime_concat hw ha, hnone] at ht
      rw [show isOverAt { w with now := w.now + ms } k.member = false from hno] at ht
      cases ht
  | disabling => rw [hs] at hahead; cases hahead
  | returned b => exact .returned b
  | abandoned => exact .abandoned
  | entered | seeking | reading | asking | waiting => rw [hs] at hT; cases hT

end StopTimed

/-- The call that turned the flag in `v` is on a handle. -/
theorem Turned.exists_handle {s : List Action} (ht : Turned env s m i past v)
    (ha : step env v (.proceed i) = some u) :
    ∃ x h, v.members[m]? = some x ∧ x.body = .handle h := by
  obtain ⟨k, hk, rfl, -⟩ := ht.asked.call
  obtain ⟨k', x, h, -, -, -, hk', hx, hb, -⟩ := exists_move_of_proceed ha
  obtain rfl := Option.some.inj (hk.symm.trans hk')
  exact ⟨x, h, hx, hb⟩

/-- **Who turned the flag stands on the clock from then on**, in every run that is prompt as far
    as it is concerned. -/
theorem stopTimed_of_play {s : List Action} (ht : Turned env s m i past v)
    (hplay : playOn env i v (.proceed i :: rest) = some w) :
    StopTimed env m i v (.proceed i :: rest) w := by
  have hv := ht.asked.took.2
  obtain ⟨u, hu, hrest⟩ := playBy_cons.1 hplay
  have hturn := step_of_promptBy hu
  obtain ⟨x, h, hx, hb⟩ := ht.exists_handle hturn
  refine foldlM_induction (P := fun rest w => StopTimed env m i v (.proceed i :: rest) w) ?_ ?_
    hrest
  · obtain ⟨-, k, hk, hm, hs⟩ := ht.next hturn
    have hnow : u.now = v.now := now_of_step hturn nofun
    refine ⟨k, hk, hm, ?_⟩
    rw [hs, hnow]
    refine .bounded (Nat.le_add_right _ _) fun t hf => ?_
    have := finishTime_bounds (run_cons.2 ⟨u, hturn, rfl⟩) hf
    omega
  · intro bs a w w' hbs ih ha
    have hw : run env v (.proceed i :: bs) = some w :=
      run_of_playBy (playBy_cons.2 ⟨u, hu, hbs⟩)
    have hf := isSome_finishTime_of_handle hv hw hx hb
    by_cases hp : ∃ ms, a = .pass ms
    · obtain ⟨ms, rfl⟩ := hp
      obtain ⟨hpass, rfl⟩ := may_of_promptBy ha
      obtain ⟨y, hy, hl⟩ := later_of_run hv hw hx
      obtain ⟨g, hg, -⟩ := hl.handle h hb
      exact ih.pass hw hy hg hf hpass
    · have hstep := step_of_promptBy ha
      exact ih.step hw hstep (now_of_step hstep (not_exists.1 hp)) hf

/-! ## When it goes on, and with what -/

/-- A step that the call takes in `u`, after the actions `bs` since it turned the flag in `v`;
    `cs` is the rest of the run. -/
structure StopStep (env : Environment) (m i : Nat) (v : World) (bs : List Action) (u : World)
    (k : Call) (x : Member) (h : Handle) (cs : List Action) (w : World) : Prop where
  call : u.calls[i]? = some k
  member : k.member = m
  body : u.members[m]? = some x ∧ x.body = .handle h
  timed : k.stage.Timed (v.stopBound env) u.now (finishTime env m v bs)
  finish : (finishTime env m v bs).isSome = true ↔ h.status.state = .finished
  move : ∃ s x', k.Move env.settings.stopTimeout u.now (u.isHeld m) x h s x'
  past : run env v bs = some u
  rest : run env u cs = some w

theorem exists_stopStep {s : List Action} (ht : Turned env s m i past v)
    (hplay : playOn env i v (.proceed i :: rest) = some w) (hpre : bs ++ [.proceed i] <+: rest)
    (hu : run env v (.proceed i :: bs) = some u) : ∃ k x h cs,
      StopStep env m i v (.proceed i :: bs) u k x h cs w ∧ .proceed i :: rest =
        (.proceed i :: bs) ++ cs := by
  have hpre' : (.proceed i :: bs) ++ [.proceed i] <+: .proceed i :: rest :=
    List.cons_prefix_cons.2 ⟨rfl, hpre⟩
  obtain ⟨u₀, u', cs, hbs, ha, hcs, heq⟩ := exists_play_of_prefix hplay hpre'
  obtain rfl := Option.some.inj ((run_of_playBy hbs).symm.trans hu)
  obtain ⟨k, hk, rfl, hT⟩ := stopTimed_of_play ht hbs
  obtain ⟨k', y, g, s', y', log, hk', hy, hg, hm, -⟩ := exists_move_of_proceed ha
  obtain rfl := Option.some.inj (hk.symm.trans hk')
  obtain ⟨u₁, hturn, -⟩ := run_cons.1 hu
  obtain ⟨x, h, hx, hb⟩ := ht.exists_handle hturn
  have hf := isSome_finishTime_of_handle ht.asked.took.2 hu hx hb
  exact ⟨k, y, g, _, ⟨hk, rfl, ⟨hy, hg⟩, hT, by rw [hf, isOverAt_of_handle hy hg], ⟨_, _, hm⟩, hu,
    hcs⟩, heq⟩

/-- **A stop that turned the flag goes on when the run is finished**, or at the bound if this
    comes first. -/
theorem StopStep.now_eq {cs : List Action} (hS : StopStep env m i v bs u k x h cs w) :
    u.now = stopEnd env v (bs ++ cs) m := by
  obtain ⟨s, x', hm⟩ := hS.move
  obtain ⟨hset, hnow, -⟩ := timed_of_move hS.timed hm hS.finish
  rw [stopEnd_append hS.past hS.rest hset]
  exact hnow

/-- Who leaves a wait up to the bound finds the run finished exactly if this is not at the
    bound, where the run is not finished at the very bound. -/
theorem StopStep.finished_iff {cs : List Action} {d : Nat}
    (hS : StopStep env m i v bs u k x h cs w) (hs : k.stage = .bounded d)
    (htie : finishTime env m v (bs ++ cs) ≠ some (v.stopBound env)) :
    h.status.state = .finished ↔ u.now ≠ v.stopBound env := by
  have hT := hS.timed
  rw [hs] at hT
  cases hT with
  | bounded hle hfirst =>
    constructor
    · intro hfin
      obtain ⟨t, ht⟩ := Option.isSome_iff_exists.1 (hS.finish.2 hfin)
      rw [finishTime_append hS.past, ht, hfirst t ht] at htie
      simpa using htie
    · intro hne
      obtain ⟨s, x', hm⟩ := hS.move
      cases hm with
      | finished d _ hfin => exact hfin
      | timeout d hs' _ hlate =>
        obtain rfl := CallStage.bounded.inj (hs.symm.trans hs')
        exact absurd (Nat.le_antisymm hle hlate) hne
      | _ => simp_all

/-- A wait up to a bound that is over leaves a warning, unless the run is finished. -/
theorem log_of_leave {d : Nat} (hk : w.calls[i]? = some k) (hs : k.stage = .bounded d)
    (hx : w.members[k.member]? = some x) (hb : x.body = .handle h)
    (ha : step env w (.proceed i) = some w') :
    w'.log = w.log ++ if h.status.state = .finished then []
      else [.stopTimedOut h.command env.settings.stopTimeout] := by
  obtain ⟨k', y, g, next, hk', hy, hg, hn, rfl⟩ := callStep_eq_some ha
  obtain rfl := Option.some.inj (hk.symm.trans hk')
  obtain rfl := Option.some.inj (hx.symm.trans hy)
  obtain rfl := Body.handle.inj (hb.symm.trans hg)
  simp only [Call.step, hs] at hn
  split at hn
  · next hfin =>
    cases hn
    simp [log, note, setMember, hfin]
  · next hfin =>
    split at hn
    · cases hn
      simp [log, note, setMember, hfin]
    · cases hn

/-! ## It can always return -/

/-- An activation whose stop is over disables the control, and returns. -/
theorem exists_step_of_disabling (env : Environment) (hk : w.calls[i]? = some k)
    (hx : w.members[k.member]? = some x) (hb : x.body = .handle h) (hs : k.stage = .disabling) :
    ∃ w', step env w (.proceed i) = some w' ∧
      w'.calls[i]? = some (k.goto (.returned true)) := by
  obtain ⟨s, x', w', hm, ha, -, hk', -⟩ := exists_proceed env hk hx hb (by rw [hs]; decide)
  cases hm with
  | disable => exact ⟨w', ha, hk'⟩
  | _ => simp_all

/-- A wait up to a bound that can do something returns. -/
theorem exists_returned_of_isReadyOn {d : Nat} (hk : w.calls[i]? = some k)
    (hs : k.stage = .bounded d) (hready : w.isReadyOn env i = true) :
    ∃ n w' k', playOn env i w (List.replicate n (.proceed i)) = some w' ∧
      w'.calls[i]? = some k' ∧ k'.stage = .returned true := by
  obtain ⟨u, ha⟩ := Option.isSome_iff_exists.1 hready
  obtain ⟨k', x, h, s, x', log, hk', hx, hb, hm, hu⟩ := exists_move_of_proceed ha
  obtain rfl := Option.some.inj (hk.symm.trans hk')
  obtain ⟨g, hg, -⟩ := (hm.later hb).handle h hb
  have hku : u.calls[i]? = some (k.goto s) := by
    rw [hu]
    exact List.getElem?_set_self (List.getElem?_eq_some_iff.1 hk).1
  have hxu : u.members[(k.goto s).member]? = some x' := by
    rw [hu]
    exact List.getElem?_set_self (List.getElem?_eq_some_iff.1 hx).1
  have hleave : s = .disabling ∨ s = .returned true := by
    cases hm with
    | finished | timeout => exact k.leave_stage
    | _ => simp_all
  have hone : promptBy (fun w ms => w.mayPassOn env i ms) env w (.proceed i) = some u :=
    promptBy_of_step nofun ha
  obtain rfl | rfl := hleave
  · obtain ⟨w', ha', hk'⟩ := exists_step_of_disabling env hku hxu hg rfl
    exact ⟨2, w', _, playBy_cons.2 ⟨u, hone, playBy_cons.2 ⟨w', promptBy_of_step nofun ha', rfl⟩⟩,
      hk', rfl⟩
  · exact ⟨1, u, _, playBy_cons.2 ⟨u, hone, rfl⟩, hku, rfl⟩

/-- **A stop that waits up to a bound can always return**, by its own steps, at the latest when
    the time is up. -/
theorem exists_returned (env : Environment) {d : Nat} (hk : w.calls[i]? = some k)
    (hs : k.stage = .bounded d) (hx : w.members[k.member]? = some x) (hb : x.body = .handle h) :
    ∃ bs w' k', playOn env i w bs = some w' ∧ (∀ b ∈ bs, b = .proceed i ∨ ∃ ms, b = .pass ms) ∧
      w'.calls[i]? = some k' ∧ k'.stage = .returned true := by
  cases hready : w.isReadyOn env i with
  | true =>
    obtain ⟨n, w', k', hplay, hk', hr⟩ := exists_returned_of_isReadyOn hk hs hready
    exact ⟨_, w', k', hplay, fun b hb => .inl (List.eq_of_mem_replicate hb), hk', hr⟩
  | false =>
    obtain ⟨hfin, hlt⟩ := (quiet_of_not_isReadyOn hready hk hx hb).2 d hs
    have hnow : w.now + (d - w.now) = d := by omega
    have hpass : w.mayPassOn env i (d - w.now) = true := by
      simp [mayPassOn, hready, hk, Call.times, hs, hnow]
    obtain ⟨u, hu, hku, hxu, hnu⟩ : ∃ u, playOn env i w [.pass (d - w.now)] = some u ∧
        u.calls[i]? = some k ∧ u.members[k.member]? = some x ∧ u.now = d :=
      ⟨_, playBy_pass hpass, hk, hx, hnow⟩
    -- when the time is up it can go on
    have hready' : u.isReadyOn env i = true := by
      by_contra hn
      have hquiet := quiet_of_not_isReadyOn (by simpa using hn) hku hxu hb
      have := (hquiet.2 d hs).2
      omega
    obtain ⟨n, w', k', hplay, hk', hr⟩ := exists_returned_of_isReadyOn hku hs hready'
    refine ⟨_, w', k', playBy_append.2 ⟨u, hu, hplay⟩, fun b hb => ?_, hk', hr⟩
    rcases List.mem_append.1 hb with hb | hb
    · exact .inr ⟨_, List.mem_singleton.1 hb⟩
    · exact .inl (List.eq_of_mem_replicate hb)

/-! ## The other stops -/

/-- **A stop that does not turn the flag takes its steps at once**: as long as it is on its way,
    no time passes. -/
theorem at_once_of_play (hu : run env {} past = some u) (hk : u.calls[i]? = some k)
    (hx : u.members[k.member]? = some x) (hb : x.body = .handle h)
    (hplay : playOn env i u rest = some w)
    (hn : ∀ p v, ¬ Turned env (past ++ rest) k.member i p v) :
    ∃ k', w.calls[i]? = some k' ∧ k'.member = k.member ∧
      (0 < k'.stage.ahead → w.now = u.now) := by
  refine foldlM_induction (P := fun rest w => (∀ p v, ¬ Turned env (past ++ rest) k.member i p v) →
    ∃ k', w.calls[i]? = some k' ∧ k'.member = k.member ∧ (0 < k'.stage.ahead → w.now = u.now))
    (fun _ => ⟨k, hk, rfl, fun _ => rfl⟩) ?_ hplay hn
  intro bs a w w' hbs ih ha hn
  rw [← List.append_assoc] at hn
  have hn' : ∀ p v, ¬ Turned env (past ++ bs) k.member i p v :=
    fun p v ht => hn p v (ht.mono (List.prefix_append _ _))
  obtain ⟨k₁, hk₁, hm₁, hnow⟩ := ih hn'
  have hw := run_of_playBy hbs
  have hrun := run_append_eq_some.2 ⟨u, hu, hw⟩
  by_cases hp : ∃ ms, a = .pass ms
  · obtain ⟨ms, rfl⟩ := hp
    obtain ⟨hpass, rfl⟩ := may_of_promptBy ha
    simp only [mayPassOn, Bool.and_eq_true, Bool.not_eq_true'] at hpass
    obtain ⟨y, hy, hl⟩ := later_of_run hu hw hx
    obtain ⟨g, hg, -⟩ := hl.handle h hb
    have hquiet := quiet_of_not_isReadyOn hpass.1 hk₁ (hm₁ ▸ hy) hg
    exact ⟨k₁, hk₁, hm₁, fun hahead => absurd hquiet.1 (Nat.pos_iff_ne_zero.1 hahead)⟩
  · have hstep := step_of_promptBy ha
    obtain ⟨k₂, hk₂, hsh⟩ := (effect_of_step hstep).call_shift hk₁
    refine ⟨k₂, hk₂, by cases hsh <;> exact hm₁, fun hahead => ?_⟩
    rw [now_of_step hstep (not_exists.1 hp)]
    cases hsh with
    | same => exact hnow hahead
    | abandon => cases hahead
    | proceed _ _ hm =>
      cases hm with
      | disabled hs | enabled hs | begin hs | wait hs | pointless hs | found hs | lost hs
      | running hs | idle hs | asked hs | ask hs | disable hs => exact hnow (by rw [hs]; decide)
      | ended => cases hahead
      | finished d hs _ | timeout d hs _ _ =>
        obtain ⟨p, v, ht, -⟩ := (callStory_of_run hrun hk₁).bounded d hs
        exact absurd (hm₁ ▸ ht) (hn' p v)

end World

end Supervisor
