/-
  A sweep on the clock.

  * `World.isOverAt`: whether a sweep has nothing more to wait for at a place;
    `World.finishTime`: when that came about in a run.  While no guest goes back to an earlier
    state (`World.isMonotone`) it stays so (`isSome_finishTime`);
  * `World.playIn`: actions of whatever parties, where time passes only if a sweep can do
    nothing now, and not beyond what it waits for.  Every wait on the clock of all is one
    (`exists_playIn_of_awaitFor`);
  * `World.waitEnd`, `World.returnTime`: when a join and a sweep are to be done, given when the
    members finish;
  * `OnClock`: how the joins of a sweep stand on the clock, from its drain on.  Every prompt
    run keeps it (`onClock_of_play`);
  * `exists_return`: a sweep that has drained the registry can always return.
-/
import Supervisor.Proofs.Prompt
import Supervisor.Proofs.Sweeping

namespace Supervisor

namespace World

variable {env : Environment} {w w' v : World} {a : Action} {as bs : List Action} {m k i ms : Nat}
  {x : Member} {g : Guest}

/-! ## When a member is over -/

/-- **What an action makes of a guest.**  Its state is set, it vanishes, it reacts, or it is
    as it was. -/
theorem guest_of_step (ha : step env w a = some w') (hx : w.members[m]? = some x)
    (hb : x.body = .guest g) : ∃ x' g', w'.members[m]? = some x' ∧ x'.body = .guest g' ∧
      (g' = g ∨ (∃ s, a = .setState m s ∧ g' = g.setState s) ∨
        (a = .vanish m ∧ g' = g.vanish) ∨ (a = .react m ∧ g.react w.now x.cancel = some g')) := by
  obtain ⟨hlt, -⟩ := List.getElem?_eq_some_iff.1 hx
  -- an action on a handle is about another place
  have other : ∀ {n : Nat} {y y' : Member} {h : Handle}, w.members[n]? = some y →
      y.body = .handle h → (w.members.set n y')[m]? = some x := by
    intro n y y' h hy hh
    rw [List.getElem?_set_ne, hx]
    rintro rfl
    rw [hx] at hy
    cases hy
    rw [hb] at hh
    cases hh
  have same : w'.members[m]? = some x → ∃ x' g', w'.members[m]? = some x' ∧ x'.body = .guest g' ∧
      (g' = g ∨ (∃ s, a = .setState m s ∧ g' = g.setState s) ∨
        (a = .vanish m ∧ g' = g.vanish) ∨ (a = .react m ∧ g.react w.now x.cancel = some g')) :=
    fun hx' => ⟨x, g, hx', hb, Or.inl rfl⟩
  have touch : ∀ {n : Nat} {f : Member → Guest → Option Guest}, w.onGuest n f = some w' →
      w'.members[m]? = some x ∨ (n = m ∧ ∃ g', f x g = some g' ∧
        w'.members[m]? = some { x with body := .guest g' }) := by
    intro n f hf
    simp only [onGuest, Option.bind_eq_bind, Option.bind_eq_some_iff, Option.pure_def,
      Option.some.injEq] at hf
    obtain ⟨y, hy, g₀, hg₀, g', hg', rfl⟩ := hf
    by_cases hn : n = m
    · subst hn
      rw [hx] at hy
      cases hy
      rw [guest?_eq_some.1 hg₀] at hb
      cases hb
      exact Or.inr ⟨rfl, g', hg', by simp [setMember, hlt]⟩
    · exact Or.inl (by rw [setMember, List.getElem?_set_ne hn, hx])
  cases a with
  | setState n s =>
    rcases touch ha with hx' | ⟨rfl, g', hg', hx'⟩
    · exact same hx'
    · cases hg'
      exact ⟨_, _, hx', rfl, Or.inr (Or.inl ⟨s, rfl, rfl⟩)⟩
  | vanish n =>
    rcases touch ha with hx' | ⟨rfl, g', hg', hx'⟩
    · exact same hx'
    · cases hg'
      exact ⟨_, _, hx', rfl, Or.inr (Or.inr (Or.inl ⟨rfl, rfl⟩))⟩
  | react n =>
    rcases touch ha with hx' | ⟨rfl, g', hg', hx'⟩
    · exact same hx'
    · exact ⟨_, _, hx', rfl, Or.inr (Or.inr (Or.inr ⟨rfl, hg'⟩))⟩
  | register n =>
    simp only [step, Option.bind_eq_bind, Option.bind_eq_some_iff, Option.pure_def,
      Option.some.injEq] at ha
    obtain ⟨y, hy, g₀, -, r, hr, rfl⟩ := ha
    obtain ⟨r', -, hm, -⟩ := Member.register_eq_some hr
    by_cases hn : n = m
    · subst hn
      rw [hx] at hy
      cases hy
      refine ⟨r.member, g, by simp [accept, setMember, note, hlt], ?_, Or.inl rfl⟩
      rw [hm, Member.enrol_body, hb]
    · exact same (by simp [accept, setMember, note, List.getElem?_set_ne hn, hx])
  | welcome label g' => cases ha; exact same ((List.getElem?_append_left hlt).trans hx)
  | create command sink =>
    simp only [step] at ha
    split at ha
    · cases ha; exact same ((List.getElem?_append_left hlt).trans hx)
    · cases ha; exact same hx
  | configure n c | createControl n label =>
    obtain ⟨y, h, hy, hh, ⟨h', -, rfl⟩ | ⟨e, -, rfl⟩⟩ := onHandle_eq_some ha
    · exact same (other hy hh)
    · exact same hx
  | copy n | drop n =>
    simp only [step] at ha
    obtain ⟨y, h, hy, hh, ⟨h', -, rfl⟩ | ⟨e, -, rfl⟩⟩ := onHandle_eq_some ha
    · exact same (other hy hh)
    · exact same hx
  | start n b =>
    obtain ⟨y, h, hy, hh, ⟨h', -, rfl⟩ | ⟨e, -, rfl⟩⟩ := start_eq_some ha
    · exact same (other hy hh)
    · exact same hx
  | runner n s =>
    obtain ⟨y, h, r, next, hy, hh, -, -, pid, rfl⟩ := runnerStep_eq_some ha
    exact same (other hy hh)
  | pump n e =>
    obtain ⟨y, h, r, next, hy, hh, -, -, rfl⟩ := pumpStep_eq_some ha
    exact same (other hy hh)
  | proceed n =>
    obtain ⟨c, y, h, next, -, hy, hh, -, rfl⟩ := callStep_eq_some ha
    exact same (other hy hh)
  | call kind n =>
    simp only [step] at ha
    split at ha
    · cases ha; exact same hx
    · cases ha
  | abandon n =>
    obtain ⟨c, -, -, rfl⟩ := abandon_eq_some ha
    exact same hx
  | sweepStep k t =>
    have ha : sweepStep env w k t = some w' := ha
    cases sweepTurn_of_sweepStep ha with
    | @cancel i s j _ _ _ =>
      by_cases hj : j.entry.member = m
      · exact ⟨{ x with cancel := true }, g, by simp [hj, hx], hb, Or.inl rfl⟩
      · exact same (by simp [hj, hx])
    | _ => exact same hx
  | _ => cases ha; exact same hx

/-- Whether there is nothing more to wait for at a place. -/
def isOverAt (w : World) (m : Nat) : Bool := (w.members[m]?).all (·.isOver)

theorem isOverAt_eq (hx : w.members[m]? = some x) : w.isOverAt m = x.isOver := by
  simp [isOverAt, hx]

/-- Whether an action sets a guest back to an earlier state, where it can be seen. -/
def goesBack (w : World) : Action → Bool
  | .setState m s => (w.members[m]?.bind (·.guest?)).any fun g => !g.gone && s < g.state
  | _ => false

/-- Whether no guest goes back to an earlier state in a run. -/
def isMonotone (env : Environment) : World → List Action → Bool
  | _, [] => true
  | w, a :: as => !w.goesBack a && (w.step env a).all fun w' => isMonotone env w' as

/-- When there was nothing more to wait for at a place, first in a run. -/
def finishTime (env : Environment) (m : Nat) : World → List Action → Option Nat
  | w, [] => if w.isOverAt m then some w.now else none
  | w, a :: as =>
    if w.isOverAt m then some w.now else (w.step env a).bind fun w' => finishTime env m w' as

theorem finishTime_of_isOverAt (ho : v.isOverAt m = true) :
    finishTime env m v as = some v.now := by
  cases as <;> simp [finishTime, ho]

theorem isMonotone_concat (hw : run env v as = some w) :
    isMonotone env v (as ++ [a]) = (isMonotone env v as && !w.goesBack a) := by
  induction as generalizing v with
  | nil =>
    cases hw
    cases h : step env w a <;> simp [isMonotone, h]
  | cons b as ih =>
    obtain ⟨u, hb, hu⟩ := run_cons.1 hw
    simp [isMonotone, hb, ih hu, Bool.and_assoc]

theorem finishTime_concat (hw : run env v as = some w) (ha : step env w a = some w') :
    finishTime env m v (as ++ [a]) =
      (finishTime env m v as).or (if w'.isOverAt m then some w'.now else none) := by
  induction as generalizing v with
  | nil =>
    cases hw
    cases h : w.isOverAt m <;> simp [finishTime, h, ha]
  | cons b as ih =>
    obtain ⟨u, hb, hu⟩ := run_cons.1 hw
    cases h : v.isOverAt m <;> simp [finishTime, h, hb, ih hu]

/-- Who has not been over may be so first in what follows. -/
theorem finishTime_append (hw : run env v as = some w) :
    finishTime env m v (as ++ bs) = (finishTime env m v as).or (finishTime env m w bs) := by
  induction as generalizing v with
  | nil =>
    cases hw
    cases h : w.isOverAt m with
    | false => simp [finishTime, h]
    | true => simp [finishTime, h, finishTime_of_isOverAt h]
  | cons b as ih =>
    obtain ⟨u, hb, hu⟩ := run_cons.1 hw
    cases h : v.isOverAt m <;> simp [finishTime, h, hb, ih hu]

/-- A member is over exactly if it has been so, as long as it stays so. -/
theorem isSome_finishTime_concat (hw : run env v as = some w) (ha : step env w a = some w')
    (hstay : w.isOverAt m = true → w'.isOverAt m = true)
    (ih : (finishTime env m v as).isSome = w.isOverAt m) :
    (finishTime env m v (as ++ [a])).isSome = w'.isOverAt m := by
  rw [finishTime_concat hw ha, Option.isSome_or, ih]
  cases ho : w.isOverAt m with
  | false => cases ho' : w'.isOverAt m <;> simp
  | true => simp [hstay ho]

/-- **Who is over stays so**, unless it is set back. -/
theorem isOverAt_of_step (hr : run env {} bs = some w) (ha : step env w a = some w')
    (hback : w.goesBack a = false) (hx : w.members[m]? = some x) (ho : w.isOverAt m = true) :
    w'.isOverAt m = true := by
  rw [isOverAt_eq hx] at ho
  cases hb : x.body with
  | handle h =>
    have hone : run env w [a] = some w' := run_cons.2 ⟨w', ha, rfl⟩
    obtain ⟨x', hx', hl⟩ := later_of_run hr hone hx
    obtain ⟨h', hb', hl⟩ := hl.handle h hb
    have hfin : h.status.state = .finished := by simpa [Member.isOver, Member.state, hb] using ho
    have hle := hl.state
    rw [hfin] at hle
    rw [isOverAt_eq hx']
    simp [Member.isOver, Member.state, hb', RunState.eq_finished_of_le hle]
  | guest g =>
    obtain ⟨x', g', hx', hb', hg'⟩ := guest_of_step ha hx hb
    have ho : g.state = .finished ∨ g.gone = true := by
      simpa [Member.isOver, Member.state, hb] using ho
    suffices hs : g'.state = .finished ∨ g'.gone = true by
      rw [isOverAt_eq hx']
      simpa [Member.isOver, Member.state, hb'] using hs
    rcases hg' with rfl | ⟨s, rfl, rfl⟩ | ⟨-, rfl⟩ | ⟨-, hreact⟩
    · exact ho
    · cases hgone : g.gone with
      | true => simp [Guest.setState, hgone]
      | false =>
        have hst : g.state = .finished := by simpa [hgone] using ho
        have hlt : ¬ s < RunState.finished := by
          simpa [goesBack, hx, guest?_eq_some.2 hb, hgone, hst] using hback
        left
        simp only [Guest.setState, hgone, Bool.false_eq_true, if_false]
        exact RunState.eq_finished_of_le (Nat.le_of_not_lt hlt)
    · exact Or.inr rfl
    · unfold Guest.react at hreact
      split at hreact
      · split at hreact
        · cases hreact; exact ho
        · cases hreact
      · split at hreact
        · cases hreact
          split
          · exact Or.inr rfl
          · simp only [Guest.setState]
            split
            · next hgone => exact Or.inr hgone
            · exact Or.inl rfl
        · cases hreact
      · cases hreact

theorem now_le_of_step (ha : step env w a = some w') : w.now ≤ w'.now := by
  by_cases hp : ∃ ms, a = .pass ms
  · obtain ⟨ms, rfl⟩ := hp
    cases ha
    exact Nat.le_add_right _ _
  · exact Nat.le_of_eq (now_of_step ha (not_exists.1 hp)).symm

theorem now_le_of_run (hw : run env v as = some w) : v.now ≤ w.now :=
  run_induction (P := fun _ w => v.now ≤ w.now) (Nat.le_refl _)
    (fun _ _ _ _ _ ih ha => Nat.le_trans ih (now_le_of_step ha)) hw

/-- What is known of the time at which a member was over first. -/
theorem finishTime_bounds (hw : run env v as = some w) {t : Nat}
    (ht : finishTime env m v as = some t) : v.now ≤ t ∧ t ≤ w.now := by
  refine run_induction (P := fun as w => ∀ t, finishTime env m v as = some t →
    v.now ≤ t ∧ t ≤ w.now) ?_ ?_ hw t ht
  · intro t ht
    simp only [finishTime, Option.ite_none_right_eq_some, Option.some.injEq] at ht
    omega
  · intro as a u u' hu ih ha t ht
    have hle := now_le_of_step ha
    rw [finishTime_concat hu ha, Option.or_eq_some_iff] at ht
    rcases ht with ht | ⟨-, ht⟩
    · have := ih t ht
      omega
    · have := now_le_of_run hu
      simp only [Option.ite_none_right_eq_some, Option.some.injEq] at ht
      omega

/-- **A member is over exactly if it has been so**, while nobody goes back. -/
theorem isSome_finishTime {past : List Action} (hv : run env {} past = some v)
    (hw : run env v as = some w) (hmono : isMonotone env v as = true)
    (hx : v.members[m]? = some x) : (finishTime env m v as).isSome = w.isOverAt m := by
  refine run_induction (P := fun as w => isMonotone env v as = true →
    (finishTime env m v as).isSome = w.isOverAt m) ?_ ?_ hw hmono
  · intro _
    cases h : v.isOverAt m <;> simp [finishTime, h]
  · intro as a u u' hu ih ha hmono
    rw [isMonotone_concat hu, Bool.and_eq_true, Bool.not_eq_true'] at hmono
    obtain ⟨y, hy, -⟩ := later_of_run hv hu hx
    have hrun := run_append_eq_some.2 ⟨v, hv, hu⟩
    exact isSome_finishTime_concat hu ha (isOverAt_of_step hrun ha hmono.2 hy) (ih hmono.1)

/-! ## Prompt runs of a sweep -/

/-- Whether a sweep can do something now. -/
def isReadyIn (env : Environment) (w : World) (k : Nat) : Bool :=
  w.sweeps[k]?.any fun s =>
    s.endedAt.isNone && s.steps.any fun t => (w.step env (.sweepStep k t)).isSome

/-- Whether so much time may pass as far as a sweep is concerned. -/
def mayPassIn (env : Environment) (w : World) (k ms : Nat) : Bool :=
  !w.isReadyIn env k && w.sweeps[k]?.all fun s =>
    s.times.all fun t => t ≤ w.now || w.now + ms ≤ t

/-- A run that is prompt as far as a sweep is concerned. -/
def playIn (env : Environment) (k : Nat) (w : World) (as : List Action) : Option World :=
  playBy (fun w ms => w.mayPassIn env k ms) env w as

/-- Time that may pass for all may pass for each sweep. -/
theorem mayPassIn_of_mayPass (hp : w.mayPass env ms = true) (k : Nat) :
    w.mayPassIn env k ms = true := by
  cases hs : w.sweeps[k]? with
  | none => simp [mayPassIn, isReadyIn, hs]
  | some s =>
    have hmem : (s, k) ∈ w.sweeps.zipIdx := List.mem_zipIdx_iff_getElem?.2 hs
    simp only [mayPassIn, isReadyIn, hs, Option.any_some, Option.all_some, Bool.and_eq_true,
      Bool.not_eq_true', Bool.and_eq_false_iff, List.any_eq_false, List.all_eq_true,
      Bool.or_eq_true, decide_eq_true_eq]
    refine ⟨?_, fun t ht => ?_⟩
    · cases he : s.endedAt with
      | some t => exact Or.inl rfl
      | none =>
        refine Or.inr fun t ht => ?_
        have hin : .sweepStep k t ∈ w.instant := by
          refine List.mem_append_left _ (List.mem_append_right _ (List.mem_flatMap.2 ⟨_, hmem, ?_⟩))
          simpa [he] using ht
        simp [step_eq_none_of_mayPass hp hin]
    · by_cases hlt : w.now < t
      · refine Or.inr (le_of_mayPass hp (List.mem_filter.2 ⟨?_, decide_eq_true hlt⟩))
        exact List.mem_append_left _ (List.mem_append_right _
          (List.mem_flatMap.2 ⟨s, List.mem_of_getElem? hs, ht⟩))
      · exact Or.inl (Nat.le_of_not_lt hlt)

/-- **A wait on the clock is prompt as far as each sweep is concerned.** -/
theorem exists_playIn_of_awaitFor (env : Environment) (limit : Nat) (done : World → Bool)
    (fuel k : Nat) (w : World) :
    ∃ as, playIn env k w as = some (awaitFor env limit done fuel w) :=
  exists_playBy_of_awaitFor (fun _ _ hp => mayPassIn_of_mayPass hp k) limit done fuel w

variable {s s' : Sweep} {j : Join}

theorem step_eq_none_of_not_isReadyIn (hn : w.isReadyIn env k = false)
    (hs : w.sweeps[k]? = some s) (he : s.endedAt = none) {t : SweepStep} (ht : t ∈ s.steps) :
    step env w (.sweepStep k t) = none := by
  simp only [isReadyIn, hs, Option.any_some, he, Option.isNone_none, Bool.true_and,
    List.any_eq_false] at hn
  simpa using hn t ht

theorem mem_steps (hj : s.joins[i]? = some j) :
    .cancel i ∈ s.steps ∧ .stopped i ∈ s.steps ∧ .timedOut i ∈ s.steps := by
  obtain ⟨hlt, -⟩ := List.getElem?_eq_some_iff.1 hj
  simp [Sweep.steps, hlt]

/-- **While a sweep can do nothing**, it has not all answers, has cancelled all whom it waits
    for, and none of those is over or late. -/
theorem quiet_of_not_isReadyIn (hn : w.isReadyIn env k = false) (hs : w.sweeps[k]? = some s)
    (he : s.endedAt = none) (hd : s.drainedAt.isSome) :
    (∃ j ∈ s.joins, j.result = none) ∧ ∀ j ∈ s.joins, j.deadline.isSome ∧
      (j.result = none → w.isOverAt j.entry.member = false ∧ j.isOverdue w.now = false) := by
  have hnone : ∀ t ∈ s.steps, sweepStep env w k t = none := fun t =>
    step_eq_none_of_not_isReadyIn hn hs he
  constructor
  · by_contra hall
    have hset : s.isSettled := Sweep.isSettled_iff.2 ⟨hd, fun j hj => by
      by_contra hr
      exact hall ⟨j, hj, by simpa using hr⟩⟩
    have hrep := hnone .report (by simp [Sweep.steps])
    simp [sweepStep, hs, he, hset] at hrep
  · intro j hj
    obtain ⟨i, hi⟩ := List.mem_iff_getElem?.1 hj
    obtain ⟨hcancel, hstop, htime⟩ := mem_steps hi
    have hdue : j.deadline.isSome := by
      by_contra hdl
      have := hnone _ hcancel
      cases hm : w.members[j.entry.member]? <;> simp [sweepStep, hs, hi, hdl, hm] at this
    refine ⟨hdue, fun hr => ?_⟩
    have hwait : j.isWaiting = true := by simp [Join.isWaiting, hdue, hr]
    have hover : w.isOverAt j.entry.member = false := by
      by_contra ho
      have := hnone _ hstop
      simp only [sweepStep, hs, hi, Option.bind_eq_bind, Option.bind_some, hwait, true_and] at this
      rw [if_pos (by simpa [isOverAt] using ho)] at this
      cases this
    refine ⟨hover, ?_⟩
    by_contra hlate
    have := hnone _ htime
    simp only [sweepStep, hs, hi, Option.bind_eq_bind, Option.bind_some, hwait, true_and] at this
    rw [if_pos ⟨by simpa using hlate, by simpa [isOverAt] using hover⟩] at this
    cases this

end World

/-! ## A join on the clock -/

/-- How a join stands on the clock, whose sweep has drained the registry at `start` and whose
    time is up at `bound`; `early` says whether its member was over at the start, and `finish`
    when it was so first. -/
structure Join.Timed (start bound now : Nat) (early : Bool) (finish : Option Nat) (j : Join) :
    Prop where
  due : ∀ d, j.deadline = some d → d = bound
  fresh : j.deadline = none → now = start ∧ j.result = none
  waits : j.result = none → now ≤ bound ∧ ∀ t, finish = some t → t = now
  stopped : j.result = some .stopped → ∃ t, finish = some t ∧ t ≤ bound
  timedOut : j.result = some .timedOut → bound ≤ now ∧ early = false ∧
    ∀ t, finish = some t → bound ≤ t

namespace Join.Timed

variable {start bound now : Nat} {early b : Bool} {finish : Option Nat} {j : Join}

/-- Its member may be over now. -/
theorem look (h : j.Timed start bound now early finish) :
    j.Timed start bound now early (finish.or (if b then some now else none)) := by
  refine ⟨h.due, h.fresh, fun hr => ⟨(h.waits hr).1, fun t ht => ?_⟩, fun hr => ?_, fun hr => ?_⟩
  · rcases Option.or_eq_some_iff.1 ht with ht | ⟨-, ht⟩
    · exact (h.waits hr).2 t ht
    · simp only [Option.ite_none_right_eq_some, Option.some.injEq] at ht
      exact ht.2.symm
  · obtain ⟨t, ht, hle⟩ := h.stopped hr
    exact ⟨t, by simp [ht], hle⟩
  · obtain ⟨hle, he, hf⟩ := h.timedOut hr
    refine ⟨hle, he, fun t ht => ?_⟩
    rcases Option.or_eq_some_iff.1 ht with ht | ⟨-, ht⟩
    · exact hf t ht
    · simp only [Option.ite_none_right_eq_some, Option.some.injEq] at ht
      omega

theorem cancel {J : Nat} (h : j.Timed start bound now early finish) (hd : j.deadline = none)
    (hb : bound = start + J) :
    Join.Timed start bound now early finish { j with deadline := some (now + J) } := by
  obtain ⟨hnow, hr⟩ := h.fresh hd
  refine ⟨fun d hd => ?_, nofun, h.waits, h.stopped, h.timedOut⟩
  cases hd
  omega

theorem stop (h : j.Timed start bound now early finish) (hr : j.result = none)
    (hd : j.deadline.isSome) (ho : finish.isSome) :
    Join.Timed start bound now early finish { j with result := some .stopped } := by
  refine ⟨h.due, fun hn => ?_, nofun, fun _ => ?_, nofun⟩
  · rw [show j.deadline = none from hn] at hd
    cases hd
  · obtain ⟨t, ht⟩ := Option.isSome_iff_exists.1 ho
    have := h.waits hr
    exact ⟨t, ht, by rw [this.2 t ht]; exact this.1⟩

theorem giveUp (h : j.Timed start bound now early finish) (hd : j.deadline.isSome)
    (hlate : j.isOverdue now) (hf : finish = none) (he : early = false) :
    Join.Timed start bound now early finish { j with result := some .timedOut } := by
  obtain ⟨d, hd⟩ := Option.isSome_iff_exists.1 hd
  have hdue := h.due d hd
  have hle : d ≤ now := by simpa [Join.isOverdue, hd] using hlate
  refine ⟨h.due, fun hn => ?_, nofun, nofun, fun _ => ⟨by omega, he, fun t ht => ?_⟩⟩
  · rw [show j.deadline = none from hn] at hd
    cases hd
  · rw [hf] at ht
    cases ht

/-- Time passes, not beyond the bound of a join that waits. -/
theorem pass {ms : Nat} (h : j.Timed start bound now early finish) (hd : j.deadline.isSome)
    (hw : j.result = none → finish = none ∧ now + ms ≤ bound) :
    j.Timed start bound (now + ms) early finish := by
  refine ⟨h.due, fun hn => ?_, fun hr => ⟨(hw hr).2, fun t ht => ?_⟩, h.stopped, fun hr => ?_⟩
  · rw [hn] at hd
    cases hd
  · rw [(hw hr).1] at ht
    cases ht
  · obtain ⟨hle, he, hf⟩ := h.timedOut hr
    exact ⟨by omega, he, hf⟩

end Join.Timed

/-- How many steps a sweep still has before it, after its drain. -/
def Sweep.work (s : Sweep) : Nat :=
  s.joins.countP (·.deadline.isNone) + s.joins.countP (·.result.isNone) + s.endedAt.isNone.toNat

namespace World

variable {env : Environment} {w w' v : World} {a : Action} {as past rest : List Action}
  {m k i ms : Nat} {s s' : Sweep} {j : Join}

/-! ## A sweep on the clock -/

/-- When the joins give up of a sweep that drains the registry now. -/
def joinBound (env : Environment) (w : World) : Nat := w.now + env.settings.joinTimeout

/-- When a sweep that drained the registry in `v` is done with a member: when that is over,
    or at the bound if this comes first. -/
def waitEnd (env : Environment) (v : World) (as : List Action) (m : Nat) : Nat :=
  min ((finishTime env m v as).getD (v.joinBound env)) (v.joinBound env)

/-- When a sweep that drained these entries in `v` is to return. -/
def returnTime (env : Environment) (v : World) (as : List Action) (l : List (Nat × Entry)) : Nat :=
  (l.map fun p => waitEnd env v as p.2.member).foldr max v.now

theorem waitEnd_le : waitEnd env v as m ≤ v.joinBound env := Nat.min_le_right _ _

theorem returnTime_le {l : List (Nat × Entry)} {b : Nat} : returnTime env v as l ≤ b ↔
    v.now ≤ b ∧ ∀ p ∈ l, waitEnd env v as p.2.member ≤ b := by
  induction l with
  | nil => simp [returnTime]
  | cons p l ih =>
    rw [returnTime, List.map_cons, List.foldr_cons, ← returnTime, Nat.max_le, ih]
    simp only [List.mem_cons, forall_eq_or_imp]
    tauto

theorem waitEnd_le_returnTime {l : List (Nat × Entry)} {p : Nat × Entry} (hp : p ∈ l) :
    waitEnd env v as p.2.member ≤ returnTime env v as l :=
  (returnTime_le.1 (Nat.le_refl _)).2 p hp

/-- How the sweep `s`, which has drained the registry in `v`, stands on the clock in `w`, after
    the actions `as`. -/
structure OnClock (env : Environment) (v : World) (as : List Action) (w : World) (s : Sweep) :
    Prop where
  entries : s.entries = v.coordinator.registry
  drained : s.drainedAt.isSome
  joins : ∀ j ∈ s.joins, j.Timed v.now (v.joinBound env) w.now (v.isOverAt j.entry.member)
    (finishTime env j.entry.member v as)
  going : s.endedAt = none → w.now = v.now ∨
    ∃ p ∈ v.coordinator.registry, w.now ≤ waitEnd env v as p.2.member
  ended : ∀ t, s.endedAt = some t → s.isSettled ∧
    t = returnTime env v as v.coordinator.registry

namespace OnClock

theorem mem_registry (hC : OnClock env v as w s) (hj : j ∈ s.joins) :
    (j.id, j.entry) ∈ v.coordinator.registry := by
  rw [← hC.entries]
  exact List.mem_map_of_mem hj

theorem exists_join (hC : OnClock env v as w s) {p : Nat × Entry}
    (hp : p ∈ v.coordinator.registry) : ∃ j ∈ s.joins, (j.id, j.entry) = p := by
  rw [← hC.entries] at hp
  exact List.mem_map.1 hp

/-- Whoever a sweep waits for is over exactly if it has been so since the drain. -/
theorem isSome_finish (hC : OnClock env v as w s) (hv : run env {} past = some v)
    (hw : run env v as = some w) (hmono : isMonotone env v as = true) (hj : j ∈ s.joins) :
    (finishTime env j.entry.member v as).isSome = w.isOverAt j.entry.member := by
  obtain ⟨g, hg, -⟩ := (ledger_of_run hv).entry _ (hC.mem_registry hj)
  obtain ⟨x, hx, -⟩ := exists_of_registrations hg
  exact isSome_finishTime hv hw hmono hx

/-- The sweep has just drained the registry. -/
theorem drain (ha : step env v a = some w) (hp : ∀ ms, a ≠ .pass ms) :
    OnClock env v [a] w (.drain v.now v.coordinator.registry) := by
  have hnow := now_of_step ha hp
  refine ⟨Sweep.entries_drain _ _, rfl, fun j hj => ?_, fun _ => Or.inl hnow, nofun⟩
  obtain ⟨p, -, rfl⟩ := List.mem_map.1 hj
  refine ⟨nofun, fun _ => ⟨hnow, rfl⟩, fun _ => ⟨by rw [hnow]; exact Nat.le_add_right _ _, ?_⟩,
    nofun, nofun⟩
  intro t ht
  have := finishTime_bounds (run_cons.2 ⟨w, ha, rfl⟩) ht
  omega

/-- A step of the sweep itself. -/
theorem shift (hC : OnClock env v as w s) (hv : run env {} past = some v)
    (hw : run env v as = some w) (hmono : isMonotone env v as = true)
    (hsh : s.Shift env w k a s') : OnClock env v as w s' := by
  -- the sweep has not returned while one of its joins is not settled
  have hopen : ∀ j ∈ s.joins, j.result = none → s.endedAt = none := by
    intro j hj hr
    by_contra he
    obtain ⟨t, ht⟩ := Option.ne_none_iff_exists'.1 he
    have := (Sweep.isSettled_iff.1 (hC.ended t ht).1).2 j hj
    rw [hr] at this
    cases this
  -- to change one join is all that is to be looked at
  have hput : ∀ (i : Nat) (j j' : Join), s.joins[i]? = some j → j.result = none → j'.id = j.id →
      j'.entry = j.entry → j'.Timed v.now (v.joinBound env) w.now (v.isOverAt j.entry.member)
        (finishTime env j.entry.member v as) → OnClock env v as w (s.setJoin i j') := by
    intro i j j' hj hr hid hent hT
    have hnone := hopen j (List.mem_of_getElem? hj) hr
    refine ⟨(Sweep.entries_setJoin hj hid hent).trans hC.entries, hC.drained, fun t ht => ?_,
      hC.going, fun t ht => ?_⟩
    · rcases List.mem_or_eq_of_mem_set ht with ht | rfl
      · exact hC.joins t ht
      · rw [hent]
        exact hT
    · rw [show s.endedAt = some t from ht] at hnone
      cases hnone
  cases hsh with
  | same => exact hC
  | drain hn => exact absurd hC.drained (by simp [hn])
  | @cancel i j hj hd =>
    have hT := hC.joins j (List.mem_of_getElem? hj)
    exact hput i j _ hj (hT.fresh hd).2 rfl rfl (hT.cancel hd rfl)
  | @stopped i j hj hwait ho =>
    have hmem := List.mem_of_getElem? hj
    obtain ⟨hd, hr⟩ : j.deadline.isSome ∧ j.result = none := by simpa [Join.isWaiting] using hwait
    have hT := (hC.joins j hmem).stop hr hd (by rw [hC.isSome_finish hv hw hmono hmem]; exact ho)
    exact hput i j _ hj hr rfl rfl hT
  | @timedOut i j hj hwait hlate ho =>
    have hmem := List.mem_of_getElem? hj
    obtain ⟨hd, hr⟩ : j.deadline.isSome ∧ j.result = none := by simpa [Join.isWaiting] using hwait
    have hnone : finishTime env j.entry.member v as = none := by
      rw [← Option.not_isSome_iff_eq_none, hC.isSome_finish hv hw hmono hmem]
      simp [isOverAt, ho]
    have hearly : v.isOverAt j.entry.member = false := by
      by_contra ho
      rw [finishTime_of_isOverAt (by simpa using ho)] at hnone
      cases hnone
    exact hput i j _ hj hr rfl rfl ((hC.joins j hmem).giveUp hd hlate hnone hearly)
  | report hn hset =>
    refine ⟨hC.entries, hC.drained, hC.joins, fun he => (by cases he), fun t ht => ⟨hset, ?_⟩⟩
    cases ht
    have hfirst := now_le_of_run hw
    apply Nat.le_antisymm
    · rcases hC.going hn with hnow | ⟨p, hp, hle⟩
      · rw [hnow]
        exact (returnTime_le.1 (Nat.le_refl _)).1
      · exact Nat.le_trans hle (waitEnd_le_returnTime hp)
    · refine returnTime_le.2 ⟨hfirst, fun p hp => ?_⟩
      obtain ⟨j, hj, rfl⟩ := hC.exists_join hp
      have hT := hC.joins j hj
      obtain ⟨r, hr⟩ := Option.isSome_iff_exists.1 ((Sweep.isSettled_iff.1 hset).2 j hj)
      cases r with
      | stopped =>
        obtain ⟨t, ht, -⟩ := hT.stopped hr
        have := finishTime_bounds hw ht
        simp only [waitEnd, ht, Option.getD_some]
        omega
      | timedOut => exact Nat.le_trans waitEnd_le (hT.timedOut hr).1

/-- Who is settled is so at a time that does not change any more. -/
theorem waitEnd_concat (hC : OnClock env v as w s) (hw : run env v as = some w)
    (ha : step env w a = some w') (hset : s.isSettled) {p : Nat × Entry}
    (hp : p ∈ v.coordinator.registry) :
    waitEnd env v (as ++ [a]) p.2.member = waitEnd env v as p.2.member := by
  obtain ⟨j, hj, rfl⟩ := hC.exists_join hp
  have hT := hC.joins j hj
  have hle := now_le_of_step ha
  obtain ⟨r, hr⟩ := Option.isSome_iff_exists.1 ((Sweep.isSettled_iff.1 hset).2 j hj)
  rw [waitEnd, waitEnd, finishTime_concat hw ha]
  cases hf : finishTime env j.entry.member v as with
  | some t => rfl
  | none =>
    cases r with
    | stopped =>
      obtain ⟨t, ht, -⟩ := hT.stopped hr
      rw [hf] at ht
      cases ht
    | timedOut =>
      have := (hT.timedOut hr).1
      cases w'.isOverAt j.entry.member with
      | false => rfl
      | true =>
        simp only [Option.none_or, if_true, Option.getD_some, Option.getD_none]
        omega

theorem returnTime_concat (hC : OnClock env v as w s) (hw : run env v as = some w)
    (ha : step env w a = some w') (hset : s.isSettled) :
    returnTime env v (as ++ [a]) v.coordinator.registry =
      returnTime env v as v.coordinator.registry := by
  unfold returnTime
  rw [List.map_congr_left fun p hp => hC.waitEnd_concat hw ha hset hp]

/-- An action that takes no time, after which members may be over. -/
theorem look (hC : OnClock env v as w s) (hw : run env v as = some w)
    (ha : step env w a = some w') (hnow : w'.now = w.now) :
    OnClock env v (as ++ [a]) w' s := by
  refine ⟨hC.entries, hC.drained, fun j hj => ?_, fun he => ?_, fun t ht => ?_⟩
  · rw [finishTime_concat hw ha, hnow]
    exact (hC.joins j hj).look
  · rw [hnow]
    rcases hC.going he with hstart | ⟨p, hp, hle⟩
    · exact Or.inl hstart
    · refine Or.inr ⟨p, hp, ?_⟩
      have hbound := Nat.le_trans hle waitEnd_le
      unfold waitEnd at hle ⊢
      rw [finishTime_concat hw ha, hnow]
      cases hf : finishTime env p.2.member v as with
      | some t => simpa [hf] using hle
      | none => cases w'.isOverAt p.2.member <;> simpa using hbound
  · obtain ⟨hset, rfl⟩ := hC.ended t ht
    exact ⟨hset, (hC.returnTime_concat hw ha hset).symm⟩

/-- Time passes while the sweep can do nothing. -/
theorem pass (hC : OnClock env v as w s) (hv : run env {} past = some v)
    (hw : run env v as = some w) (hmono : isMonotone env v as = true)
    (hs : w.sweeps[k]? = some s) (hp : w.mayPassIn env k ms = true) :
    OnClock env v (as ++ [Action.pass ms]) { w with now := w.now + ms } s := by
  have ha : step env w (.pass ms) = some { w with now := w.now + ms } := rfl
  simp only [mayPassIn, hs, Option.all_some, Bool.and_eq_true, Bool.not_eq_true', List.all_eq_true,
    Bool.or_eq_true, decide_eq_true_eq] at hp
  obtain ⟨hready, htimes⟩ := hp
  -- nobody comes to be over while time passes
  have hfinish : ∀ j ∈ s.joins, finishTime env j.entry.member v (as ++ [Action.pass ms]) =
      finishTime env j.entry.member v as := by
    intro j hj
    rw [finishTime_concat hw ha]
    cases hf : finishTime env j.entry.member v as with
    | some t => rfl
    | none =>
      have hno : w.isOverAt j.entry.member = false := by
        rw [← hC.isSome_finish hv hw hmono hj, hf]
        rfl
      rw [show isOverAt { w with now := w.now + ms } j.entry.member = false from hno]
      rfl
  -- whoever is waited for is not over, and its bound is not passed
  have hwait : s.endedAt = none → ∀ j ∈ s.joins, j.result = none →
      finishTime env j.entry.member v as = none ∧ w.now + ms ≤ v.joinBound env := by
    intro he j hj hr
    obtain ⟨hdue, hq⟩ := (quiet_of_not_isReadyIn hready hs he hC.drained).2 j hj
    obtain ⟨hno, hlate⟩ := hq hr
    obtain ⟨d, hd⟩ := Option.isSome_iff_exists.1 hdue
    have hmem : d ∈ s.times :=
      List.mem_filterMap.2 ⟨j, hj, by simp [Join.isWaiting, hd, hr]⟩
    have hlt : w.now < d := by simpa [Join.isOverdue, hd] using hlate
    have hdb := (hC.joins j hj).due d hd
    refine ⟨?_, by have := htimes d hmem; omega⟩
    rw [← Option.not_isSome_iff_eq_none, hC.isSome_finish hv hw hmono hj, hno]
    exact Bool.false_ne_true
  refine ⟨hC.entries, hC.drained, fun j hj => ?_, fun he => ?_, fun t ht => ?_⟩
  · rw [hfinish j hj]
    cases he : s.endedAt with
    | none =>
      exact (hC.joins j hj).pass ((quiet_of_not_isReadyIn hready hs he hC.drained).2 j hj).1
        (hwait he j hj)
    | some t =>
      have hres := (Sweep.isSettled_iff.1 (hC.ended t he).1).2 j hj
      refine (hC.joins j hj).pass ?_ fun hr => ?_
      · by_contra hd
        rw [((hC.joins j hj).fresh (by simpa using hd)).2] at hres
        cases hres
      · rw [hr] at hres
        cases hres
  · obtain ⟨j, hj, hr⟩ := (quiet_of_not_isReadyIn hready hs he hC.drained).1
    obtain ⟨hnone, hle⟩ := hwait he j hj hr
    refine Or.inr ⟨_, hC.mem_registry hj, ?_⟩
    rw [waitEnd, hfinish j hj, hnone, Option.getD_none, Nat.min_self]
    exact hle
  · obtain ⟨hset, rfl⟩ := hC.ended t ht
    exact ⟨hset, (hC.returnTime_concat hw ha hset).symm⟩

end OnClock

/-- **A sweep stands on the clock from its drain on**, in every run that is prompt as far as
    it is concerned. -/
theorem onClock_of_play (hv : run env {} past = some v)
    (hplay : playIn env k v (.sweepStep k .drain :: rest) = some w)
    (hmono : isMonotone env v (.sweepStep k .drain :: rest) = true) :
    ∃ s, w.sweeps[k]? = some s ∧ OnClock env v (.sweepStep k .drain :: rest) w s := by
  obtain ⟨u, hu, hrest⟩ := playBy_cons.1 hplay
  have hdrain : sweepStep env v k .drain = some u := step_of_promptBy hu
  refine foldlM_induction (P := fun rest w =>
    isMonotone env v (.sweepStep k .drain :: rest) = true → ∃ s, w.sweeps[k]? = some s ∧
      OnClock env v (.sweepStep k .drain :: rest) w s) ?_ ?_ hrest hmono
  · intro _
    have hC := OnClock.drain (step_of_promptBy hu) nofun
    cases sweepTurn_of_sweepStep hdrain with
    | drain log hs hd =>
      obtain ⟨hlt, -⟩ := List.getElem?_eq_some_iff.1 hs
      exact ⟨_, by simp [hlt], hC⟩
  · intro bs a w w' hbs ih ha hmono
    have hw : run env v (.sweepStep k .drain :: bs) = some w :=
      run_of_playBy (playBy_cons.2 ⟨u, hu, hbs⟩)
    rw [← List.cons_append, isMonotone_concat hw, Bool.and_eq_true] at hmono
    obtain ⟨s, hs, hC⟩ := ih hmono.1
    have hstep := step_of_promptBy ha
    by_cases hp : ∃ ms, a = .pass ms
    · obtain ⟨ms, rfl⟩ := hp
      obtain ⟨hpass, rfl⟩ := may_of_promptBy ha
      exact ⟨s, hs, hC.pass hv hw hmono.1 hs hpass⟩
    · obtain ⟨s', hs', hsh⟩ := (effect_of_step hstep).sweep_shift hs
      have hnow := now_of_step hstep (not_exists.1 hp)
      exact ⟨s', hs', (hC.shift hv hw hmono.1 hsh).look hw hstep hnow⟩

/-! ## A sweep can always return -/

/-- **Each step of a sweep uses up some of what is before it.** -/
theorem work_lt_of_step {t : SweepStep} (hs : w.sweeps[k]? = some s) (hd : s.drainedAt.isSome)
    (ha : sweepStep env w k t = some w') :
    ∃ s', w'.sweeps[k]? = some s' ∧ s'.drainedAt.isSome ∧ s'.work < s.work := by
  obtain ⟨hlt, -⟩ := List.getElem?_eq_some_iff.1 hs
  have hset : ∀ (i : Nat) (j j' : Join), s.joins[i]? = some j →
      j'.deadline.isNone.toNat + j'.result.isNone.toNat <
        j.deadline.isNone.toNat + j.result.isNone.toNat → (s.setJoin i j').work < s.work := by
    intro i j j' hj hless
    have h1 := countP_set_add (p := fun j : Join => j.deadline.isNone) (b := j') hj
    have h2 := countP_set_add (p := fun j : Join => j.result.isNone) (b := j') hj
    simp only [Sweep.work, Sweep.setJoin]
    omega
  cases sweepTurn_of_sweepStep ha with
  | drain log hk hn =>
    rw [hs] at hk
    cases hk
    rw [hn] at hd
    cases hd
  | @cancel i s₀ j hk hj hn =>
    rw [hs] at hk
    cases hk
    exact ⟨_, List.getElem?_set_self hlt, hd, hset i j _ hj (by simp [hn])⟩
  | @stopped i s₀ j hk hj hwait _ =>
    rw [hs] at hk
    cases hk
    simp only [Join.isWaiting, Bool.and_eq_true] at hwait
    exact ⟨_, List.getElem?_set_self hlt, hd, hset i j _ hj (by simp [hwait.2])⟩
  | @timedOut i s₀ j log hk hj hwait _ _ =>
    rw [hs] at hk
    cases hk
    simp only [Join.isWaiting, Bool.and_eq_true] at hwait
    exact ⟨_, List.getElem?_set_self hlt, hd, hset i j _ hj (by simp [hwait.2])⟩
  | report log hk hn _ =>
    rw [hs] at hk
    cases hk
    exact ⟨_, List.getElem?_set_self hlt, hd, by simp [Sweep.work, hn]⟩

/-- An action of the sweep itself, or time. -/
def IsOwn (k : Nat) (a : Action) : Prop := (∃ ms, a = .pass ms) ∨ ∃ t, a = .sweepStep k t

/-- Time can go on until a sweep that has not returned can do something. -/
theorem exists_ready (env : Environment) (hs : w.sweeps[k]? = some s) (hd : s.drainedAt.isSome)
    (he : s.endedAt = none) : ∃ bs w', playIn env k w bs = some w' ∧ (∀ b ∈ bs, IsOwn k b) ∧
      w'.sweeps = w.sweeps ∧ w'.isReadyIn env k = true := by
  -- by induction on how far the bound of one join is away
  have aux : ∀ (gap : Nat) (w : World), w.sweeps[k]? = some s →
      (∃ j ∈ s.joins, j.result = none ∧ ∀ d, j.deadline = some d → d ≤ w.now + gap) →
      ∃ bs w', playIn env k w bs = some w' ∧ (∀ b ∈ bs, IsOwn k b) ∧ w'.sweeps = w.sweeps ∧
        w'.isReadyIn env k = true := by
    intro gap
    induction gap with
    | zero =>
      rintro w hs ⟨j, hj, hr, hle⟩
      cases hready : w.isReadyIn env k with
      | true => exact ⟨[], w, rfl, nofun, rfl, hready⟩
      | false =>
        obtain ⟨hdue, hq⟩ := (quiet_of_not_isReadyIn hready hs he hd).2 j hj
        obtain ⟨d, hdl⟩ := Option.isSome_iff_exists.1 hdue
        have hlate := (hq hr).2
        have := hle d hdl
        simp [Join.isOverdue, hdl] at hlate
        omega
    | succ gap ih =>
      rintro w hs ⟨j, hj, hr, hle⟩
      cases hready : w.isReadyIn env k with
      | true => exact ⟨[], w, rfl, nofun, rfl, hready⟩
      | false =>
        have hpass : w.mayPassIn env k 1 = true := by
          simp only [mayPassIn, hready, Bool.not_false, Bool.true_and, Option.all_eq_true,
            List.all_eq_true, Bool.or_eq_true, decide_eq_true_eq]
          intro s _ t _
          omega
        obtain ⟨bs, w', hplay, hown, hsw, hready'⟩ := ih { w with now := w.now + 1 } hs
          ⟨j, hj, hr, fun d hdl => by have := hle d hdl; simp; omega⟩
        refine ⟨[.pass 1] ++ bs, w', playBy_append.2 ⟨_, playBy_pass hpass, hplay⟩, ?_, hsw,
          hready'⟩
        intro b hb
        rcases List.mem_append.1 hb with hb | hb
        · exact Or.inl ⟨1, List.mem_singleton.1 hb⟩
        · exact hown b hb
  cases hready : w.isReadyIn env k with
  | true => exact ⟨[], w, rfl, nofun, rfl, hready⟩
  | false =>
    obtain ⟨⟨j, hj, hr⟩, -⟩ := quiet_of_not_isReadyIn hready hs he hd
    refine aux (j.deadline.getD 0) w hs ⟨j, hj, hr, fun d hdl => ?_⟩
    simp [hdl]

/-- **A sweep that has drained the registry can always return**, by its own steps. -/
theorem exists_return (env : Environment) (hs : w.sweeps[k]? = some s)
    (hd : s.drainedAt.isSome) : ∃ bs w' s', playIn env k w bs = some w' ∧ (∀ b ∈ bs, IsOwn k b) ∧
      w'.sweeps[k]? = some s' ∧ s'.endedAt.isSome := by
  induction hn : s.work using Nat.strong_induction_on generalizing w s with
  | _ n ih =>
    cases he : s.endedAt with
    | some t => exact ⟨[], w, s, rfl, nofun, hs, by simp [he]⟩
    | none =>
      obtain ⟨bs, u, hbs, hown, hsw, hready⟩ := exists_ready env hs hd he
      have hsu : u.sweeps[k]? = some s := by rw [hsw, hs]
      simp only [isReadyIn, hsu, Option.any_some, Bool.and_eq_true, List.any_eq_true] at hready
      obtain ⟨-, t, -, hsome⟩ := hready
      obtain ⟨u', hu'⟩ := Option.isSome_iff_exists.1 hsome
      obtain ⟨s', hs', hd', hless⟩ := work_lt_of_step hsu hd hu'
      obtain ⟨cs, w', s'', hcs, hown', hs'', hend⟩ := ih s'.work (hn ▸ hless) hs' hd' rfl
      refine ⟨bs ++ .sweepStep k t :: cs, w', s'', playBy_append.2 ⟨u, hbs, playBy_cons.2
        ⟨u', promptBy_of_step nofun hu', hcs⟩⟩, fun b hb => ?_, hs'', hend⟩
      rcases List.mem_append.1 hb with hb | hb
      · exact hown b hb
      · rcases List.mem_cons.1 hb with rfl | hb
        · exact Or.inr ⟨t, rfl⟩
        · exact hown' b hb

end World

end Supervisor
