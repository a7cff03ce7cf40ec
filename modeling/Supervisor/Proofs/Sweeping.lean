/-
  No runner escapes a sweep.

  * `World.Pending w id m`: a sweep has taken the entry `id` of the member `m`
    out of the registry, and is still to cancel it;
  * `Unregistered env as id`: in the run `as` somebody named the id while it was
    in the registry;
  * `Accounted`: whoever has entered the registry is still there, was
    unregistered, is cancelled, or is about to be;
  * `no_straggler`: once a sweep has drained the registry it is empty for good,
    and nobody whose registration has returned is left out.
-/
import Supervisor.Proofs.Later
import Supervisor.Proofs.Ledger

namespace Supervisor

/-! ## Sweeps -/

/-- What a sweep has done so far, with the members `ms`. -/
structure Sweep.Sound (ms : List Member) (s : Sweep) : Prop where
  undrained : s.drainedAt = none → s.joins = []
  answered : ∀ j ∈ s.joins, j.result.isSome → j.deadline.isSome
  cancelled : ∀ j ∈ s.joins, j.deadline.isSome → ∃ x, ms[j.entry.member]? = some x ∧ x.cancel = true
  ended : s.endedAt.isSome → s.isSettled

theorem Sweep.isSettled_iff {s : Sweep} :
    s.isSettled ↔ s.drainedAt.isSome ∧ ∀ j ∈ s.joins, j.result.isSome := by
  simp [isSettled]

theorem Sweep.Sound.drain {ms : List Member} (now : Nat) (registry : List (Nat × Entry)) :
    (Sweep.drain now registry).Sound ms := by
  have hnew : ∀ j ∈ (Sweep.drain now registry).joins, j.deadline = none ∧ j.result = none := by
    intro j hj
    obtain ⟨p, -, rfl⟩ := List.mem_map.1 hj
    exact ⟨rfl, rfl⟩
  refine ⟨nofun, fun j hj hr => ?_, fun j hj hd => ?_, nofun⟩
  · rw [(hnew j hj).2] at hr; cases hr
  · rw [(hnew j hj).1] at hd; cases hd

/-- A join that is not settled yet goes on, in a sweep that has not returned. -/
theorem Sweep.Sound.setJoin {ms : List Member} {s : Sweep} {i : Nat} {j j' : Join}
    (hS : s.Sound ms) (hj : s.joins[i]? = some j) (hn : j.result = none)
    (hd : j'.deadline.isSome)
    (hc : ∃ x, ms[j'.entry.member]? = some x ∧ x.cancel = true) : (s.setJoin i j').Sound ms := by
  have hmem := List.mem_of_getElem? hj
  refine ⟨fun hu => ?_, fun t ht hr => ?_, fun t ht htd => ?_, fun he => ?_⟩
  · rw [hS.undrained hu] at hmem; cases hmem
  · rcases List.mem_or_eq_of_mem_set ht with ht | rfl
    · exact hS.answered t ht hr
    · exact hd
  · rcases List.mem_or_eq_of_mem_set ht with ht | rfl
    · exact hS.cancelled t ht htd
    · exact hc
  · have := (Sweep.isSettled_iff.1 (hS.ended he)).2 j hmem
    rw [hn] at this
    cases this

/-- A join that waits is settled. -/
theorem Sweep.Sound.settle {ms : List Member} {s : Sweep} {i : Nat} {j : Join} {r : JoinResult}
    (hS : s.Sound ms) (hj : s.joins[i]? = some j) (hw : j.isWaiting) :
    (s.setJoin i { j with result := some r }).Sound ms := by
  simp only [Join.isWaiting, Bool.and_eq_true, Option.isNone_iff_eq_none] at hw
  exact hS.setJoin hj hw.2 hw.1 (hS.cancelled j (List.mem_of_getElem? hj) hw.1)

/-- What a sweep has taken out of the registry it keeps. -/
theorem Sweep.Shift.entries {env : Environment} {w : World} {k : Nat} {s s' : Sweep} {a : Action}
    (h : s.Shift env w k a s') (hd : s.drainedAt.isSome) :
    s'.drainedAt.isSome ∧ s'.entries = s.entries := by
  cases h with
  | same => exact ⟨hd, rfl⟩
  | drain hn => rw [hn] at hd; cases hd
  | cancel hj _ => exact ⟨hd, Sweep.entries_setJoin hj rfl rfl⟩
  | stopped hj _ _ => exact ⟨hd, Sweep.entries_setJoin hj rfl rfl⟩
  | timedOut hj _ _ _ => exact ⟨hd, Sweep.entries_setJoin hj rfl rfl⟩
  | report _ _ => exact ⟨hd, rfl⟩

namespace World

variable {env : Environment} {w w' : World} {a : Action} {as : List Action}

/-- A sweep has taken the entry `id` of the member `m` out of the registry, and
    is still to cancel it. -/
def Pending (w : World) (id m : Nat) : Prop :=
  ∃ (k i : Nat) (s : Sweep) (j : Join), w.sweeps[k]? = some s ∧ s.joins[i]? = some j ∧
    j.id = id ∧ j.entry.member = m ∧ j.deadline = none

/-- Somebody named the id while it was in the registry. -/
def Unregistered (env : Environment) (as : List Action) (id : Nat) : Prop :=
  ∃ past a v e, Took env as past a v ∧ v.unregisters a = some id ∧
    (id, e) ∈ v.coordinator.registry

theorem Unregistered.concat {id : Nat} (h : Unregistered env as id) :
    Unregistered env (as ++ [a]) id := by
  obtain ⟨past, b, v, e, ht, hu, he⟩ := h
  exact ⟨past, b, v, e, ht.concat, hu, he⟩

/-- A cancelled member stays cancelled. -/
theorem cancelled_of_step (h : run env {} as = some w) (ha : step env w a = some w') {m : Nat}
    (hx : ∃ x, w.members[m]? = some x ∧ x.cancel = true) :
    ∃ x, w'.members[m]? = some x ∧ x.cancel = true := by
  obtain ⟨x, hx, hc⟩ := hx
  obtain ⟨x', hx', hs⟩ := (effect_of_step ha).shift hx
  exact ⟨x', hx', (hs.later (sound_of_run h hx)).cancel hc⟩

/-- The member of a join that is cancelled now. -/
theorem cancelled_of_cancel (h : run env {} as = some w) {k i : Nat} {s : Sweep} {j : Join}
    (hs : w.sweeps[k]? = some s) (hj : s.joins[i]? = some j) :
    ∃ x, (w.members.modify j.entry.member fun x => { x with cancel := true })[j.entry.member]? =
      some x ∧ x.cancel = true := by
  obtain ⟨x, hx, -⟩ := exists_member_of_join h hs hj
  exact ⟨{ x with cancel := true }, by simp [hx], rfl⟩

/-- **Sweeps do what they should**, in every run. -/
theorem sweep_sound_of_run (h : run env {} as = some w) :
    ∀ (k : Nat) (s : Sweep), w.sweeps[k]? = some s → s.Sound w.members := by
  refine run_induction (P := fun _ w => ∀ (k : Nat) (s : Sweep),
    w.sweeps[k]? = some s → s.Sound w.members) ?_ ?_ h
  · intro k s hs
    simp at hs
  · intro as a w w' hw ih ha k s' hs'
    have keep : ∀ (k : Nat) (s : Sweep), w.sweeps[k]? = some s → s.Sound w'.members := fun k s hs =>
      { ih k s hs with cancelled := fun j hj hd =>
          cancelled_of_step hw ha ((ih k s hs).cancelled j hj hd) }
    cases effect_of_step ha with
    | sweep =>
      rcases getElem?_concat_cases hs' with hs | ⟨-, rfl⟩
      · exact keep k s' hs
      · exact ⟨fun _ => rfl, nofun, nofun, nofun⟩
    | drain log hs hd =>
      rcases getElem?_set_cases hs' with ⟨-, rfl⟩ | ⟨-, hs'⟩
      · exact .drain _ _
      · exact keep k s' hs'
    | cancel hs hj hd =>
      rcases getElem?_set_cases hs' with ⟨-, rfl⟩ | ⟨-, hs'⟩
      · have hS := keep _ _ hs
        refine hS.setJoin hj ?_ rfl (cancelled_of_cancel hw hs hj)
        by_contra hr
        have := hS.answered _ (List.mem_of_getElem? hj) (Option.isSome_iff_ne_none.2 hr)
        rw [hd] at this
        cases this
      · exact keep k s' hs'
    | stopped hs hj hwait _ =>
      rcases getElem?_set_cases hs' with ⟨-, rfl⟩ | ⟨-, hs'⟩
      · exact (keep _ _ hs).settle hj hwait
      · exact keep k s' hs'
    | timedOut log hs hj hwait _ _ =>
      rcases getElem?_set_cases hs' with ⟨-, rfl⟩ | ⟨-, hs'⟩
      · exact (keep _ _ hs).settle hj hwait
      · exact keep k s' hs'
    | report log hs _ hset =>
      rcases getElem?_set_cases hs' with ⟨-, rfl⟩ | ⟨-, hs'⟩
      · exact { keep _ _ hs with ended := fun _ => hset }
      · exact keep k s' hs'
    | _ => exact keep k s' hs'

/-! ## Nobody is lost -/

/-- An entry stays in the registry, unless its id is named or a sweep takes
    it. -/
theorem registry_keep (he : Effect env w a w') {id : Nat} {e : Entry}
    (hp : (id, e) ∈ w.coordinator.registry) :
    (id, e) ∈ w'.coordinator.registry ∨ w.unregisters a = some id ∨ w'.Pending id e.member := by
  cases he with
  | turn pid log hx ht =>
    rcases ht.enrolment hx with ⟨-, -, rfl | ⟨n, hn, rfl⟩⟩ | ⟨b, hm, -⟩
    · exact Or.inl hp
    · by_cases hid : id = n
      · subst hid
        exact Or.inr (Or.inl hn)
      · exact Or.inl (List.mem_filter.2 ⟨hp, by simpa using hid⟩)
    · exact Or.inl (Ledger.mem_registry_move hm hp)
  | unregister n =>
    by_cases hid : id = n
    · subst hid
      exact Or.inr (Or.inl rfl)
    · exact Or.inl (List.mem_filter.2 ⟨hp, by simpa using hid⟩)
  | @drain k s log hs hd =>
    obtain ⟨i, hi⟩ := List.mem_iff_getElem?.1 hp
    obtain ⟨hlt, -⟩ := List.getElem?_eq_some_iff.1 hs
    refine Or.inr (Or.inr ⟨k, i, .drain w.now w.coordinator.registry, { id, entry := e }, ?_, ?_,
      rfl, rfl, rfl⟩)
    · simp only [List.getElem?_set, if_true, hlt]
    · simp [Sweep.drain, hi]
  | _ => exact Or.inl hp

/-- An entry that is still to be cancelled stays so, until it is. -/
theorem pending_keep (h : run env {} as = some w) (ha : step env w a = some w') {id m : Nat}
    (hp : w.Pending id m) :
    w'.Pending id m ∨ ∃ x, w'.members[m]? = some x ∧ x.cancel = true := by
  obtain ⟨k, i, s, j, hs, hj, rfl, rfl, hn⟩ := hp
  have hS := sweep_sound_of_run h k s hs
  obtain ⟨hlt, -⟩ := List.getElem?_eq_some_iff.1 hs
  -- a step of the sweep itself leaves the join alone, unless it is about it
  have hset : ∀ (n : Nat) (t t' : Sweep), w.sweeps[n]? = some t →
      (t = s → t'.joins[i]? = some j) → ∀ v : World, v.sweeps = w.sweeps.set n t' →
      v.Pending j.id j.entry.member := by
    intro n t t' ht hkeep v hv
    by_cases hk : n = k
    · subst hk
      rw [hs] at ht
      cases ht
      exact ⟨n, i, t', j, by simp [hv, hlt], hkeep rfl, rfl, rfl, hn⟩
    · exact ⟨k, i, s, j, by rw [hv, List.getElem?_set_ne hk, hs], hj, rfl, rfl, hn⟩
  -- a join that waits is cancelled, so it is another one
  have hother : ∀ (i' : Nat) (j' : Join), s.joins[i']? = some j' → j'.isWaiting → i' ≠ i := by
    rintro i' j' hj' hw rfl
    rw [hj] at hj'
    cases hj'
    simp [Join.isWaiting, hn] at hw
  cases effect_of_step ha with
  | sweep =>
    exact Or.inl ⟨k, i, s, j, (List.getElem?_append_left hlt).trans hs, hj, rfl, rfl, hn⟩
  | drain log ht hd =>
    refine Or.inl (hset _ _ _ ht (fun hts => ?_) _ rfl)
    subst hts
    rw [hS.undrained hd] at hj
    cases hj
  | @cancel n i' t j' ht hj' hd =>
    by_cases hji : t = s ∧ i' = i
    · obtain ⟨rfl, rfl⟩ := hji
      rw [hj] at hj'
      cases hj'
      exact Or.inr (cancelled_of_cancel h hs hj)
    · refine Or.inl (hset _ _ _ ht (fun hts => ?_) _ rfl)
      subst hts
      rw [Sweep.setJoin, List.getElem?_set_ne (fun hi => hji ⟨rfl, hi⟩), hj]
  | @stopped n i' t j' ht hj' hw _ =>
    refine Or.inl (hset _ _ _ ht (fun hts => ?_) _ rfl)
    subst hts
    rw [Sweep.setJoin, List.getElem?_set_ne (hother i' j' hj' hw), hj]
  | @timedOut n i' t j' log ht hj' hw _ _ =>
    refine Or.inl (hset _ _ _ ht (fun hts => ?_) _ rfl)
    subst hts
    rw [Sweep.setJoin, List.getElem?_set_ne (hother i' j' hj' hw), hj]
  | report log ht _ _ =>
    exact Or.inl (hset _ _ _ ht (fun hts => by subst hts; exact hj) _ rfl)
  | _ => exact Or.inl ⟨k, i, s, j, hs, hj, rfl, rfl, hn⟩

/-- Whoever has entered the registry now had done so before, or goes in now, or
    is cancelled. -/
theorem entered_back (he : Effect env w a w') {m id : Nat} {x' : Member}
    (hx' : w'.members[m]? = some x') (hent : x'.registration.HasEntered id) :
    (∃ x, w.members[m]? = some x ∧ x.registration.HasEntered id) ∨
      (∃ e, e.member = m ∧ (id, e) ∈ w'.coordinator.registry) ∨ x'.cancel = true := by
  rcases he.registration_back hx' with hidle | ⟨x, hx, hreg⟩ | ⟨x, b, hx, hc, hm⟩
  · rw [hidle] at hent
    cases hent.id?
  · rw [hreg] at hent
    exact Or.inl ⟨x, hx, hent⟩
  · rcases hm.entered_back hent with hent | hin | ⟨-, rfl⟩
    · exact Or.inl ⟨x, hx, hent⟩
    · exact Or.inr (Or.inl ⟨⟨x.label, m⟩, rfl, hin⟩)
    · exact Or.inr (Or.inr (by simpa using hc))

/-- What has become of the entry `id` of the member `x` at the place `m`: it is
    in the registry, was unregistered, is cancelled, or is about to be. -/
def Accounted (env : Environment) (as : List Action) (w : World) (m id : Nat) (x : Member) :
    Prop :=
  (∃ e, e.member = m ∧ (id, e) ∈ w.coordinator.registry) ∨ Unregistered env as id ∨
    x.cancel = true ∨ w.Pending id m

/-- **Whoever has entered the registry is accounted for.** -/
theorem accounted_of_run (h : run env {} as = some w) {m id : Nat} {x : Member}
    (hx : w.members[m]? = some x) (hent : x.registration.HasEntered id) :
    Accounted env as w m id x := by
  refine run_induction (P := fun as w => ∀ (m id : Nat) (x : Member), w.members[m]? = some x →
    x.registration.HasEntered id → Accounted env as w m id x) ?_ ?_ h m id x hx hent
  · intro m id x hx
    simp at hx
  · intro as a w w' hw ih ha m id x' hx' hent'
    have he := effect_of_step ha
    have hcancel : (∃ y, w'.members[m]? = some y ∧ y.cancel = true) → x'.cancel = true := by
      rintro ⟨y, hy, hc⟩
      rw [hx'] at hy
      cases hy
      exact hc
    rcases entered_back he hx' hent' with ⟨x, hx, hent⟩ | hin | hc
    · rcases ih m id x hx hent with ⟨e, rfl, hp⟩ | hu | hc | hp
      · rcases registry_keep he hp with hp' | hu | hp'
        · exact Or.inl ⟨e, rfl, hp'⟩
        · exact Or.inr (Or.inl ⟨as, a, w, e, Took.last a hw, hu, hp⟩)
        · exact Or.inr (Or.inr (Or.inr hp'))
      · exact Or.inr (Or.inl hu.concat)
      · exact Or.inr (Or.inr (Or.inl (hcancel (cancelled_of_step hw ha ⟨x, hx, hc⟩))))
      · rcases pending_keep hw ha hp with hp' | hc
        · exact Or.inr (Or.inr (Or.inr hp'))
        · exact Or.inr (Or.inr (Or.inl (hcancel hc)))
    · exact Or.inl hin
    · exact Or.inr (Or.inr (Or.inl hc))

/-- A sweep that has drained the registry did so at a moment, and keeps what
    was in there. -/
theorem drained_of_run (h : run env {} as = some w) {k : Nat} {s : Sweep}
    (hs : w.sweeps[k]? = some s) (hd : s.drainedAt.isSome) :
    ∃ past v, Took env as past (.sweepStep k .drain) v ∧ s.entries = v.coordinator.registry := by
  refine run_induction (P := fun as w => ∀ (k : Nat) (s : Sweep), w.sweeps[k]? = some s →
    s.drainedAt.isSome → ∃ past v, Took env as past (.sweepStep k .drain) v ∧
      s.entries = v.coordinator.registry) ?_ ?_ h k s hs hd
  · intro k s hs
    simp at hs
  · intro as a w w' hw ih ha k s' hs' hd'
    rcases (effect_of_step ha).sweep_back hs' with ⟨s, hs, hsh⟩ | ⟨-, -, rfl⟩
    · cases hd : s.drainedAt.isSome with
      | true =>
        obtain ⟨past, v, ht, hent⟩ := ih k s hs hd
        exact ⟨past, v, ht.concat, (hsh.entries hd).2.trans hent⟩
      | false =>
        cases hsh with
        | drain _ => exact ⟨as, w, Took.last _ hw, Sweep.entries_drain _ _⟩
        | _ => exact absurd (hd.symm.trans hd') nofun
    · cases hd'

/-- A sweep that has drained the registry is there later on. -/
theorem drained_later {bs : List Action} (hd : ∃ s ∈ w.sweeps, s.drainedAt.isSome)
    (h : run env w bs = some w') : ∃ s ∈ w'.sweeps, s.drainedAt.isSome := by
  refine run_induction (P := fun _ w' => ∃ s ∈ w'.sweeps, s.drainedAt.isSome) hd ?_ h
  rintro bs a v v' - ⟨s, hs, hds⟩ ha
  obtain ⟨k, hk⟩ := List.mem_iff_getElem?.1 hs
  obtain ⟨s', hs', hsh⟩ := (effect_of_step ha).sweep_shift hk
  exact ⟨s', List.mem_of_getElem? hs', (hsh.entries hds).1⟩

/-- **No runner escapes a sweep.**  Once some sweep has drained the registry, it
    is empty for good; whoever has registered was unregistered, is cancelled, or
    is held by a sweep that is about to cancel it; and all that a sweep which has
    returned took out of the registry is cancelled. -/
theorem no_straggler (h : run env {} as = some w) (hd : ∃ s ∈ w.sweeps, s.drainedAt.isSome) :
    (∀ bs w', run env w bs = some w' → w'.coordinator.registry = []) ∧
    (∀ (m id : Nat) (x : Member), w.members[m]? = some x → x.registration = .settled id →
      Unregistered env as id ∨ x.cancel = true ∨ w.Pending id m) ∧
    (∀ (k : Nat) (s : Sweep), w.sweeps[k]? = some s → s.endedAt.isSome →
      ∃ past v, Took env as past (.sweepStep k .drain) v ∧ s.entries = v.coordinator.registry ∧
        ∀ p ∈ s.entries, ∃ x, w.members[p.2.member]? = some x ∧ x.cancel = true) := by
  refine ⟨fun bs w' h' => ?_, fun m id x hx hset => ?_, fun k s hs hend => ?_⟩
  · obtain ⟨s, hs, hds⟩ := drained_later hd h'
    exact (ledger_of_run (run_append_eq_some.2 ⟨w, h, h'⟩)).drained s hs hds
  · obtain ⟨s, hs, hds⟩ := hd
    rcases accounted_of_run h hx (Or.inr (Or.inr hset)) with ⟨e, -, he⟩ | hacc
    · rw [(ledger_of_run h).drained s hs hds] at he
      cases he
    · exact hacc
  · have hS := sweep_sound_of_run h k s hs
    obtain ⟨hdrained, hres⟩ := Sweep.isSettled_iff.1 (hS.ended hend)
    obtain ⟨past, v, ht, hent⟩ := drained_of_run h hs hdrained
    refine ⟨past, v, ht, hent, fun p hp => ?_⟩
    obtain ⟨j, hj, rfl⟩ := List.mem_map.1 hp
    exact hS.cancelled j hj (hS.answered j hj (hres j hj))

/-- Two guests register.  A third takes its id, and a sweep begins and drains
    the registry before the third can test the flag; when the third returns, the
    sweep has cancelled the first guest only. -/
def lateGuest : List Action :=
  [.welcome "a" {}, .welcome "b" {}, .welcome "c" {}, .register 0, .register 0, .register 0,
    .register 0, .register 1, .register 1, .register 1, .register 2, .sweep,
    .sweepStep 0 .drain, .register 2, .register 2, .sweepStep 0 (.cancel 0)]

/-- There the second guest, who is not cancelled, is not lost. -/
theorem no_straggler_lateGuest :
    ∃ w, run (.withoutPrograms {} true) {} lateGuest = some w ∧
      (∃ s ∈ w.sweeps, s.drainedAt.isSome) ∧
      w.members.map (fun x => (x.registration, x.cancel)) =
        [(.settled 1, true), (.settled 2, false), (.settled 3, true)] ∧
      (∀ bs w', run (.withoutPrograms {} true) w bs = some w' → w'.coordinator.registry = []) ∧
      (Unregistered (.withoutPrograms {} true) lateGuest 2 ∨ false = true ∨ w.Pending 2 1) := by
  refine ⟨_, rfl, ?drained, ?members, ?settled⟩
  case drained => exact ⟨_, List.mem_singleton_self _, rfl⟩
  case members => rfl
  case settled =>
    have hs := @no_straggler (.withoutPrograms {} true) _ lateGuest rfl
      ⟨_, List.mem_singleton_self _, rfl⟩
    exact ⟨hs.1, hs.2.1 1 2 _ rfl rfl⟩

end World

end Supervisor
