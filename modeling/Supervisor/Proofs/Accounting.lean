/-
  A sweep accounts for every runner once.

  * `World.joinAt`: a join by the places of its sweep and of itself.  Whatever is in the
    registry when a sweep drains it has one join from then on, in that sweep
    (`exists_join_of_drain`, `eq_of_joinAt`);
  * `World.drainedIn`: all that sweeps took out of the registry in a run, which is what they
    report or still wait for (`reported_add_awaited`);
  * `World.inTime`: whether the runner of an entry stops before its bound;
  * `sweep_accounts_once`: all that, and on the clock a sweep reports exactly those as stopped
    that stop in time, and returns when it is done with the last one.
-/
import Supervisor.Proofs.Registry
import Supervisor.Proofs.SweepClock

namespace Supervisor

/-- In a list of lists without duplicates everything has one place. -/
theorem eq_of_nodup_flatten {α : Type} {ls : List (List α)} {l l' : List α} {k k' i i' : Nat}
    {a : α} (hnd : ls.flatten.Nodup) (hl : ls[k]? = some l) (hi : l[i]? = some a)
    (hl' : ls[k']? = some l') (hi' : l'[i']? = some a) : k' = k ∧ i' = i := by
  obtain ⟨hself, hdisj⟩ := List.nodup_flatten.1 hnd
  obtain ⟨hk, rfl⟩ := List.getElem?_eq_some_iff.1 hl
  obtain ⟨hk', rfl⟩ := List.getElem?_eq_some_iff.1 hl'
  have hmem := List.mem_of_getElem? hi
  have hmem' := List.mem_of_getElem? hi'
  rcases Nat.lt_trichotomy k k' with hlt | rfl | hlt
  · exact absurd hmem' (List.pairwise_iff_getElem.1 hdisj k k' hk hk' hlt hmem)
  · refine ⟨rfl, ?_⟩
    obtain ⟨h, rfl⟩ := List.getElem?_eq_some_iff.1 hi
    obtain ⟨h', heq⟩ := List.getElem?_eq_some_iff.1 hi'
    exact (hself _ (List.getElem_mem hk)).getElem_inj_iff.1 heq
  · exact absurd hmem (List.pairwise_iff_getElem.1 hdisj k' k hk' hk hlt hmem')

/-- A sweep that is settled has an answer for each of its joins. -/
theorem Sweep.count_add_count {s : Sweep} (hset : s.isSettled) :
    s.count .stopped + s.count .timedOut = s.joins.length := by
  have hneg : s.count .timedOut = s.joins.countP (fun j => ¬ (j.result = some .stopped)) := by
    refine List.countP_congr fun j hj => ?_
    obtain ⟨r, hr⟩ := Option.isSome_iff_exists.1 ((Sweep.isSettled_iff.1 hset).2 j hj)
    cases r <;> simp [hr]
  rw [hneg, count, List.length_eq_countP_add_countP (p := fun j => j.result = some .stopped)]
  simp

namespace World

variable {env : Environment} {w w' v : World} {a : Action} {as past rest : List Action}
  {k k' i i' : Nat} {s : Sweep} {j j' : Join} {l l' : List (Nat × Entry)}

/-! ## One join for each entry -/

/-- The join at the place `i` of the sweep at the place `k`. -/
def joinAt (w : World) (k i : Nat) : Option Join := w.sweeps[k]?.bind (·.joins[i]?)

/-- **No two joins are for the same entry.** -/
theorem eq_of_joinAt (hw : run env {} as = some w) (hj : w.joinAt k i = some j)
    (hj' : w.joinAt k' i' = some j') (hid : j'.id = j.id) : k' = k ∧ i' = i := by
  obtain ⟨s, hs, hj⟩ := Option.bind_eq_some_iff.1 hj
  obtain ⟨s', hs', hj'⟩ := Option.bind_eq_some_iff.1 hj'
  -- the joins of all sweeps are a part of the books, where no id stands twice
  have hnd : (w.sweeps.map fun s => s.joins.map (·.id)).flatten.Nodup := by
    have := (nodup_books_of_run hw).sublist ((List.sublist_append_left _ _).map _)
    simpa [takings, Sweep.entries, List.map_flatten, Function.comp_def] using this
  have hids : ∀ {k : Nat} {s : Sweep}, w.sweeps[k]? = some s →
      (w.sweeps.map fun s => s.joins.map (·.id))[k]? = some (s.joins.map (·.id)) := by
    intro k s hs
    simp [hs]
  exact eq_of_nodup_flatten (a := j.id) hnd (hids hs) (by simp [hj]) (hids hs')
    (by simp [hj', hid])

/-- What a sweep has taken out of the registry it keeps. -/
theorem kept_of_drain (ht : Took env as past (.sweepStep k .drain) v)
    (hw : run env {} as = some w) :
    ∃ s, w.sweeps[k]? = some s ∧ s.drainedAt.isSome ∧ s.entries = v.coordinator.registry := by
  obtain ⟨v', rest, ha, -, hr⟩ := ht.next hw
  obtain ⟨s₀, hs₀, -, -, hsw⟩ := drain_of_step ha
  obtain ⟨hlt, -⟩ := List.getElem?_eq_some_iff.1 hs₀
  refine run_induction (P := fun _ w => ∃ s, w.sweeps[k]? = some s ∧ s.drainedAt.isSome ∧
    s.entries = v.coordinator.registry) ?_ ?_ hr
  · exact ⟨_, by rw [hsw]; exact List.getElem?_set_self hlt, rfl, Sweep.entries_drain _ _⟩
  · rintro bs b u u' - ⟨s, hs, hd, he⟩ hb
    obtain ⟨s', hs', hsh⟩ := (effect_of_step hb).sweep_shift hs
    exact ⟨s', hs', (hsh.entries hd).1, (hsh.entries hd).2.trans he⟩

/-- **Whatever a sweep drains has a join in that sweep.** -/
theorem exists_join_of_drain (ht : Took env as past (.sweepStep k .drain) v)
    (hw : run env {} as = some w) {p : Nat × Entry} (hp : p ∈ v.coordinator.registry) :
    ∃ i j, w.joinAt k i = some j ∧ (j.id, j.entry) = p := by
  obtain ⟨s, hs, -, he⟩ := kept_of_drain ht hw
  rw [← he] at hp
  obtain ⟨j, hj, hjp⟩ := List.mem_map.1 hp
  obtain ⟨i, hi⟩ := List.mem_iff_getElem?.1 hj
  exact ⟨i, j, by simp [joinAt, hs, hi], hjp⟩

/-! ## Nothing is lost and nothing counted twice -/

/-- What an action takes out of the registry for a sweep. -/
def drains (w : World) : Action → List (Nat × Entry)
  | .sweepStep _ .drain => w.coordinator.registry
  | _ => []

/-- All that sweeps take out of the registry in a run. -/
def drainedIn (env : Environment) : World → List Action → List (Nat × Entry)
  | _, [] => []
  | w, a :: as => w.drains a ++ ((w.step env a).map fun w' => drainedIn env w' as).getD []

/-- How many runners the sweeps that have returned report. -/
def reported (w : World) : Nat :=
  (w.sweeps.filterMap Sweep.report?).foldr (fun r n => r.stopped + r.timedOut + n) 0

/-- The joins of the sweeps that have not returned. -/
def awaited (w : World) : List Join := (w.sweeps.filter (·.endedAt.isNone)).flatMap (·.joins)

theorem drains_eq_nil (hd : ∀ k, a ≠ .sweepStep k .drain) : w.drains a = [] := by
  unfold drains
  split
  · exact absurd rfl (hd _)
  · rfl

theorem drainedIn_concat (hw : run env v as = some w) :
    drainedIn env v (as ++ [a]) = drainedIn env v as ++ w.drains a := by
  induction as generalizing v with
  | nil =>
    cases hw
    cases h : step env w a <;> simp [drainedIn, h]
  | cons b as ih =>
    obtain ⟨u, hb, hu⟩ := run_cons.1 hw
    simp [drainedIn, hb, ih hu]

/-- **The sweeps have all that was ever drained.** -/
theorem drainedIn_perm (hw : run env {} as = some w) :
    (drainedIn env {} as).Perm w.takings.flatten := by
  refine run_induction (P := fun as w => (drainedIn env {} as).Perm w.takings.flatten)
    (List.Perm.refl _) ?_ hw
  intro as a w w' hw ih ha
  rw [drainedIn_concat hw]
  by_cases hd : ∃ k, a = .sweepStep k .drain
  · obtain ⟨k, rfl⟩ := hd
    obtain ⟨s, hs, hn, -, hsw⟩ := drain_of_step ha
    have htake : w'.takings = w.takings.set k w.coordinator.registry := by
      simp [takings, hsw, List.map_set]
    rw [htake]
    exact (ih.append_right _).trans (flatten_set_perm (takings_of_undrained hw hs hn)).symm
  · have hd := not_exists.1 hd
    rw [drains_eq_nil hd, List.append_nil]
    cases booking_of_step ha with
    | enrol _ _ _ _ _ _ ht => rw [ht]; exact ih
    | leave _ _ _ _ ht => rw [ht]; exact ih
    | arrive _ _ _ _ ht => rw [ht]; exact ih
    | keep _ _ hb => rw [hb.takings]; exact ih
    | takeHooks _ _ _ ht => rw [ht]; exact ih
    | raise _ _ _ ht => rw [ht]; simpa using ih
    | drain hact _ _ _ _ _ => exact absurd hact (hd _)

/-- **What was drained is reported or waited for.** -/
theorem reported_add_awaited (hw : run env {} as = some w) :
    w.reported + w.awaited.length = (drainedIn env {} as).length := by
  have hsettled : ∀ s ∈ w.sweeps, s.endedAt.isSome → s.isSettled := by
    intro s hs
    obtain ⟨k, hk⟩ := List.mem_iff_getElem?.1 hs
    exact (sweep_sound_of_run hw k s hk).ended
  rw [(drainedIn_perm hw).length_eq, takings, reported, awaited]
  -- nothing else of the run matters, so the induction is on whatever sweeps there are
  generalize w.sweeps = ss at hsettled
  induction ss with
  | nil => rfl
  | cons s ss ih =>
    have ih := ih fun t ht => hsettled t (List.mem_cons_of_mem _ ht)
    have hlen : s.entries.length = s.joins.length := by simp [Sweep.entries]
    cases he : s.endedAt with
    | none =>
      have hrep : s.report? = none := by simp [Sweep.report?, he]
      simp only [List.filterMap_cons_none hrep, List.filter_cons, he, Option.isNone_none, if_true,
        List.map_cons, List.flatMap_cons, List.flatten_cons, List.length_append, hlen]
      omega
    | some t =>
      have hrep : s.report? = some ⟨s.count .stopped, s.count .timedOut⟩ := by
        simp [Sweep.report?, he]
      have := Sweep.count_add_count (hsettled s (by simp) (by simp [he]))
      simp only [List.filterMap_cons_some hrep, List.filter_cons, he, Option.isNone_some,
        Bool.false_eq_true, if_false, List.map_cons, List.foldr_cons, List.flatten_cons,
        List.length_append, hlen]
      omega

/-! ## What a sweep reports on the clock -/

/-- Whether the runner of an entry, which a sweep drained in `v`, is over then or comes to be
    before the bound. -/
def inTime (env : Environment) (v : World) (as : List Action) (p : Nat × Entry) : Bool :=
  v.isOverAt p.2.member || (finishTime env p.2.member v as).any (· < v.joinBound env)

/-- Nobody comes to be over at the bound, unless it was so when the registry was drained. -/
def NoTie (env : Environment) (v : World) (as : List Action) : Prop :=
  ∀ p ∈ v.coordinator.registry, finishTime env p.2.member v as = some (v.joinBound env) →
    v.isOverAt p.2.member = true

theorem returnTime_mono (h : l ⊆ l') : returnTime env v as l ≤ returnTime env v as l' :=
  returnTime_le.2 ⟨(returnTime_le.1 (Nat.le_refl _)).1, fun _ hp => waitEnd_le_returnTime (h hp)⟩

theorem returnTime_perm (h : l.Perm l') : returnTime env v as l = returnTime env v as l' :=
  Nat.le_antisymm (returnTime_mono h.subset) (returnTime_mono h.symm.subset)

theorem returnTime_le_joinBound : returnTime env v as l ≤ v.joinBound env :=
  returnTime_le.2 ⟨Nat.le_add_right _ _, fun _ _ => waitEnd_le⟩

/-- Who is settled was stopped if it was in time, and else timed out. -/
theorem OnClock.result_eq (hC : OnClock env v as w s) (htie : NoTie env v as) (hj : j ∈ s.joins)
    (hr : j.result.isSome) : j.result =
      some (if inTime env v as (j.id, j.entry) then .stopped else .timedOut) := by
  have hT := hC.joins j hj
  obtain ⟨r, hr⟩ := Option.isSome_iff_exists.1 hr
  cases r with
  | stopped =>
    obtain ⟨t, ht, hle⟩ := hT.stopped hr
    have hin : inTime env v as (j.id, j.entry) = true := by
      rcases Nat.lt_or_eq_of_le hle with hlt | rfl
      · simp [inTime, ht, hlt]
      · simp [inTime, htie _ (hC.mem_registry hj) ht]
    rw [hr, hin]
    rfl
  | timedOut =>
    obtain ⟨-, hearly, hf⟩ := hT.timedOut hr
    have hout : inTime env v as (j.id, j.entry) = false := by
      cases hft : finishTime env j.entry.member v as with
      | none => simp [inTime, hearly, hft]
      | some t => simpa [inTime, hearly, hft] using hf t hft
    rw [hr, hout]
    rfl

/-- The counts of a sweep that is settled are those of its entries, in whatever order. -/
theorem OnClock.count_eq (hC : OnClock env v as w s) (htie : NoTie env v as) (hset : s.isSettled)
    (hl : l.Perm v.coordinator.registry) :
    s.count .stopped = l.countP (inTime env v as) ∧
      s.count .timedOut = l.countP (fun p => !inTime env v as p) := by
  have hres : ∀ j ∈ s.joins, j.result =
      some (if inTime env v as (j.id, j.entry) then .stopped else .timedOut) := fun j hj =>
    hC.result_eq htie hj ((Sweep.isSettled_iff.1 hset).2 j hj)
  rw [hl.countP_eq, hl.countP_eq, ← hC.entries, Sweep.entries, List.countP_map, List.countP_map]
  constructor
  · refine List.countP_congr fun j hj => ?_
    rw [hres j hj]
    cases h : inTime env v as (j.id, j.entry) <;> simp [h]
  · refine List.countP_congr fun j hj => ?_
    rw [hres j hj]
    cases h : inTime env v as (j.id, j.entry) <;> simp [h]

/-- **A sweep accounts for every runner once.**  Whatever is in the registry when a sweep
    drains it has one join from then on, and that in this sweep; so what the sweeps that have
    returned report is all that was ever drained, but for what others still wait for.  On the
    clock, while no guest goes back and nobody ties with the bound, a sweep reports exactly
    those as stopped that are over when it drains the registry or come to be before the bound,
    and all others as timed out, in whatever order it has them.  It returns when it is done
    with the last of them, hence by the bound, and at once if there are none; and it always
    comes to that. -/
theorem sweep_accounts_once (hw : run env {} as = some w) :
    (∀ past k v p, Took env as past (.sweepStep k .drain) v → p ∈ v.coordinator.registry →
      ∃ i j, w.joinAt k i = some j ∧ (j.id, j.entry) = p ∧
        ∀ k' i' j', w.joinAt k' i' = some j' → j'.id = p.1 → k' = k ∧ i' = i) ∧
    (w.reported + w.awaited.length = (drainedIn env {} as).length ∧
      ((∀ s ∈ w.sweeps, s.endedAt = none → s.joins = []) →
        w.reported = (drainedIn env {} as).length)) ∧
    ∀ past k v rest, as = past ++ .sweepStep k .drain :: rest → run env {} past = some v →
      playIn env k v (.sweepStep k .drain :: rest) = some w →
      isMonotone env v (.sweepStep k .drain :: rest) = true →
      NoTie env v (.sweepStep k .drain :: rest) →
      ∀ l, l.Perm v.coordinator.registry → ∃ s, w.sweeps[k]? = some s ∧
        (∀ t, s.endedAt = some t → t = returnTime env v (.sweepStep k .drain :: rest) l ∧
          s.report? = some ⟨l.countP (inTime env v (.sweepStep k .drain :: rest)),
            l.countP fun p => !inTime env v (.sweepStep k .drain :: rest) p⟩) ∧
        returnTime env v (.sweepStep k .drain :: rest) l ≤ v.now + env.settings.joinTimeout ∧
        (l = [] → returnTime env v (.sweepStep k .drain :: rest) l = v.now) ∧
        (returnTime env v (.sweepStep k .drain :: rest) l < w.now → s.endedAt.isSome) ∧
        ∃ more w' s', playIn env k w more = some w' ∧ (∀ b ∈ more, IsOwn k b) ∧
          w'.sweeps[k]? = some s' ∧ s'.endedAt.isSome := by
  refine ⟨fun past k v p ht hp => ?_, ⟨reported_add_awaited hw, fun hall => ?_⟩, ?_⟩
  · obtain ⟨i, j, hj, rfl⟩ := exists_join_of_drain ht hw hp
    exact ⟨i, j, hj, rfl, fun k' i' j' hj' hid => eq_of_joinAt hw hj hj' hid⟩
  · have hnone : w.awaited = [] := by
      refine List.flatMap_eq_nil_iff.2 fun s hs => ?_
      obtain ⟨hs, he⟩ := List.mem_filter.1 hs
      exact hall s hs (by simpa using he)
    rw [← reported_add_awaited hw, hnone]
    rfl
  · rintro past k v rest - hv hplay hmono htie l hl
    obtain ⟨s, hs, hC⟩ := onClock_of_play hv hplay hmono
    rw [returnTime_perm hl]
    refine ⟨s, hs, fun t ht => ?_, returnTime_le_joinBound, ?_, fun hlt => ?_,
      exists_return env hs hC.drained⟩
    · obtain ⟨hset, rfl⟩ := hC.ended t ht
      obtain ⟨hstop, htime⟩ := hC.count_eq htie hset hl
      exact ⟨rfl, by simp [Sweep.report?, ht, hstop, htime]⟩
    · rintro rfl
      rw [hl.symm.eq_nil]
      rfl
    -- a sweep that has not returned waits for someone whose end is not past
    · by_contra he
      rcases hC.going (by simpa using he) with hnow | ⟨p, hp, hle⟩
      · have := (returnTime_le.1 (Nat.le_refl (returnTime env v (.sweepStep k .drain :: rest)
          v.coordinator.registry))).1
        omega
      · have := Nat.le_trans hle (waitEnd_le_returnTime hp)
        omega

/-- Three guests register, of whom the first is finished and the second finishes 3 ms after it
    is cancelled.  Two sweeps begin at once. -/
def twoSweeps : List Action :=
  List.flatten [
    [.welcome "a" { state := .finished }, .welcome "b" { reaction := some ⟨3, false⟩ },
      .welcome "c" {}],
    List.replicate 3 (.register 0), List.replicate 3 (.register 1),
    List.replicate 3 (.register 2), [.sweep, .sweep]]

/-- The first sweep drains the registry, and the second finds nothing.  The third guest is
    named while the first sweep waits for it in vain. -/
def secondFindsNothing : List Action :=
  [.sweepStep 0 .drain, .sweepStep 1 .drain, .sweepStep 1 .report, .sweepStep 0 (.cancel 2),
    .sweepStep 0 (.cancel 1), .sweepStep 0 (.cancel 0), .react 1, .sweepStep 0 (.stopped 0),
    .unregister 3, .pass 3, .react 1, .sweepStep 0 (.stopped 1), .pass 2,
    .sweepStep 0 (.timedOut 2), .sweepStep 0 .report]

/-- With a bound of 5 ms, two of the three are reported as stopped, and the sweep returns at
    the bound.  The third is waited for once. -/
theorem sweep_accounts_once_twoSweeps :
    ∃ env v w s, env.settings.joinTimeout = 5 ∧ run env {} twoSweeps = some v ∧
      playIn env 0 v secondFindsNothing = some w ∧ w.sweeps[0]? = some s ∧
      s.endedAt = some (returnTime env v secondFindsNothing v.coordinator.registry.reverse) ∧
      s.endedAt = some 5 ∧
      s.report? =
        some ⟨v.coordinator.registry.reverse.countP (inTime env v secondFindsNothing), 1⟩ ∧
      s.report? = some ⟨2, 1⟩ ∧ w.reported = 3 ∧
      ∃ i j, w.joinAt 0 i = some j ∧ j.id = 3 ∧
        ∀ k' i' j', w.joinAt k' i' = some j' → j'.id = 3 → k' = 0 ∧ i' = i := by
  have hrun : run (.withoutPrograms { joinTimeout := 5 } false) {}
    (twoSweeps ++ secondFindsNothing) = some _ := rfl
  obtain ⟨hjoin, ⟨-, hsum⟩, hclock⟩ := sweep_accounts_once hrun
  obtain ⟨s, hs, hreport, -⟩ := hclock twoSweeps 0 _ secondFindsNothing.tail rfl rfl rfl rfl
    (by unfold NoTie; decide) _ (List.reverse_perm _)
  have hend : s.endedAt = some 5 := by cases hs; rfl
  obtain ⟨ht, hcount⟩ := hreport 5 hend
  obtain ⟨i, j, hj, hid, hone⟩ := hjoin twoSweeps 0 _ (3, ⟨"c", 2⟩) ⟨⟨_, rfl⟩, rfl⟩ (by decide)
  exact ⟨_, _, _, s, rfl, rfl, rfl, hs, hend.trans (congrArg some ht), hend, hcount.trans rfl,
    hcount.trans rfl, (hsum (by decide)).trans rfl, i, j, hj, congrArg Prod.fst hid, hone⟩

end World

end Supervisor
