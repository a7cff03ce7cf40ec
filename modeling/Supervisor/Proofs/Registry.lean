/-
  The registry mirrors the runners.

  * `Coordinator.ids`: the ids in the registry; `ids_of_step` says which of them an action
    takes out and which it puts in;
  * `World.books`: what is in the registry or was taken out of it by a sweep.  No id stands
    there twice (`nodup_books_of_run`);
  * `World.Gone`: an id was in the registry or was refused, and is not there any more.  It
    stays so (`Gone.later`);
  * `Listed env as id`: in the run `as` the id was put into the registry, and nobody has
    named it since;
  * `Member.isEnrolled`: a runner that is no survivor has entered the registry and not left
    it;
  * `registry_mirrors_runners`: ids are taken once, nothing is overwritten, an id that is
    not there is taken out for nothing, and until a sweep begins the ids in the registry are
    those that are listed.
-/
import Mathlib.Data.List.Nodup
import Supervisor.Proofs.Enrolment
import Supervisor.Proofs.Story
import Supervisor.Proofs.Sweeping
import Supervisor.Proofs.Teardown

namespace Supervisor

namespace Registration

variable {hasHooks b : Bool} {e : Entry} {c c' : Coordinator} {g g' : Registration} {id : Nat}

theorem Move.nextId (hm : Move hasHooks e c g g' c' b) :
    c'.nextId + g.id?.isSome.toNat = c.nextId + g'.id?.isSome.toNat := by
  cases hm <;> rfl

/-- A step of a registration puts its own entry into the registry, or changes nothing
    there. -/
theorem Move.registry (hm : Move hasHooks e c g g' c' b) :
    (∃ id, g = .numbered id ∧ c.shuttingDown = false ∧ c'.registry = c.registry ++ [(id, e)]) ∨
      ((∀ id, g = .numbered id → c.shuttingDown = true) ∧ c'.registry = c.registry) := by
  cases hm with
  | insert id hs => exact Or.inl ⟨id, rfl, hs, rfl⟩
  | refuse id hs => exact Or.inr ⟨fun _ _ => hs, rfl⟩
  | _ => exact Or.inr ⟨nofun, rfl⟩

/-- The call has tested the flag: it was refused, or has entered the registry. -/
def HasTested (g : Registration) (id : Nat) : Prop := g = .refused id ∨ g.HasEntered id

theorem HasTested.id? (h : g.HasTested id) : g.id? = some id := by
  rcases h with rfl | h
  · rfl
  · exact h.id?

theorem HasTested.ne_numbered (h : g.HasTested id) (n : Nat) : g ≠ .numbered n := by
  rcases h with rfl | rfl | rfl | rfl <;> nofun

theorem Move.hasTested (hm : Move hasHooks e c g g' c' b) (h : g.HasTested id) :
    g'.HasTested id := by
  rcases h with rfl | h
  · cases hm with
    | cancel => exact Or.inr (Or.inr (Or.inr rfl))
  · exact Or.inr (hm.hasEntered h)

/-- Whether a call has put its entry into the registry, or has returned. -/
def hasEntered : Registration → Bool
  | inserted _ | hooking _ | settled _ => true
  | _ => false

theorem hasEntered_iff : g.hasEntered = true ↔ ∃ id, g.HasEntered id := by
  cases g <;> simp [hasEntered, HasEntered]

end Registration

/-- The ids in the registry. -/
def Coordinator.ids (c : Coordinator) : List Nat := c.registry.map (·.1)

theorem Coordinator.mem_ids {c : Coordinator} {id : Nat} :
    id ∈ c.ids ↔ ∃ e, (id, e) ∈ c.registry := by
  simp [ids]

theorem Coordinator.remove_of_not_mem {c : Coordinator} {id : Nat} (h : id ∉ c.ids) :
    c.remove id = c := by
  have hkeep : c.registry.filter (·.1 ≠ id) = c.registry := by
    refine List.filter_eq_self.2 fun p hp => ?_
    simp only [ne_eq, decide_not, Bool.not_eq_true', decide_eq_false_iff_not]
    rintro rfl
    exact h (List.mem_map_of_mem hp)
  rw [remove, hkeep]

theorem Stage.hasLeft_of_rank_lt {s : Stage} (o : Outcome) (h : (leaving o).rank < s.rank) :
    s.hasLeft = true := by
  cases s <;> simp_all [rank, hasLeft]

/-- The member is a runner that is no survivor, has entered the registry, and has not left
    it. -/
def Member.isEnrolled (x : Member) : Bool :=
  (x.handle?.bind (·.runner)).any fun r =>
    !r.spec.options.survivor && x.registration.hasEntered && !r.stage.hasLeft

theorem Member.isEnrolled_iff {x : Member} : x.isEnrolled = true ↔
    ∃ h r, x.body = .handle h ∧ h.runner = some r ∧ r.spec.options.survivor = false ∧
      (∃ id, x.registration.HasEntered id) ∧ r.stage.hasLeft = false := by
  simp only [isEnrolled, Option.any_eq_true, Option.bind_eq_some_iff, Bool.and_eq_true,
    Bool.not_eq_true', Registration.hasEntered_iff, World.handle?_eq_some]
  constructor
  · rintro ⟨r, ⟨h, hb, hr⟩, ⟨hs, hent⟩, hl⟩
    exact ⟨h, r, hb, hr, hs, hent, hl⟩
  · rintro ⟨h, r, hb, hr, hs, hent, hl⟩
    exact ⟨r, ⟨h, hb, hr⟩, ⟨hs, hent⟩, hl⟩

section
variable {α : Type} (p : α → Bool) (l : List α)

/-- The places of those that are picked out. -/
def placesOf : List Nat := (l.zipIdx.filter (p ·.1)).map (·.2)

theorem mem_placesOf {n : Nat} : n ∈ placesOf p l ↔ ∃ a, l[n]? = some a ∧ p a = true := by
  simp [placesOf, List.mem_zipIdx_iff_getElem?]

theorem nodup_placesOf : (placesOf p l).Nodup := by
  refine List.Nodup.sublist ((List.filter_sublist).map _) ?_
  rw [List.zipIdx_map_snd]
  exact List.nodup_range'

theorem length_placesOf : (placesOf p l).length = l.countP p := by
  rw [placesOf, List.length_map, ← List.countP_eq_length_filter]
  conv_rhs => rw [← List.zipIdx_map_fst 0 l, List.countP_map]
  rfl

end

/-- To put a list where there was none adds it to all. -/
theorem flatten_set_perm {α : Type} {l : List (List α)} {k : Nat} {r : List α}
    (h : l[k]? = some []) : (l.set k r).flatten.Perm (l.flatten ++ r) := by
  induction l generalizing k with
  | nil => simp at h
  | cons t l ih =>
    cases k with
    | zero =>
      obtain rfl : t = [] := by simpa using h
      simpa using List.perm_append_comm
    | succ k =>
      have := ih (k := k) (by simpa using h)
      simpa using this.append_left t

theorem eq_of_ofNat_eq {a b : Nat} (ha : a < UInt64.size) (hb : b < UInt64.size)
    (h : UInt64.ofNat a = UInt64.ofNat b) : a = b := by
  rw [← UInt64.toNat_ofNat_of_lt' ha, h, UInt64.toNat_ofNat_of_lt' hb]

namespace World

variable {env : Environment} {w w' : World} {a : Action} {as bs past : List Action} {m id : Nat}

/-! ## Ids are taken in order -/

theorem nextId_of_run (hw : run env {} as = some w) :
    w.coordinator.nextId = w.registrations.countP (·.id?.isSome) + 1 := by
  refine run_induction (P := fun _ w => w.coordinator.nextId =
    w.registrations.countP (·.id?.isSome) + 1) rfl ?_ hw
  intro as a w w' _ ih ha
  rcases enrol_or_bystands ha with ⟨m, g, g', e, b, -, hg, hm, hr⟩ | hb
  · have hcount := countP_set_add (p := fun g : Registration => g.id?.isSome) (b := g') hg
    have hnext := hm.nextId
    rw [← hr] at hcount
    omega
  · rw [hb.nextId, ih]
    rcases hb.registrations with hr | hr <;> simp [hr, Registration.id?]

theorem nextId_le_of_run (hbs : run env w bs = some w') :
    w.coordinator.nextId ≤ w'.coordinator.nextId := by
  refine run_induction (P := fun _ v => w.coordinator.nextId ≤ v.coordinator.nextId)
    (Nat.le_refl _) ?_ hbs
  intro as a v v' _ ih ha
  rcases enrol_or_bystands ha with ⟨_, _, _, _, _, -, -, hm, -⟩ | hb
  · exact Nat.le_trans ih (Ledger.nextId_le_of_move hm)
  · rw [hb.nextId]
    exact ih

/-- With fewer than `UInt64.size - 1` registrations ids are words of 64 bits. -/
theorem id_lt_of_few (hw : run env {} as = some w) (hbs : run env w bs = some w')
    (hfew : w'.registrations.countP (·.id?.isSome) < UInt64.size - 1) {g : Registration}
    (hg : w.registrations[m]? = some g) (hid : g.id? = some id) : id < UInt64.size := by
  have hfresh := (ledger_of_run hw).fresh m g id hg hid
  have hmono := nextId_le_of_run hbs
  have hnext := nextId_of_run (run_append_eq_some.2 ⟨w, hw, hbs⟩)
  omega

/-- Whoever is in the registry has entered it. -/
theorem entered_of_mem_ids (hw : run env {} as = some w) (hid : id ∈ w.coordinator.ids) :
    ∃ (m : Nat) (g : Registration), w.registrations[m]? = some g ∧ g.HasEntered id := by
  obtain ⟨e, he⟩ := Coordinator.mem_ids.1 hid
  obtain ⟨g, hg, hent⟩ := (ledger_of_run hw).entry _ he
  exact ⟨_, g, hg, hent⟩

/-! ## What an action does to the ids -/

theorem shuttingDown_of_sweep (hw : run env {} as = some w) {k : Nat} {s : Sweep}
    (hs : w.sweeps[k]? = some s) : w.coordinator.shuttingDown = true :=
  (ledger_of_run hw).raised.2 (List.ne_nil_of_mem (List.mem_of_getElem? hs))

theorem drain_of_step {k : Nat} (ha : step env w (.sweepStep k .drain) = some w') :
    ∃ s, w.sweeps[k]? = some s ∧ s.drainedAt = none ∧ w'.coordinator = w.coordinator.drain ∧
      w'.sweeps = w.sweeps.set k (.drain w.now w.coordinator.registry) := by
  have ha : sweepStep env w k .drain = some w' := ha
  cases sweepTurn_of_sweepStep ha with
  | drain log hs hd => exact ⟨_, hs, hd, rfl, rfl⟩

/-- **Which ids an action takes out of the registry and which it puts in**, unless it takes
    out all. -/
theorem ids_of_step (ha : step env w a = some w') (hd : ∀ k, a ≠ .sweepStep k .drain) :
    w'.coordinator.ids =
      w.coordinator.ids.filter (fun id => w.unregisters a ≠ some id) ++ (w.inserts a).toList := by
  have hall : w.unregisters a = none →
      w.coordinator.ids.filter (fun id => w.unregisters a ≠ some id) = w.coordinator.ids :=
    fun hu => List.filter_eq_self.2 (by simp [hu])
  have hquiet : w.enrols a = none → w.unregisters a = none →
      w'.coordinator.registry = w.coordinator.registry → w'.coordinator.ids =
      w.coordinator.ids.filter (fun id => w.unregisters a ≠ some id) ++ (w.inserts a).toList := by
    intro hn hu hc
    rw [hall hu, inserts_eq_none hn]
    simp [Coordinator.ids, hc]
  cases booking_of_step ha with
  | enrol hm hu hg _ hmove _ _ =>
    have henr := enrolling_eq hm
    rw [hg] at henr
    rw [hall hu]
    rcases hmove.registry with ⟨id, rfl, hs, hreg⟩ | ⟨hs, hreg⟩
    · simp [Coordinator.ids, hreg, inserts_eq_some.2 ⟨henr, hs⟩]
    · have hnone : w.inserts a = none := by
        rw [Option.eq_none_iff_forall_ne_some]
        intro id hid
        obtain ⟨hnum, hdown⟩ := inserts_eq_some.1 hid
        rw [henr] at hnum
        rw [hs id (Option.some.inj hnum)] at hdown
        cases hdown
      simp [Coordinator.ids, hreg, hnone]
  | leave hn hu hc _ _ =>
    simp only [Coordinator.ids, hc, Coordinator.remove, hu, inserts_eq_none hn, Option.toList_none,
      List.append_nil, List.filter_map, Function.comp_def, ne_eq, Option.some.injEq, eq_comm]
  | arrive hn hu hc _ _ => exact hquiet hn hu (by rw [hc])
  | keep hn hu hb => exact hquiet hn hu (by rw [hb.coordinator])
  | takeHooks hact hc _ _ | raise hact hc _ _ =>
    subst hact
    exact hquiet rfl rfl (by rw [hc]; rfl)
  | drain hact _ _ _ _ _ => exact absurd hact (hd _)

/-- An action that names an id which is not in the registry leaves the coordinator alone. -/
theorem coordinator_of_unregisters (ha : step env w a = some w') (hu : w.unregisters a = some id)
    (hid : id ∉ w.coordinator.ids) : w'.coordinator = w.coordinator := by
  cases booking_of_step ha with
  | leave _ hu' hc _ _ =>
    rw [hu] at hu'
    cases hu'
    rw [hc, Coordinator.remove_of_not_mem hid]
  | enrol _ hu' _ _ _ _ _ => rw [hu] at hu'; cases hu'
  | arrive _ hu' _ _ _ => rw [hu] at hu'; cases hu'
  | keep _ hu' _ => rw [hu] at hu'; cases hu'
  | takeHooks hact _ _ _ => subst hact; cases hu
  | raise hact _ _ _ => subst hact; cases hu
  | drain hact _ _ _ _ _ => subst hact; cases hu

/-- An insertion puts one entry behind all others. -/
theorem registry_of_inserts (ha : step env w a = some w') (hi : w.inserts a = some id) :
    ∃ e, w'.coordinator.registry = w.coordinator.registry ++ [(id, e)] := by
  obtain ⟨hnum, hdown⟩ := inserts_eq_some.1 hi
  rcases enrol_or_bystands ha with ⟨m, g, g', e, b, hm, hg, hmove, -⟩ | hb
  · rw [enrolling_eq hm, hg] at hnum
    rcases hmove.registry with ⟨n, rfl, -, hreg⟩ | ⟨hs, -⟩
    · cases hnum
      exact ⟨e, hreg⟩
    · rw [hs id (Option.some.inj hnum)] at hdown
      cases hdown
  · rw [inserts_eq_none hb.enrols] at hi
    cases hi

/-! ## No id stands twice in the books -/

/-- What is in the registry or was taken out of it by a sweep. -/
def books (w : World) : List (Nat × Entry) := w.takings.flatten ++ w.coordinator.registry

/-- Whoever is on the books has entered the registry. -/
theorem entered_of_mem_books (hw : run env {} as = some w) {p : Nat × Entry}
    (hp : p ∈ w.books) : ∃ g, w.registrations[p.2.member]? = some g ∧ g.HasEntered p.1 := by
  have hL := ledger_of_run hw
  rcases List.mem_append.1 hp with hp | hp
  · obtain ⟨l, hl, hp⟩ := List.mem_flatten.1 hp
    obtain ⟨s, hs, rfl⟩ := List.mem_map.1 hl
    exact hL.taken s hs p hp
  · exact hL.entry p hp

/-- Who has an id and has not tested the flag is on no books. -/
theorem not_mem_books_of_numbered (hw : run env {} as = some w)
    (hg : w.registrations[m]? = some (.numbered id)) : id ∉ w.books.map (·.1) := by
  intro hid
  obtain ⟨p, hp, rfl⟩ := List.mem_map.1 hid
  obtain ⟨g', hg', hent⟩ := entered_of_mem_books hw hp
  have hm := (ledger_of_run hw).distinct _ _ _ _ _ hg' hg hent.id? rfl
  rw [hm, hg] at hg'
  exact Registration.HasTested.ne_numbered (Or.inr hent) p.1 (Option.some.inj hg').symm

/-- A sweep that has not drained the registry has taken nothing out. -/
theorem takings_of_undrained (hw : run env {} as = some w) {k : Nat} {s : Sweep}
    (hs : w.sweeps[k]? = some s) (hd : s.drainedAt = none) : w.takings[k]? = some [] := by
  simp [takings, hs, Sweep.entries, (sweep_sound_of_run hw k s hs).undrained hd]

/-- **No id stands twice in the books.** -/
theorem nodup_books_of_run (hw : run env {} as = some w) : (w.books.map (·.1)).Nodup := by
  refine run_induction (P := fun _ w => (w.books.map (·.1)).Nodup) (by simp [books, takings]) ?_ hw
  intro as a w w' hw ih ha
  cases booking_of_step ha with
  | enrol hm _ hg _ hmove _ ht =>
    rcases hmove.registry with ⟨id, rfl, -, hreg⟩ | ⟨-, hreg⟩
    · rw [books, hreg, ht, ← List.append_assoc, List.map_append, List.map_cons, List.map_nil,
        List.nodup_append]
      refine ⟨ih, by simp, ?_⟩
      rintro n hn _ hid rfl
      rw [List.mem_singleton] at hid
      subst hid
      exact not_mem_books_of_numbered hw hg hn
    · rw [books, hreg, ht]
      exact ih
  | leave _ _ hc _ ht =>
    rw [books, hc, ht]
    exact ih.sublist (((List.filter_sublist).append_left _).map _)
  | arrive _ _ hc _ ht => rw [books, hc, ht]; exact ih
  | keep _ _ hb => rw [books, hb.coordinator, hb.takings]; exact ih
  | takeHooks _ hc _ ht => rw [books, hc, ht]; exact ih
  | raise _ hc _ ht => rw [books, hc, ht]; simpa [books, Coordinator.raise] using ih
  | drain _ hs hd hc _ ht =>
    have hperm := flatten_set_perm (r := w.coordinator.registry) (takings_of_undrained hw hs hd)
    rw [books, hc, ht, Coordinator.drain, List.append_nil]
    exact (hperm.map (·.1)).nodup_iff.2 ih

theorem nodup_ids_of_run (hw : run env {} as = some w) : w.coordinator.ids.Nodup :=
  (nodup_books_of_run hw).sublist ((List.sublist_append_right _ _).map _)

/-! ## Gone for good -/

/-- The id was in the registry or was refused, and is not there any more. -/
def Gone (w : World) (id : Nat) : Prop :=
  id ∉ w.coordinator.ids ∧
    ∃ (m : Nat) (g : Registration), w.registrations[m]? = some g ∧ g.HasTested id

/-- Whoever has tested the flag has done so later on. -/
theorem tested_of_step (ha : step env w a = some w')
    (ht : ∃ (m : Nat) (g : Registration), w.registrations[m]? = some g ∧ g.HasTested id) :
    ∃ (m : Nat) (g : Registration), w'.registrations[m]? = some g ∧ g.HasTested id := by
  obtain ⟨n, k, hk, ht⟩ := ht
  obtain ⟨hlt, -⟩ := List.getElem?_eq_some_iff.1 hk
  rcases enrol_or_bystands ha with ⟨m, g, g', e, b, -, hg, hmove, hr⟩ | hb
  · by_cases hmn : m = n
    · subst hmn
      rw [hk] at hg
      cases hg
      exact ⟨m, g', by rw [hr]; simp [hlt], hmove.hasTested ht⟩
    · exact ⟨n, k, by rw [hr, List.getElem?_set_ne hmn, hk], ht⟩
  · exact ⟨n, k, hb.getElem? hk, ht⟩

/-- Nobody puts an id into the registry for which the flag was tested. -/
theorem inserts_ne_of_tested (hw : run env {} as = some w)
    (ht : ∃ (m : Nat) (g : Registration), w.registrations[m]? = some g ∧ g.HasTested id) :
    w.inserts a ≠ some id := by
  intro hi
  obtain ⟨m, g, hg, ht⟩ := ht
  obtain ⟨n, -, hn⟩ := enrolling_eq_some.1 (inserts_eq_some.1 hi).1
  have hmn := (ledger_of_run hw).distinct _ _ _ _ _ hg hn ht.id? rfl
  rw [hmn, hn] at hg
  exact ht.ne_numbered id (Option.some.inj hg).symm

theorem Gone.step (hg : w.Gone id) (hw : run env {} as = some w) (ha : step env w a = some w') :
    w'.Gone id := by
  refine ⟨fun hid => ?_, tested_of_step ha hg.2⟩
  by_cases hd : ∃ k, a = .sweepStep k .drain
  · obtain ⟨k, rfl⟩ := hd
    obtain ⟨-, -, -, hc, -⟩ := drain_of_step ha
    rw [hc] at hid
    cases hid
  · rw [ids_of_step ha (not_exists.1 hd)] at hid
    rcases List.mem_append.1 hid with hid | hid
    · exact hg.1 (List.mem_filter.1 hid).1
    · exact inserts_ne_of_tested hw hg.2 (Option.mem_toList.1 hid)

/-- **What is gone stays gone.** -/
theorem Gone.later (hg : w.Gone id) (hw : run env {} as = some w)
    (hbs : run env w bs = some w') : w'.Gone id := by
  refine run_induction (P := fun _ v => v.Gone id) hg ?_ hbs
  exact fun bs a v v' hv hg ha => hg.step (run_append_eq_some.2 ⟨w, hw, hv⟩) ha

/-- The moment after one of a run, from which the rest of it leads on. -/
theorem Took.next {v : World} (ht : Took env as past a v) (hw : run env {} as = some w) :
    ∃ v' rest, step env v a = some v' ∧ run env {} (past ++ [a]) = some v' ∧
      run env v' rest = some w := by
  obtain ⟨rest, hr⟩ := ht.rest hw
  obtain ⟨v', ha, hr⟩ := run_cons.1 hr
  exact ⟨v', rest, ha, run_concat.2 ⟨v, ht.2, ha⟩, hr⟩

/-- In the run `as` a sweep has taken the id out of the registry. -/
def SweptOut (env : Environment) (as : List Action) (id : Nat) : Prop :=
  ∃ past k v, Took env as past (.sweepStep k .drain) v ∧ id ∈ v.coordinator.ids

/-- In the run `as` the registration with the id found that a sweep had begun. -/
def TurnedAway (env : Environment) (as : List Action) (id : Nat) : Prop :=
  ∃ past a v, Took env as past a v ∧ v.enrolling a = some (.numbered id) ∧
    v.coordinator.shuttingDown = true

/-- The ids that cannot be in the registry: nobody has them, or they were there and were
    taken out, or they were refused. -/
inductive Absent (env : Environment) (as : List Action) (w : World) (id : Nat) : Prop where
  | unissued : (∀ g ∈ w.registrations, g.id? ≠ some id) → Absent env as w id
  | removed : Unregistered env as id → Absent env as w id
  | drained : SweptOut env as id → Absent env as w id
  | refused : TurnedAway env as id → Absent env as w id

theorem tested_of_mem_ids (hw : run env {} as = some w) (hid : id ∈ w.coordinator.ids) :
    ∃ (m : Nat) (g : Registration), w.registrations[m]? = some g ∧ g.HasTested id := by
  obtain ⟨m, g, hg, hent⟩ := entered_of_mem_ids hw hid
  exact ⟨m, g, hg, Or.inr hent⟩

theorem gone_of_unregistered (hw : run env {} as = some w) (hu : Unregistered env as id) :
    w.Gone id := by
  obtain ⟨past, a, v, e, ht, hname, he⟩ := hu
  obtain ⟨v', rest, ha, hv', hr⟩ := ht.next hw
  have hid : id ∈ v.coordinator.ids := Coordinator.mem_ids.2 ⟨e, he⟩
  have htest := tested_of_mem_ids ht.2 hid
  refine Gone.later ⟨fun hid' => ?_, tested_of_step ha htest⟩ hv' hr
  have hd : ∀ k, a ≠ .sweepStep k .drain := by
    rintro k rfl
    cases hname
  rw [ids_of_step ha hd] at hid'
  rcases List.mem_append.1 hid' with hid' | hid'
  · simp [hname] at hid'
  · exact inserts_ne_of_tested ht.2 htest (Option.mem_toList.1 hid')

theorem gone_of_sweptOut (hw : run env {} as = some w) (hs : SweptOut env as id) : w.Gone id := by
  obtain ⟨past, k, v, ht, hid⟩ := hs
  obtain ⟨v', rest, ha, hv', hr⟩ := ht.next hw
  refine Gone.later ⟨?_, tested_of_step ha (tested_of_mem_ids ht.2 hid)⟩ hv' hr
  obtain ⟨-, -, -, hc, -⟩ := drain_of_step ha
  rw [hc]
  exact List.not_mem_nil

theorem gone_of_turnedAway (hw : run env {} as = some w) (hr : TurnedAway env as id) :
    w.Gone id := by
  obtain ⟨past, a, v, ht, henr, hdown⟩ := hr
  obtain ⟨v', rest, ha, hv', hrest⟩ := ht.next hw
  obtain ⟨m, hm, hg⟩ := enrolling_eq_some.1 henr
  obtain ⟨hlt, -⟩ := List.getElem?_eq_some_iff.1 hg
  refine Gone.later ?_ hv' hrest
  rcases enrol_or_bystands ha with ⟨n, g, g', e, b, hn, hg', hmove, hregs⟩ | hb
  · rw [hm] at hn
    cases hn
    rw [hg] at hg'
    cases hg'
    generalize hco : v'.coordinator = c' at hmove
    cases hmove with
    | insert _ hs => rw [hdown] at hs; cases hs
    | refuse _ _ =>
      have hself : v'.registrations[m]? = some (.refused id) := by rw [hregs]; simp [hlt]
      refine ⟨fun hid => ?_, m, _, hself, Or.inl rfl⟩
      obtain ⟨n, k, hk, hent⟩ := entered_of_mem_ids hv' hid
      have hnm := (ledger_of_run hv').distinct _ _ _ _ _ hk hself hent.id? rfl
      rw [hnm, hself] at hk
      rcases hent with h | h | h <;> rw [h] at hk <;> cases hk
  · rw [hb.enrols] at hm
    cases hm

theorem Absent.not_mem (h : Absent env as w id) (hw : run env {} as = some w) :
    id ∉ w.coordinator.ids := by
  cases h with
  | unissued h =>
    intro hid
    obtain ⟨m, g, hg, hent⟩ := entered_of_mem_ids hw hid
    exact h g (List.mem_of_getElem? hg) hent.id?
  | removed h => exact (gone_of_unregistered hw h).1
  | drained h => exact (gone_of_sweptOut hw h).1
  | refused h => exact (gone_of_turnedAway hw h).1

/-! ## What the registry lists -/

/-- In the run `as` the id was put into the registry, and nobody has named it since. -/
def Listed (env : Environment) (as : List Action) (id : Nat) : Prop :=
  ∃ past a v, Took env as past a v ∧ v.inserts a = some id ∧
    ∀ past' a' v', Took env as past' a' v' → past ++ [a] <+: past' → v'.unregisters a' ≠ some id

theorem listed_concat (hw : run env {} as = some w) : Listed env (as ++ [a]) id ↔
    w.inserts a = some id ∨ (Listed env as id ∧ w.unregisters a ≠ some id) := by
  constructor
  · rintro ⟨past, b, v, ht, hi, hsince⟩
    rcases ht.concat_cases with ht' | ⟨rfl, rfl⟩
    · refine Or.inr ⟨⟨past, b, v, ht', hi, ?_⟩, hsince as a w (Took.last a hw) ht'.1⟩
      exact fun past' a' v' h' => hsince past' a' v' h'.concat
    · rw [ht.2] at hw
      cases hw
      exact Or.inl hi
  · rintro (hi | ⟨⟨past, b, v, ht, hi, hsince⟩, hu⟩)
    · refine ⟨as, a, w, Took.last a hw, hi, fun past' a' v' ht' hp => ?_⟩
      -- no moment comes after the last one
      have h1 := hp.length_le
      have h2 := ht'.1.length_le
      simp at h1 h2
      omega
    · refine ⟨past, b, v, ht.concat, hi, fun past' a' v' ht' hp => ?_⟩
      rcases ht'.concat_cases with h' | ⟨rfl, rfl⟩
      · exact hsince past' a' v' h' hp
      · rw [ht'.2] at hw
        cases hw
        exact hu

/-- The flag is up if and only if a sweep has begun. -/
theorem shuttingDown_iff_of_run (hw : run env {} as = some w) :
    w.coordinator.shuttingDown = true ↔ Action.sweep ∈ as := by
  refine run_induction (P := fun as w => w.coordinator.shuttingDown = true ↔ Action.sweep ∈ as)
    (by simp) ?_ hw
  intro as a w w' hw ih ha
  by_cases hact : a = .sweep
  · subst hact
    cases ha
    simp [Coordinator.raise]
  · have hsame : w'.coordinator.shuttingDown = w.coordinator.shuttingDown := by
      cases booking_of_step ha with
      | enrol _ _ _ _ hm _ _ => exact Ledger.shuttingDown_of_move hm
      | raise h _ _ _ => exact absurd h hact
      | arrive _ _ hc _ _ => rw [hc]
      | keep _ _ hb => rw [hb.coordinator]
      | leave _ _ hc _ _ | takeHooks _ hc _ _ | drain _ _ _ hc _ _ => rw [hc]; rfl
    simp [hsame, ih, Ne.symm hact]

theorem not_drain_of_step (hw : run env {} as = some w) (ha : step env w a = some w')
    (hs : Action.sweep ∉ as) (k : Nat) : a ≠ .sweepStep k .drain := by
  rintro rfl
  obtain ⟨s, hk, -⟩ := drain_of_step ha
  exact hs ((shuttingDown_iff_of_run hw).1 (shuttingDown_of_sweep hw hk))

/-- **Until a sweep begins the ids in the registry are those that are listed.** -/
theorem mem_ids_iff_listed (hw : run env {} as = some w) (hs : Action.sweep ∉ as) :
    id ∈ w.coordinator.ids ↔ Listed env as id := by
  refine run_induction (P := fun as w => Action.sweep ∉ as →
    (id ∈ w.coordinator.ids ↔ Listed env as id)) ?_ ?_ hw hs
  · intro _
    simp [Coordinator.ids, Listed, Took]
  · intro as a w w' hw ih ha hs
    simp only [List.mem_append, not_or] at hs
    have hd := not_drain_of_step hw ha hs.1
    rw [ids_of_step ha hd, listed_concat hw, ← ih hs.1]
    simp only [List.mem_append, List.mem_filter, Option.mem_toList, ne_eq, decide_not,
      Bool.not_eq_true', decide_eq_false_iff_not, or_comm]

/-! ## Runners in the registry -/

/-- Until a sweep begins, whoever has entered the registry is there, or was taken out. -/
theorem mem_ids_of_entered (hw : run env {} as = some w) (hs : Action.sweep ∉ as)
    {g : Registration} (hg : w.registrations[m]? = some g) (hent : g.HasEntered id) :
    id ∈ w.coordinator.ids ∨ Unregistered env as id := by
  refine run_induction (P := fun as w => Action.sweep ∉ as → ∀ (m : Nat) (g : Registration),
    w.registrations[m]? = some g → g.HasEntered id →
      id ∈ w.coordinator.ids ∨ Unregistered env as id) ?_ ?_ hw hs m g hg hent
  · intro _ m g hg
    simp [registrations] at hg
  · intro as a w w' hw ih ha hs n k hk hent
    simp only [List.mem_append, not_or] at hs
    have hd := not_drain_of_step hw ha hs.1
    -- an entry that was there is still there, unless it is named now
    have keep : id ∈ w.coordinator.ids ∨ Unregistered env as id →
        id ∈ w'.coordinator.ids ∨ Unregistered env (as ++ [a]) id := by
      rintro (hid | hu)
      · by_cases hu : w.unregisters a = some id
        · obtain ⟨e, he⟩ := Coordinator.mem_ids.1 hid
          exact Or.inr ⟨as, a, w, e, Took.last a hw, hu, he⟩
        · rw [ids_of_step ha hd]
          exact Or.inl (List.mem_append_left _ (List.mem_filter.2 ⟨hid, by simpa using hu⟩))
      · exact Or.inr hu.concat
    rcases enrol_or_bystands ha with ⟨m, g, g', e, b, -, hg, hmove, hr⟩ | hb
    · rw [hr] at hk
      rcases getElem?_set_cases hk with ⟨rfl, rfl⟩ | ⟨-, hk⟩
      · rcases hmove.entered_back hent with hent | hid | ⟨rfl, -⟩
        · exact keep (ih hs.1 m g hg hent)
        · exact Or.inl (Coordinator.mem_ids.2 ⟨e, hid⟩)
        · have := (ledger_of_run hw).refused m id hg
          exact absurd ((shuttingDown_iff_of_run hw).1 this) hs.1
      · exact keep (ih hs.1 n k hk hent)
    · rcases hb.registrations with hr | hr
      · exact keep (ih hs.1 n k (by rwa [hr] at hk) hent)
      · rw [hr] at hk
        rcases getElem?_concat_cases hk with hk | ⟨-, rfl⟩
        · exact keep (ih hs.1 n k hk hent)
        · cases hent.id?

/-- A guest whom nobody registers is not registered. -/
theorem idle_of_guest (hw : run env {} as = some w) (hn : ∀ m, Action.register m ∉ as)
    {x : Member} {g : Guest} (hx : w.members[m]? = some x) (hb : x.body = .guest g) :
    x.registration = .idle := by
  refine run_induction (P := fun as w => (∀ m, Action.register m ∉ as) → ∀ (m : Nat) (x : Member)
    (g : Guest), w.members[m]? = some x → x.body = .guest g → x.registration = .idle)
    ?_ ?_ hw hn m x g hx hb
  · intro _ m x g hx
    simp at hx
  · intro as a w w' hw ih ha hn m x' g' hx' hb'
    have hn' : ∀ m, Action.register m ∉ as := fun m hm => hn m (List.mem_append_left _ hm)
    rcases (effect_of_step ha).shift_back hx' with ⟨x, hx, hsh⟩ | ⟨-, hnew⟩
    · cases hbx : x.body with
      | handle h =>
        obtain ⟨h', hb'', -⟩ := (hsh.later (sound_of_run hw hx)).handle h hbx
        rw [hb'] at hb''
        cases hb''
      | guest g =>
        have hidle := ih hn' m x g hx hbx
        cases hsh with
        | same => exact hidle
        | cancel _ _ _ _ => exact hidle
        | call _ _ hb _ => rw [hbx] at hb; cases hb
        | turn ht =>
          cases ht with
          | guest _ _ => exact hidle
          | register n _ _ =>
            exact absurd (List.mem_append_right _ (List.mem_singleton_self _)) (hn m)
          | configure _ hb _ => rw [hbx] at hb; cases hb
          | createControl _ hb _ => rw [hbx] at hb; cases hb
          | start hb _ => rw [hbx] at hb; cases hb
          | copies _ hb => rw [hbx] at hb; cases hb
          | runner hb _ _ => rw [hbx] at hb; cases hb
          | pump _ hb _ _ _ => rw [hbx] at hb; cases hb
    · exact hnew.registration

/-- When only runners take ids out of the registry, the one that was taken out is that of a
    runner which has left. -/
theorem hasLeft_of_unregistered (hw : run env {} as = some w)
    (hn : ∀ id, Action.unregister id ∉ as) (hu : Unregistered env as id) :
    ∃ (m : Nat) (x : Member), w.members[m]? = some x ∧ x.registration.id? = some id ∧
      x.HasLeft := by
  obtain ⟨past, a, v, e, ht, hname, -⟩ := hu
  cases a with
  | unregister n =>
    exact absurd (ht.1.subset (List.mem_append_right _ (List.mem_singleton_self _))) (hn n)
  | runner m s =>
    cases s with
    | proceed =>
      simp only [unregisters, Option.bind_eq_bind, Option.bind_eq_some_iff] at hname
      obtain ⟨x, hx, h, hh, r, hr, hname⟩ := hname
      have hb := handle?_eq_some.1 hh
      split at hname
      · next o hst =>
        obtain ⟨rest, hrest⟩ := ht.rest hw
        obtain ⟨x', hx', hl⟩ := later_of_run ht.2 hrest hx
        obtain ⟨h', hb', hl'⟩ := hl.handle h hb
        obtain ⟨r', hr', -⟩ := hl'.runner r hr
        have hrank := Did.rank_lt ht.1 ht.2 hw hx hb hr (by simp [hst]) hx' hb' hr'
        exact ⟨m, x', hx', hl.id id hname, h', r', hb', hr',
          Stage.hasLeft_of_rank_lt o (hst ▸ hrank)⟩
      · cases hname
    | exit | cancel => cases hname
  | _ => cases hname

/-- **The members of the entries are the runners that are enrolled**, if only runners use the
    registry and no sweep has begun. -/
theorem exists_entry_iff_isEnrolled (hw : run env {} as = some w) (hs : Action.sweep ∉ as)
    (hreg : ∀ m, Action.register m ∉ as) (hun : ∀ id, Action.unregister id ∉ as) :
    (∃ p ∈ w.coordinator.registry, p.2.member = m) ↔
      ∃ x, w.members[m]? = some x ∧ x.isEnrolled = true := by
  have hL := ledger_of_run hw
  constructor
  · rintro ⟨p, hp, rfl⟩
    obtain ⟨g, hg, hent⟩ := hL.entry p hp
    obtain ⟨x, hx, rfl⟩ := exists_of_registrations hg
    refine ⟨x, hx, Member.isEnrolled_iff.2 ?_⟩
    have hne : x.registration ≠ .idle := fun hidle => by rw [hidle] at hent; cases hent.id?
    cases hb : x.body with
    | guest g => exact absurd (idle_of_guest hw hreg hx hb) hne
    | handle h =>
      cases hr : h.runner with
      | none => exact absurd ((sound_of_run hw hx h hb).idle hr).1 hne
      | some r =>
        refine ⟨h, r, rfl, hr, not_survivor_of_registration hw hx hb hr hne, ⟨p.1, hent⟩, ?_⟩
        by_contra hl
        exact not_hasLeft_of_mem hw hp hx ⟨h, r, hb, hr, by simpa using hl⟩
  · rintro ⟨x, hx, hen⟩
    obtain ⟨h, r, hb, hr, -, ⟨id, hent⟩, hl⟩ := Member.isEnrolled_iff.1 hen
    rcases mem_ids_of_entered hw hs (getElem?_registrations hx) hent with hid | hu
    · obtain ⟨e, he⟩ := Coordinator.mem_ids.1 hid
      obtain ⟨g, hg, hent'⟩ := hL.entry _ he
      exact ⟨_, he, hL.distinct _ _ _ _ id hg (getElem?_registrations hx) hent'.id? hent.id?⟩
    · obtain ⟨n, y, hy, hid, hleft⟩ := hasLeft_of_unregistered hw hun hu
      have hnm := hL.distinct _ _ _ _ id (getElem?_registrations hy) (getElem?_registrations hx) hid
        hent.id?
      rw [hnm, hx] at hy
      cases hy
      rw [hleft.runner hb hr] at hl
      cases hl

theorem nodup_members_of_run (hw : run env {} as = some w) :
    (w.coordinator.registry.map (·.2.member)).Nodup := by
  have hids := nodup_ids_of_run hw
  refine List.Nodup.map_on (fun p hp q hq hpq => ?_) (List.Nodup.of_map _ hids)
  obtain ⟨g, hg, hent⟩ := (ledger_of_run hw).entry p hp
  obtain ⟨g', hg', hent'⟩ := (ledger_of_run hw).entry q hq
  rw [hpq, hg'] at hg
  cases hg
  have hid := hent.id?
  rw [hent'.id?] at hid
  exact List.inj_on_of_nodup_map hids hp hq (Option.some.inj hid).symm

/-- **As many entries as enrolled runners.** -/
theorem count_eq_enrolled (hw : run env {} as = some w) (hs : Action.sweep ∉ as)
    (hreg : ∀ m, Action.register m ∉ as) (hun : ∀ id, Action.unregister id ∉ as) :
    w.coordinator.count = w.members.countP (·.isEnrolled) := by
  have hperm : (w.coordinator.registry.map (·.2.member)).Perm
      (placesOf (·.isEnrolled) w.members) := by
    refine (List.perm_ext_iff_of_nodup (nodup_members_of_run hw) (nodup_placesOf _ _)).2 fun m => ?_
    rw [mem_placesOf, ← exists_entry_iff_isEnrolled hw hs hreg hun, List.mem_map]
  rw [Coordinator.count, ← length_placesOf, ← hperm.length_eq, List.length_map]

/-- **The registry mirrors the runners.**  With fewer than `UInt64.size - 1` registrations, the
    ids that are returned differ, also as words of 64 bits, and nothing is overwritten when an
    entry is put in.  To take out an id that nobody has, or that was taken out, swept out or
    refused, changes nothing.  Until a sweep begins, the ids in the registry are those that
    were put in and that nobody has named since; and if only runners use the registry, it
    counts those that are no survivors, have entered it and have not left it. -/
theorem registry_mirrors_runners (hw : run env {} as = some w)
    (hfew : w.registrations.countP (·.id?.isSome) < UInt64.size - 1) :
    (∀ (m n id id' : Nat), w.registrations[m]? = some (.settled id) →
      w.registrations[n]? = some (.settled id') → UInt64.ofNat id = UInt64.ofNat id' → m = n) ∧
    (∀ past a v id, Took env as past a v → v.inserts a = some id →
      (∀ n ∈ v.coordinator.ids, UInt64.ofNat n ≠ UInt64.ofNat id) ∧
        ∃ v' e, step env v a = some v' ∧
          v'.coordinator.registry = v.coordinator.registry ++ [(id, e)]) ∧
    (∀ id, Absent env as w id → id ∉ w.coordinator.ids) ∧
    (∀ id, id ∉ w.coordinator.ids → step env w (.unregister id) = some w ∧
      ∀ a w', w.unregisters a = some id → step env w a = some w' →
        w'.coordinator = w.coordinator) ∧
    (Action.sweep ∉ as → (∀ id, id ∈ w.coordinator.ids ↔ Listed env as id) ∧
      ((∀ m, Action.register m ∉ as) → (∀ id, Action.unregister id ∉ as) →
        w.coordinator.count = w.members.countP (·.isEnrolled))) := by
  refine ⟨fun m n id id' hm hn heq => ?_, fun past a v id ht hi => ?_, fun id h => h.not_mem hw,
    fun id hid => ⟨?_, fun a w' hu ha => coordinator_of_unregisters ha hu hid⟩,
    fun hs => ⟨fun id => mem_ids_iff_listed hw hs, count_eq_enrolled hw hs⟩⟩
  · have hend : run env w [] = some w := rfl
    obtain rfl := eq_of_ofNat_eq (id_lt_of_few hw hend hfew hm rfl)
      (id_lt_of_few hw hend hfew hn rfl) heq
    exact (ledger_of_run hw).distinct m n _ _ id hm hn rfl rfl
  · obtain ⟨v', rest, ha, -⟩ := ht.next hw
    obtain ⟨rest', hrest⟩ := ht.rest hw
    obtain ⟨k, -, hk⟩ := enrolling_eq_some.1 (inserts_eq_some.1 hi).1
    obtain ⟨e, he⟩ := registry_of_inserts ha hi
    refine ⟨fun n hn heq => ?_, v', e, ha, he⟩
    obtain ⟨l, g, hg, hent⟩ := entered_of_mem_ids ht.2 hn
    have hlt := id_lt_of_few ht.2 hrest hfew hg hent.id?
    obtain rfl := eq_of_ofNat_eq hlt (id_lt_of_few ht.2 hrest hfew hk rfl) heq
    exact inserts_ne_of_tested ht.2 ⟨l, g, hg, Or.inr hent⟩ hi
  · simp [step, Coordinator.remove_of_not_mem hid]

/-- Three handles are started, the second as a survivor.  The third takes its id after the
    first and enters before it; its program is not found, and it leaves.  Then the first
    enters. -/
def overtakingStart : List Action :=
  List.flatten [
    [.create ["a"] .storing, .create ["b"] .storing, .create ["c"] .storing,
      .configure 1 (.survivor true), .start 0 true, .start 1 true, .start 2 true,
      .runner 0 .proceed, .runner 0 .proceed],
    List.replicate 8 (.runner 2 .proceed),
    [.runner 1 .proceed, .runner 1 .proceed, .runner 0 .proceed]]

/-- Only the first is listed, and to take out the id of the third once more changes
    nothing. -/
theorem registry_mirrors_runners_overtakingStart :
    ∃ w, run (.withoutPrograms {} true) {} overtakingStart = some w ∧
      w.registrations = [.inserted 1, .idle, .settled 2] ∧ w.coordinator.ids = [1] ∧
      w.coordinator.count = w.members.countP (·.isEnrolled) ∧
      Listed (.withoutPrograms {} true) overtakingStart 1 ∧
      ¬ Listed (.withoutPrograms {} true) overtakingStart 2 ∧
      step (.withoutPrograms {} true) w (.unregister 2) = some w := by
  have hrun : run (.withoutPrograms {} true) {} overtakingStart = some _ := rfl
  obtain ⟨-, -, -, hsame, hkeys⟩ := registry_mirrors_runners hrun (by decide)
  obtain ⟨hlist, hcount⟩ := hkeys (by simp [overtakingStart])
  refine ⟨_, hrun, rfl, rfl, ?_, (hlist 1).1 (by decide), fun h => ?_, (hsame 2 (by decide)).1⟩
  · exact hcount (by simp [overtakingStart]) (by simp [overtakingStart])
  · exact absurd ((hlist 2).2 h) (by decide)

end World

end Supervisor
