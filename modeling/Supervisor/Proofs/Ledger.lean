/-
  The registry against the registrations of the members.

  * `Registration.HasEntered g id`: the call has put its entry into the
    registry, or was refused and has returned;
  * `Sweep.entries`: what a sweep has taken out of the registry;
  * `Ledger`: ids are taken once, every entry in the registry or in a sweep is
    that of a member which has entered it, and once a sweep has drained the
    registry it is empty;
  * `ledger_of_run`: so it is after every run.
-/
import Supervisor.Proofs.Effect

namespace Supervisor

/-! ## Entries -/

/-- The call has put its entry into the registry, or has returned. -/
def Registration.HasEntered (g : Registration) (id : Nat) : Prop :=
  g = .inserted id ∨ g = .hooking id ∨ g = .settled id

theorem Registration.HasEntered.id? {g : Registration} {id : Nat} (h : g.HasEntered id) :
    g.id? = some id := by
  rcases h with rfl | rfl | rfl <;> rfl

theorem Registration.Move.hasEntered {hasHooks b : Bool} {e : Entry} {c c' : Coordinator}
    {g g' : Registration} (hm : Move hasHooks e c g g' c' b) {id : Nat} (h : g.HasEntered id) :
    g'.HasEntered id := by
  rcases h with rfl | rfl | rfl
  · cases hm with
    | claim => exact Or.inr (Or.inl rfl)
    | unhooked => exact Or.inr (Or.inr rfl)
  · cases hm with
    | install => exact Or.inr (Or.inr rfl)
  · cases hm

/-- Who has entered the registry had done so before, or goes in now, or was refused and is
    cancelled. -/
theorem Registration.Move.entered_back {hasHooks b : Bool} {e : Entry} {c c' : Coordinator}
    {g g' : Registration} (hm : Move hasHooks e c g g' c' b) {id : Nat} (h : g'.HasEntered id) :
    g.HasEntered id ∨ (id, e) ∈ c'.registry ∨ (g = .refused id ∧ b = true) := by
  have hid := h.id?
  cases hm with
  | number => rcases h with h | h | h <;> cases h
  | refuse n _ => rcases h with h | h | h <;> cases h
  | insert n _ =>
    cases hid
    exact Or.inr (Or.inl (List.mem_append_right _ (List.mem_singleton_self _)))
  | cancel n => cases hid; exact Or.inr (Or.inr ⟨rfl, rfl⟩)
  | claim n _ _ => cases hid; exact Or.inl (Or.inl rfl)
  | unhooked n _ => cases hid; exact Or.inl (Or.inl rfl)
  | install n => cases hid; exact Or.inl (Or.inr (Or.inl rfl))

/-- What a sweep has taken out of the registry. -/
def Sweep.entries (s : Sweep) : List (Nat × Entry) := s.joins.map fun j => (j.id, j.entry)

@[simp] theorem Sweep.entries_drain (now : Nat) (registry : List (Nat × Entry)) :
    (Sweep.drain now registry).entries = registry := by
  simp [entries, drain, Function.comp_def]

/-- To change a join otherwise than in its entry changes no entries. -/
theorem Sweep.entries_setJoin {s : Sweep} {i : Nat} {j j' : Join} (hj : s.joins[i]? = some j)
    (hid : j'.id = j.id) (he : j'.entry = j.entry) : (s.setJoin i j').entries = s.entries :=
  map_set_of_eq hj (by rw [hid, he])

/-! ## The ledger -/

/-- The registrations `gs`, by place, fit the coordinator and the sweeps. -/
structure Ledger (gs : List Registration) (c : Coordinator) (ss : List Sweep) : Prop where
  fresh : ∀ (m : Nat) (g : Registration) (id : Nat), gs[m]? = some g → g.id? = some id →
    id < c.nextId
  distinct : ∀ (m n : Nat) (g g' : Registration) (id : Nat), gs[m]? = some g →
    gs[n]? = some g' → g.id? = some id → g'.id? = some id → m = n
  entry : ∀ p ∈ c.registry, ∃ g, gs[p.2.member]? = some g ∧ g.HasEntered p.1
  taken : ∀ s ∈ ss, ∀ p ∈ s.entries, ∃ g, gs[p.2.member]? = some g ∧ g.HasEntered p.1
  raised : c.shuttingDown = true ↔ ss ≠ []
  refused : ∀ (m id : Nat), gs[m]? = some (.refused id) → c.shuttingDown = true
  drained : ∀ s ∈ ss, s.drainedAt.isSome → c.registry = []

namespace Ledger

variable {gs : List Registration} {c c' : Coordinator} {ss : List Sweep}

theorem empty : Ledger [] {} [] where
  fresh := nofun
  distinct := nofun
  entry := nofun
  taken := nofun
  raised := by simp
  refused := nofun
  drained := nofun

/-- A member comes who is not registered. -/
theorem concat (h : Ledger gs c ss) : Ledger (gs ++ [Registration.idle]) c ss := by
  have keep : ∀ (n : Nat) (g : Registration), gs[n]? = some g →
      (gs ++ [Registration.idle])[n]? = some g := by
    intro n g hg
    rw [List.getElem?_append_left (List.getElem?_eq_some_iff.1 hg).1, hg]
  have back : ∀ (n : Nat) (g : Registration) (id : Nat), (gs ++ [Registration.idle])[n]? = some g →
      g.id? = some id → gs[n]? = some g := by
    intro n g id hg hid
    rcases getElem?_concat_cases hg with hg | ⟨-, rfl⟩
    · exact hg
    · cases hid
  refine { h with fresh := ?_, distinct := ?_, entry := ?_, taken := ?_, refused := ?_ }
  · exact fun m g id hg hid => h.fresh m g id (back m g id hg hid) hid
  · exact fun m n g g' id hg hg' hid hid' =>
      h.distinct m n g g' id (back m g id hg hid) (back n g' id hg' hid') hid hid'
  · intro p hp
    obtain ⟨g, hg, he⟩ := h.entry p hp
    exact ⟨g, keep _ g hg, he⟩
  · intro s hs p hp
    obtain ⟨g, hg, he⟩ := h.taken s hs p hp
    exact ⟨g, keep _ g hg, he⟩
  · exact fun m id hg => h.refused m id (back m _ id hg rfl)

/-- Entries that are gone leave nothing to ask of them. -/
theorem remove (h : Ledger gs c ss) (id : Nat) : Ledger gs (c.remove id) ss := by
  refine { h with entry := fun p hp => ?_, drained := fun s hs hd => ?_ }
  · exact h.entry p (List.mem_filter.1 hp).1
  · simp [Coordinator.remove, h.drained s hs hd]

theorem takeHooks (h : Ledger gs c ss) : Ledger gs c.takeHooks ss := { h with }

/-- A sweep begins. -/
theorem raise (h : Ledger gs c ss) : Ledger gs c.raise (ss ++ [({} : Sweep)]) := by
  refine { h with taken := ?_, raised := ?_, refused := fun _ _ _ => rfl, drained := ?_ }
  · intro s hs p hp
    rcases List.mem_append.1 hs with hs | hs
    · exact h.taken s hs p hp
    · rw [List.mem_singleton.1 hs] at hp
      cases hp
  · simp [Coordinator.raise]
  · intro s hs hd
    rcases List.mem_append.1 hs with hs | hs
    · exact h.drained s hs hd
    · rw [List.mem_singleton.1 hs] at hd
      cases hd

/-- A sweep takes all entries out. -/
theorem drain (h : Ledger gs c ss) (k now : Nat) :
    Ledger gs c.drain (ss.set k (.drain now c.registry)) := by
  refine { h with entry := nofun, taken := ?_, raised := ?_, drained := fun _ _ _ => rfl }
  · intro s hs p hp
    rcases List.mem_or_eq_of_mem_set hs with hs | rfl
    · exact h.taken s hs p hp
    · rw [Sweep.entries_drain] at hp
      exact h.entry p hp
  · rw [show c.drain.shuttingDown = c.shuttingDown from rfl, h.raised]
    simp

/-- A sweep goes on with what it has taken out. -/
theorem setSweep (h : Ledger gs c ss) {k : Nat} {s s' : Sweep} (hs : ss[k]? = some s)
    (he : s'.entries = s.entries) (hd : s'.drainedAt = s.drainedAt) :
    Ledger gs c (ss.set k s') := by
  have hmem := List.mem_of_getElem? hs
  refine { h with taken := ?_, raised := by rw [h.raised]; simp, drained := ?_ }
  · intro t ht p hp
    rcases List.mem_or_eq_of_mem_set ht with ht | rfl
    · exact h.taken t ht p hp
    · rw [he] at hp
      exact h.taken s hmem p hp
  · intro t ht htd
    rcases List.mem_or_eq_of_mem_set ht with ht | rfl
    · exact h.drained t ht htd
    · rw [hd] at htd
      exact h.drained s hmem htd

section
variable {hasHooks b : Bool} {e : Entry} {g g' : Registration} {m : Nat}

theorem nextId_le_of_move (hm : Registration.Move hasHooks e c g g' c' b) :
    c.nextId ≤ c'.nextId := by
  cases hm with
  | number => exact Nat.le_succ _
  | _ => exact Nat.le_refl _

/-- An id is the one that the call had, or the next one. -/
theorem id?_back_of_move (hm : Registration.Move hasHooks e c g g' c' b) {id : Nat}
    (hid : g'.id? = some id) : g.id? = some id ∨ (id = c.nextId ∧ c.nextId < c'.nextId) := by
  cases hm with
  | number => cases hid; exact Or.inr ⟨rfl, Nat.lt_succ_self _⟩
  | _ => exact Or.inl hid

/-- An entry was in the registry before, or is that of the call, which goes in
    only while no sweep has begun. -/
theorem mem_registry_of_move (hm : Registration.Move hasHooks e c g g' c' b) {p : Nat × Entry}
    (hp : p ∈ c'.registry) :
    p ∈ c.registry ∨ (p.2 = e ∧ g' = .inserted p.1 ∧ c.shuttingDown = false) := by
  cases hm with
  | insert id hs =>
    rcases List.mem_append.1 hp with hp | hp
    · exact Or.inl hp
    · rw [List.mem_singleton.1 hp]
      exact Or.inr ⟨rfl, rfl, hs⟩
  | _ => exact Or.inl hp

/-- What is in the registry stays there. -/
theorem mem_registry_move (hm : Registration.Move hasHooks e c g g' c' b) {p : Nat × Entry}
    (hp : p ∈ c.registry) : p ∈ c'.registry := by
  cases hm with
  | insert id hs => exact List.mem_append_left _ hp
  | _ => exact hp

theorem shuttingDown_of_move (hm : Registration.Move hasHooks e c g g' c' b) :
    c'.shuttingDown = c.shuttingDown := by
  cases hm <;> rfl

/-- A call that registers takes a step. -/
theorem enrol (h : Ledger gs c ss) (hg : gs[m]? = some g)
    (hm : Registration.Move hasHooks e c g g' c' b) (he : e.member = m) :
    Ledger (gs.set m g') c' ss := by
  obtain ⟨hlt, -⟩ := List.getElem?_eq_some_iff.1 hg
  -- whoever has an id now had it before, or has just taken the next one
  have back : ∀ (n : Nat) (k : Registration) (id : Nat), (gs.set m g')[n]? = some k →
      k.id? = some id → (∃ k', gs[n]? = some k' ∧ k'.id? = some id) ∨
        (n = m ∧ id = c.nextId ∧ c.nextId < c'.nextId) := by
    intro n k id hk hid
    rcases getElem?_set_cases hk with ⟨rfl, rfl⟩ | ⟨-, hk⟩
    · rcases id?_back_of_move hm hid with hid | hnew
      · exact Or.inl ⟨g, hg, hid⟩
      · exact Or.inr ⟨rfl, hnew⟩
    · exact Or.inl ⟨k, hk, hid⟩
  have keep : ∀ p : Nat × Entry, (∃ k, gs[p.2.member]? = some k ∧ k.HasEntered p.1) →
      ∃ k, (gs.set m g')[p.2.member]? = some k ∧ k.HasEntered p.1 := by
    rintro p ⟨k, hk, hent⟩
    by_cases hn : m = p.2.member
    · rw [← hn, hg] at hk
      cases hk
      exact ⟨g', by rw [← hn]; simp [hlt], hm.hasEntered hent⟩
    · exact ⟨k, by rw [List.getElem?_set_ne hn, hk], hent⟩
  refine ⟨?_, ?_, ?_, fun s hs p hp => keep p (h.taken s hs p hp), ?_, ?_, ?_⟩
  · intro n k id hk hid
    rcases back n k id hk hid with ⟨k', hk', hid'⟩ | ⟨-, rfl, hlt'⟩
    · exact Nat.lt_of_lt_of_le (h.fresh n k' id hk' hid') (nextId_le_of_move hm)
    · exact hlt'
  · intro n n' k k' id hk hk' hid hid'
    rcases back n k id hk hid with ⟨k₁, hk₁, hid₁⟩ | ⟨rfl, rfl, -⟩
    · rcases back n' k' id hk' hid' with ⟨k₂, hk₂, hid₂⟩ | ⟨rfl, rfl, -⟩
      · exact h.distinct n n' k₁ k₂ id hk₁ hk₂ hid₁ hid₂
      · exact absurd (h.fresh n k₁ _ hk₁ hid₁) (Nat.lt_irrefl _)
    · rcases back n' k' _ hk' hid' with ⟨k₂, hk₂, hid₂⟩ | ⟨rfl, -, -⟩
      · exact absurd (h.fresh n' k₂ _ hk₂ hid₂) (Nat.lt_irrefl _)
      · rfl
  · intro p hp
    rcases mem_registry_of_move hm hp with hp | ⟨hpe, hins, -⟩
    · exact keep p (h.entry p hp)
    · exact ⟨g', by rw [hpe, he]; simp [hlt], Or.inl hins⟩
  · rw [shuttingDown_of_move hm]; exact h.raised
  · intro n id hn
    rw [shuttingDown_of_move hm]
    rcases getElem?_set_cases hn with ⟨rfl, hr⟩ | ⟨-, hn⟩
    · cases hm with
      | refuse id hs => exact hs
      | _ => cases hr
    · exact h.refused n id hn
  · -- once the registry was drained the flag is up, and nothing goes in
    intro s hs hd
    have hempty := h.drained s hs hd
    have hup : c.shuttingDown = true := h.raised.2 (List.ne_nil_of_mem hs)
    refine List.eq_nil_iff_forall_not_mem.2 fun p hp => ?_
    rcases mem_registry_of_move hm hp with hp | ⟨-, -, hdown⟩
    · rw [hempty] at hp; cases hp
    · rw [hup] at hdown; cases hdown

end

end Ledger

/-! ## Every run keeps its ledger -/

namespace World

/-- The id that an action names to be taken out of the registry: that of
    somebody, or that of a runner which leaves. -/
def unregisters (w : World) : Action → Option Nat
  | .unregister id => some id
  | .runner m .proceed => do
    let x ← w.members[m]?
    let r ← (← x.handle?).runner
    match r.stage with
    | .leaving _ => x.registration.id?
    | _ => none
  | _ => none

/-- The registrations of all members, by place. -/
def registrations (w : World) : List Registration := w.members.map (·.registration)

theorem getElem?_registrations {w : World} {m : Nat} {x : Member} (hx : w.members[m]? = some x) :
    w.registrations[m]? = some x.registration := by
  simp [registrations, hx]

theorem exists_of_registrations {w : World} {m : Nat} {g : Registration}
    (hg : w.registrations[m]? = some g) : ∃ x, w.members[m]? = some x ∧ x.registration = g := by
  simpa [registrations, Option.map_eq_some_iff] using hg

/-- To put in a member with the same registration changes no registrations. -/
theorem map_registration_set {ms : List Member} {m : Nat} {x x' : Member}
    (hx : ms[m]? = some x) (h : x'.registration = x.registration) :
    (ms.set m x').map (·.registration) = ms.map (·.registration) :=
  map_set_of_eq hx h

theorem map_registration_cancel (ms : List Member) (m : Nat) :
    (ms.modify m fun x => { x with cancel := true }).map (·.registration) =
      ms.map (·.registration) := by
  apply List.ext_getElem?
  intro n
  rw [List.getElem?_map, List.getElem?_modify, List.getElem?_map]
  cases ms[n]? with
  | none => rfl
  | some x => by_cases hn : m = n <;> simp [hn]

end World

section
variable {env : Environment} {w w' : World} {m : Nat} {x x' : Member} {a : Action}
  {c' : Coordinator}

theorem World.unregisters_leave {h : Handle} {r : Runner} {o : Outcome}
    (hx : w.members[m]? = some x) (hb : x.body = .handle h) (hr : h.runner = some r)
    (hs : r.stage = .leaving o) :
    w.unregisters (.runner m .proceed) = x.registration.id? := by
  simp [unregisters, hx, handle?_eq_some.2 hb, hr, hs]

/-- **A turn leaves registration and cancel flag alone**, and takes out at most
    the id that it names; or it is a step of the registration. -/
theorem Turn.enrolment (hx : w.members[m]? = some x) (ht : Turn env w m x a x' c') :
    (x'.registration = x.registration ∧ x'.cancel = x.cancel ∧
      (c' = w.coordinator ∨
        ∃ id, w.unregisters a = some id ∧ c' = w.coordinator.remove id)) ∨
    ∃ b, Registration.Move env.hasHooks ⟨x.label, m⟩ w.coordinator x.registration
      x'.registration c' b ∧ x'.cancel = (x.cancel || b) := by
  cases ht with
  | register n _ hn => exact Or.inr ⟨n.cancels, Registration.move_of_step hn, rfl⟩
  | runner hb hr hm =>
    cases hm with
    | register n _ hn => exact Or.inr ⟨n.cancels, Registration.move_of_step hn, rfl⟩
    | leave o hs =>
      refine Or.inl ⟨rfl, rfl, ?_⟩
      cases hid : x.registration.id? with
      | none => exact Or.inl rfl
      | some id => exact Or.inr ⟨id, by rw [World.unregisters_leave hx hb hr hs, hid], rfl⟩
    | _ => exact Or.inl ⟨rfl, rfl, Or.inl rfl⟩
  | _ => exact Or.inl ⟨rfl, rfl, Or.inl rfl⟩

theorem Call.Move.registration {bound now : Nat} {held : Bool} {h : Handle} {k : Call}
    {s : CallStage} (hm : k.Move bound now held x h s x') :
    x'.registration = x.registration := by
  cases hm <;> rfl

/-- **A registration is what it was, or has taken one step**, which made the
    coordinator what it is now. -/
theorem Effect.registration_back (he : Effect env w a w') (hx' : w'.members[m]? = some x') :
    x'.registration = .idle ∨
    (∃ x, w.members[m]? = some x ∧ x'.registration = x.registration) ∨
    ∃ x b, w.members[m]? = some x ∧ x'.cancel = (x.cancel || b) ∧
      Registration.Move env.hasHooks ⟨x.label, m⟩ w.coordinator x.registration x'.registration
        w'.coordinator b := by
  cases he with
  | arrive y hy =>
    rcases getElem?_concat_cases hx' with hx | ⟨-, rfl⟩
    · exact Or.inr (Or.inl ⟨x', hx, rfl⟩)
    · exact Or.inl hy.registration
  | turn pid log hy ht =>
    rcases getElem?_set_cases hx' with ⟨rfl, rfl⟩ | ⟨-, hx⟩
    · rcases ht.enrolment hy with ⟨hreg, -, -⟩ | ⟨b, hm, hc⟩
      · exact Or.inr (Or.inl ⟨_, hy, hreg⟩)
      · exact Or.inr (Or.inr ⟨_, b, hy, hc, hm⟩)
    · exact Or.inr (Or.inl ⟨x', hx, rfl⟩)
  | proceed log hk hy hb hm =>
    rcases getElem?_set_cases hx' with ⟨rfl, rfl⟩ | ⟨-, hx⟩
    · exact Or.inr (Or.inl ⟨_, hy, hm.registration⟩)
    · exact Or.inr (Or.inl ⟨x', hx, rfl⟩)
  | @cancel k i s j hs hj hd =>
    rw [List.getElem?_modify, Option.map_eq_map, Option.map_eq_some_iff] at hx'
    obtain ⟨x, hx, rfl⟩ := hx'
    exact Or.inr (Or.inl ⟨x, hx, by split <;> rfl⟩)
  | _ => exact Or.inr (Or.inl ⟨x', hx', rfl⟩)

/-- Every action keeps the ledger. -/
theorem Effect.ledger (he : Effect env w a w')
    (h : Ledger w.registrations w.coordinator w.sweeps) :
    Ledger w'.registrations w'.coordinator w'.sweeps := by
  cases he with
  | arrive x hx =>
    simp only [World.registrations, List.map_append, List.map_cons, List.map_nil, hx.registration]
    exact h.concat
  | turn pid log hx ht =>
    rcases ht.enrolment hx with ⟨hreg, -, hc⟩ | ⟨b, hm, -⟩
    · simp only [World.registrations, World.map_registration_set hx hreg]
      rcases hc with rfl | ⟨id, -, rfl⟩
      · exact h
      · exact h.remove id
    · simp only [World.registrations, List.map_set]
      exact h.enrol (World.getElem?_registrations hx) hm rfl
  | unregister id => exact h.remove id
  | takeHooks => exact h.takeHooks
  | proceed log hk hx hb hm =>
    simp only [World.registrations, World.map_registration_set hx hm.registration]
    exact h
  | sweep => exact h.raise
  | drain log hs hd => exact h.drain _ _
  | cancel hs hj hd =>
    simp only [World.registrations, World.map_registration_cancel]
    exact h.setSweep hs (Sweep.entries_setJoin hj rfl rfl) rfl
  | stopped hs hj _ _ => exact h.setSweep hs (Sweep.entries_setJoin hj rfl rfl) rfl
  | timedOut log hs hj _ _ _ => exact h.setSweep hs (Sweep.entries_setJoin hj rfl rfl) rfl
  | report log hs _ _ => exact h.setSweep hs rfl rfl
  | _ => exact h

/-- **The ledger is kept by every run.** -/
theorem World.ledger_of_run {as : List Action} (h : run env {} as = some w) :
    Ledger w.registrations w.coordinator w.sweeps := by
  refine run_induction (P := fun _ w => Ledger w.registrations w.coordinator w.sweeps) ?_ ?_ h
  · exact Ledger.empty
  · exact fun _ _ _ _ _ ih ha => (effect_of_step ha).ledger ih

/-- A member has entered the entries of the registry that are its own. -/
theorem World.hasEntered_of_mem {as : List Action} (h : run env {} as = some w)
    {p : Nat × Entry} (hp : p ∈ w.coordinator.registry) (hx : w.members[p.2.member]? = some x) :
    x.registration.HasEntered p.1 := by
  obtain ⟨g, hg, hent⟩ := (ledger_of_run h).entry p hp
  rw [getElem?_registrations hx] at hg
  cases hg
  exact hent

/-- The entry of a sweep is that of a member. -/
theorem World.exists_member_of_join {as : List Action} (h : run env {} as = some w) {k i : Nat}
    {s : Sweep} {j : Join} (hs : w.sweeps[k]? = some s) (hj : s.joins[i]? = some j) :
    ∃ x, w.members[j.entry.member]? = some x ∧ x.registration.HasEntered j.id := by
  have hp : (j.id, j.entry) ∈ s.entries :=
    List.mem_map.2 ⟨j, List.mem_of_getElem? hj, rfl⟩
  obtain ⟨g, hg, he⟩ := (ledger_of_run h).taken s (List.mem_of_getElem? hs) _ hp
  obtain ⟨x, hx, rfl⟩ := exists_of_registrations hg
  exact ⟨x, hx, he⟩

end

end Supervisor
