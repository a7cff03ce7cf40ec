/-
  Which action enters what into the books of the coordinator.

  * `World.enrols`: the member whose registration takes a step in an action;
    `World.inserts` and `World.installs` tell the steps apart that put an id into the
    registry and that give the exit hook to the host;
  * `World.Booking`: what an action makes of the registrations, of the coordinator and of
    what the sweeps have taken out, and which action that is.  `Effect` says what may have
    been done; this also says what an action that was taken must have done
    (`booking_of_step`);
  * `InsertedBy`: in a run, the registration of a member has put an id into the registry.
-/
import Supervisor.Proofs.Footprint
import Supervisor.Proofs.Ledger

namespace Supervisor

namespace World

variable {env : Environment} {w w' : World} {a : Action} {m : Nat} {x : Member} {h : Handle}
  {r : Runner}

/-! ## Steps of registrations -/

/-- The member whose registration takes a step in an action. -/
def enrols (w : World) : Action → Option Nat
  | .register m => (w.members[m]?.bind (·.guest?)).map fun _ => m
  | .runner m .proceed => do
    let r ← (← w.handle? m).runner
    if r.stage = .registering then some m else none
  | _ => none

/-- How far the registration has come that takes a step in an action. -/
def enrolling (w : World) (a : Action) : Option Registration :=
  (w.enrols a).bind fun m => w.registrations[m]?

/-- The id that an action puts into the registry. -/
def inserts (w : World) (a : Action) : Option Nat :=
  match w.enrolling a with
  | some (.numbered id) => if w.coordinator.shuttingDown then none else some id
  | _ => none

/-- Whether an action gives the exit hook to the host. -/
def installs (w : World) (a : Action) : Bool :=
  match w.enrolling a with
  | some (.hooking _) => true
  | _ => false

theorem inserts_eq_some {id : Nat} : w.inserts a = some id ↔
    w.enrolling a = some (.numbered id) ∧ w.coordinator.shuttingDown = false := by
  unfold inserts
  split
  · next n hn => cases w.coordinator.shuttingDown <;> simp [hn]
  · next hne =>
    simp only [false_iff, reduceCtorEq, not_and]
    exact fun hn => absurd hn (hne id)

theorem installs_eq_true : w.installs a = true ↔ ∃ id, w.enrolling a = some (.hooking id) := by
  unfold installs
  split
  · next n hn => simp [hn]
  · next hne =>
    simp only [Bool.false_eq_true, false_iff, not_exists]
    exact hne

theorem enrolling_eq_some {g : Registration} :
    w.enrolling a = some g ↔ ∃ m, w.enrols a = some m ∧ w.registrations[m]? = some g := by
  simp [enrolling, Option.bind_eq_some_iff]

theorem enrolling_eq {m : Nat} (hm : w.enrols a = some m) :
    w.enrolling a = w.registrations[m]? := by
  simp [enrolling, hm]

/-! ## What an action does to the books -/

/-- What the sweeps have taken out of the registry, by place. -/
def takings (w : World) : List (List (Nat × Entry)) := w.sweeps.map (·.entries)

/-- The books are as they were. -/
structure SameBooks (w w' : World) : Prop where
  registrations : w'.registrations = w.registrations
  coordinator : w'.coordinator = w.coordinator
  takings : w'.takings = w.takings

/-- What an action that was taken has done to the books. -/
inductive Booking (env : Environment) (w : World) (a : Action) (w' : World) : Prop where
  | enrol {m : Nat} {g g' : Registration} {e : Entry} {b : Bool} : w.enrols a = some m →
      w.unregisters a = none → w.registrations[m]? = some g → e.member = m →
      Registration.Move env.hasHooks e w.coordinator g g' w'.coordinator b →
      w'.registrations = w.registrations.set m g' → w'.takings = w.takings → Booking env w a w'
  | leave {id : Nat} : w.enrols a = none → w.unregisters a = some id →
      w'.coordinator = w.coordinator.remove id → w'.registrations = w.registrations →
      w'.takings = w.takings → Booking env w a w'
  | arrive : w.enrols a = none → w.unregisters a = none → w'.coordinator = w.coordinator →
      w'.registrations = w.registrations ++ [.idle] → w'.takings = w.takings → Booking env w a w'
  | keep : w.enrols a = none → w.unregisters a = none → SameBooks w w' → Booking env w a w'
  | takeHooks : a = .takeHooks → w'.coordinator = w.coordinator.takeHooks →
      w'.registrations = w.registrations → w'.takings = w.takings → Booking env w a w'
  | raise : a = .sweep → w'.coordinator = w.coordinator.raise →
      w'.registrations = w.registrations → w'.takings = w.takings ++ [[]] → Booking env w a w'
  | drain {k : Nat} {s : Sweep} : a = .sweepStep k .drain → w.sweeps[k]? = some s →
      s.drainedAt = none → w'.coordinator = w.coordinator.drain →
      w'.registrations = w.registrations →
      w'.takings = w.takings.set k w.coordinator.registry → Booking env w a w'

theorem registrations_setMember {y : Member} (hx : w.members[m]? = some x)
    (hy : y.registration = x.registration) :
    (w.setMember m y).registrations = w.registrations :=
  map_registration_set hx hy

theorem takings_set {k : Nat} {s s' : Sweep} (hs : w.sweeps[k]? = some s)
    (he : s'.entries = s.entries) : (w.sweeps.set k s').map (·.entries) = w.takings :=
  map_set_of_eq hs he

theorem sameBooks_of_onGuest {f : Member → Guest → Option Guest} (hf : w.onGuest m f = some w') :
    SameBooks w w' := by
  simp only [onGuest, Option.bind_eq_bind, Option.bind_eq_some_iff, Option.pure_def,
    Option.some.injEq] at hf
  obtain ⟨x, hx, g, -, g', -, rfl⟩ := hf
  exact ⟨registrations_setMember hx rfl, rfl, rfl⟩

theorem sameBooks_of_onHandle {f : Handle → Except Error Handle}
    (hf : w.onHandle m f = some w') : SameBooks w w' := by
  obtain ⟨x, hd, hx, -, ⟨hd', -, rfl⟩ | ⟨e, -, rfl⟩⟩ := onHandle_eq_some hf
  · exact ⟨registrations_setMember hx rfl, rfl, rfl⟩
  · exact ⟨rfl, rfl, rfl⟩

theorem enrols_runner (hx : w.members[m]? = some x) (hb : x.body = .handle h)
    (hr : h.runner = some r) :
    w.enrols (.runner m .proceed) = if r.stage = .registering then some m else none := by
  simp [enrols, handle?, hx, Member.handle?, hb, hr]

theorem unregisters_runner (hx : w.members[m]? = some x) (hb : x.body = .handle h)
    (hr : h.runner = some r) (hs : ∀ o, r.stage ≠ .leaving o) :
    w.unregisters (.runner m .proceed) = none := by
  simp only [unregisters, hx, handle?_eq_some.2 hb, hr, Option.bind_eq_bind, Option.bind_some]

theorem booking_of_runnerStep {s : RunnerStep} (ha : runnerStep env w m s = some w') :
    Booking env w (.runner m s) w' := by
  obtain ⟨x, h, r, next, hx, hb, hr, hn, pid, rfl⟩ := runnerStep_eq_some ha
  have hm := Runner.move_of_step hb hr hn
  -- all that is left open by a step which is none of a registration
  have keep : (s = .proceed → r.stage ≠ .registering ∧ ∀ o, r.stage ≠ .leaving o) →
      next.member.registration = x.registration → next.coordinator = w.coordinator →
      Booking env w (.runner m s) (accept { w with nextPid := pid } m next) := by
    intro hs hreg hc
    refine .keep ?_ ?_ ⟨map_registration_set hx hreg, hc, rfl⟩
    · cases s with
      | proceed => rw [enrols_runner hx hb hr, if_neg (hs rfl).1]
      | exit | cancel => rfl
    · cases s with
      | proceed => exact unregisters_runner hx hb hr (hs rfl).2
      | exit | cancel => rfl
  generalize hmem : next.member = x' at hm keep
  generalize hco : next.coordinator = c' at hm keep
  cases hm with
  | register n hs hstep =>
    have hmove := Registration.move_of_step hstep
    rw [← hco] at hmove
    refine .enrol ?_ ?_ (getElem?_registrations hx) rfl hmove ?_ rfl
    · rw [enrols_runner hx hb hr, if_pos hs]
    · exact unregisters_runner hx hb hr fun o ho => by rw [hs] at ho; cases ho
    · simp only [registrations, accept, setMember, note, List.map_set, hmem]
      rfl
  | leave o hs =>
    have hnot : w.enrols (.runner m .proceed) = none := by
      rw [enrols_runner hx hb hr, hs]
      rfl
    have hreg : (accept { w with nextPid := pid } m next).registrations = w.registrations :=
      map_registration_set hx (by rw [hmem]; rfl)
    cases hid : x.registration.id? with
    | none =>
      refine .keep hnot ?_ ⟨hreg, hco.trans (by rw [hid]; rfl), rfl⟩
      rw [unregisters_leave hx hb hr hs, hid]
    | some id =>
      refine .leave hnot ?_ (hco.trans (by rw [hid]; rfl)) hreg rfl
      rw [unregisters_leave hx hb hr hs, hid]
  | calm k r' hc _ _ _ _ =>
    refine keep (fun _ => ?_) rfl rfl
    cases hst : r.stage <;> simp_all <;> cases hc
  | fall k hwr _ =>
    refine keep (fun _ => ?_) rfl rfl
    cases hst : r.stage <;> simp_all [Stage.isWriting]
  | exit | cancel => exact keep (by simp) rfl rfl
  | launch p hs _ => exact keep (fun _ => by simp [hs]) rfl rfl
  | disable o hs | detach o hs | record o hs | forget o hs | publish o hs =>
    exact keep (fun _ => by simp [hs]) rfl rfl

theorem booking_of_sweepStep {k : Nat} {t : SweepStep} (ha : sweepStep env w k t = some w') :
    Booking env w (.sweepStep k t) w' := by
  cases sweepTurn_of_sweepStep ha with
  | drain log hs hd =>
    refine .drain rfl hs hd rfl rfl ?_
    simp only [takings, List.map_set, Sweep.entries_drain]
  | cancel hs hj _ =>
    exact .keep rfl rfl ⟨map_registration_cancel _ _, rfl,
      takings_set hs (Sweep.entries_setJoin hj rfl rfl)⟩
  | stopped hs hj _ _ =>
    exact .keep rfl rfl ⟨rfl, rfl, takings_set hs (Sweep.entries_setJoin hj rfl rfl)⟩
  | timedOut log hs hj _ _ _ =>
    exact .keep rfl rfl ⟨rfl, rfl, takings_set hs (Sweep.entries_setJoin hj rfl rfl)⟩
  | report log hs _ _ => exact .keep rfl rfl ⟨rfl, rfl, takings_set hs rfl⟩

/-- **The actions that were taken have done this to the books.** -/
theorem booking_of_step (ha : step env w a = some w') : Booking env w a w' := by
  cases a with
  | welcome label g => cases ha; exact .arrive rfl rfl rfl (by simp [registrations]) rfl
  | register m =>
    simp only [step, Option.bind_eq_bind, Option.bind_eq_some_iff, Option.pure_def,
      Option.some.injEq] at ha
    obtain ⟨x, hx, g, hg, n, hn, rfl⟩ := ha
    obtain ⟨n', hn', hm, hc⟩ := Member.register_eq_some hn
    have hmove := Registration.move_of_step hn'
    rw [← hc] at hmove
    refine .enrol (by simp [enrols, hx, hg]) rfl (getElem?_registrations hx) rfl hmove ?_ rfl
    simp [registrations, accept, setMember, note, List.map_set, hm]
  | unregister id => cases ha; exact .leave rfl rfl rfl rfl rfl
  | setState m s => exact .keep rfl rfl (sameBooks_of_onGuest ha)
  | vanish m => exact .keep rfl rfl (sameBooks_of_onGuest ha)
  | react m => exact .keep rfl rfl (sameBooks_of_onGuest ha)
  | create command sink =>
    simp only [step] at ha
    split at ha
    · cases ha; exact .arrive rfl rfl rfl (by simp [registrations, Member.ofHandle]) rfl
    · cases ha; exact .keep rfl rfl ⟨rfl, rfl, rfl⟩
  | configure m c => exact .keep rfl rfl (sameBooks_of_onHandle ha)
  | createControl m label => exact .keep rfl rfl (sameBooks_of_onHandle ha)
  | start m b =>
    obtain ⟨x, hd, hx, -, ⟨hd', -, rfl⟩ | ⟨e, -, rfl⟩⟩ := start_eq_some ha
    · exact .keep rfl rfl ⟨registrations_setMember hx rfl, rfl, rfl⟩
    · exact .keep rfl rfl ⟨rfl, rfl, rfl⟩
  | copy m =>
    simp only [step] at ha
    exact .keep rfl rfl (sameBooks_of_onHandle ha)
  | drop m =>
    simp only [step] at ha
    exact .keep rfl rfl (sameBooks_of_onHandle ha)
  | runner m s => exact booking_of_runnerStep ha
  | pump m e =>
    obtain ⟨x, hd, r, next, hx, hb, hr, hn, rfl⟩ := pumpStep_eq_some ha
    simp only [Runner.pumpStep, Option.bind_eq_bind, Option.bind_eq_some_iff, Option.pure_def,
      Option.some.injEq] at hn
    obtain ⟨p, -, next', -, rfl⟩ := hn
    exact .keep rfl rfl ⟨map_registration_set hx rfl, rfl, rfl⟩
  | call kind m =>
    simp only [step] at ha
    split at ha
    · cases ha; exact .keep rfl rfl ⟨rfl, rfl, rfl⟩
    · cases ha
  | proceed i =>
    obtain ⟨k, x, hd, s, x', log, -, hx, -, hm, rfl⟩ := exists_move_of_proceed ha
    exact .keep rfl rfl ⟨map_registration_set hx hm.registration, rfl, rfl⟩
  | abandon i =>
    obtain ⟨k, -, -, rfl⟩ := abandon_eq_some ha
    exact .keep rfl rfl ⟨rfl, rfl, rfl⟩
  | sweep => cases ha; exact .raise rfl rfl rfl (by simp [takings, Sweep.entries])
  | sweepStep k t => exact booking_of_sweepStep ha
  | takeHooks => cases ha; exact .takeHooks rfl rfl rfl rfl
  | release => cases ha; exact .keep rfl rfl ⟨rfl, rfl, rfl⟩
  | pass ms => cases ha; exact .keep rfl rfl ⟨rfl, rfl, rfl⟩

/-- An action that is no step of a registration leaves the ids, the exit hook and the
    registrations alone; a member may have come. -/
structure Bystands (w : World) (a : Action) (w' : World) : Prop where
  enrols : w.enrols a = none
  nextId : w'.coordinator.nextId = w.coordinator.nextId
  hookClaimed : w'.coordinator.hookClaimed = w.coordinator.hookClaimed
  hooksInstalled : w'.coordinator.hooksInstalled = w.coordinator.hooksInstalled
  registrations : w'.registrations = w.registrations ∨
    w'.registrations = w.registrations ++ [.idle]

/-- An action is a step of one registration, or of none. -/
theorem enrol_or_bystands (ha : step env w a = some w') :
    (∃ (m : Nat) (g g' : Registration) (e : Entry) (b : Bool), w.enrols a = some m ∧
      w.registrations[m]? = some g ∧
      Registration.Move env.hasHooks e w.coordinator g g' w'.coordinator b ∧
      w'.registrations = w.registrations.set m g') ∨ Bystands w a w' := by
  cases booking_of_step ha with
  | enrol hm _ hg _ hmove hr _ => exact Or.inl ⟨_, _, _, _, _, hm, hg, hmove, hr⟩
  | leave hn _ hc hr _ =>
    exact Or.inr ⟨hn, by rw [hc]; rfl, by rw [hc]; rfl, by rw [hc]; rfl, Or.inl hr⟩
  | arrive hn _ hc hr _ => exact Or.inr ⟨hn, by rw [hc], by rw [hc], by rw [hc], Or.inr hr⟩
  | keep hn _ hb =>
    exact Or.inr ⟨hn, by rw [hb.coordinator], by rw [hb.coordinator], by rw [hb.coordinator],
      Or.inl hb.registrations⟩
  | takeHooks hact hc hr _ | raise hact hc hr _ | drain hact _ _ hc hr _ =>
    subst hact
    exact Or.inr ⟨rfl, by rw [hc]; rfl, by rw [hc]; rfl, by rw [hc]; rfl, Or.inl hr⟩

/-- Who is registered stays at its place when a member comes. -/
theorem Bystands.getElem? (hb : Bystands w a w') {g : Registration}
    (hg : w.registrations[m]? = some g) : w'.registrations[m]? = some g := by
  rcases hb.registrations with hr | hr
  · rw [hr, hg]
  · rw [hr, List.getElem?_append_left (List.getElem?_eq_some_iff.1 hg).1, hg]

/-! ## Insertions in a run -/

/-- In the run `as` the registration of the member `m` put the id into the registry. -/
def InsertedBy (env : Environment) (as : List Action) (m id : Nat) : Prop :=
  ∃ past a v, Took env as past a v ∧ v.enrols a = some m ∧ v.inserts a = some id

variable {as : List Action} {id : Nat}

theorem InsertedBy.concat (hi : InsertedBy env as m id) : InsertedBy env (as ++ [a]) m id := by
  obtain ⟨past, b, v, ht, hm, hid⟩ := hi
  exact ⟨past, b, v, ht.concat, hm, hid⟩

theorem InsertedBy.last (hw : run env {} as = some w) (hm : w.enrols a = some m)
    (hid : w.inserts a = some id) : InsertedBy env (as ++ [a]) m id :=
  ⟨as, a, w, Took.last a hw, hm, hid⟩

theorem InsertedBy.concat_cases (hi : InsertedBy env (as ++ [a]) m id)
    (hw : run env {} as = some w) :
    InsertedBy env as m id ∨ (w.enrols a = some m ∧ w.inserts a = some id) := by
  obtain ⟨past, b, v, ht, hm, hid⟩ := hi
  rcases ht.concat_cases with ht' | ⟨rfl, rfl⟩
  · exact Or.inl ⟨past, b, v, ht', hm, hid⟩
  · rw [ht.2] at hw
    cases hw
    exact Or.inr ⟨hm, hid⟩

theorem inserts_eq_none (hn : w.enrols a = none) : w.inserts a = none := by
  simp [inserts, enrolling, hn]

end World

end Supervisor
