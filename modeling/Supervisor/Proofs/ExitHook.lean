/-
  One exit hook for each coordinator.

  * `InstalledAt env as past`: in the run `as`, after the actions `past`, the host was given
    the exit hook;
  * `HookSound`: the hook was given to the host, or one registration is about to do so, or
    nobody has claimed it; whoever claims it has put an entry into the registry before, and
    nobody who has done so leaves it unclaimed.  Every action keeps this
    (`HookSound.step`);
  * `one_exit_hook`: the host is given at most one hook, and exactly one if there are hooks
    and an entry has ever been put into the registry.
-/
import Supervisor.Proofs.Enrolment
import Supervisor.Proofs.Lifecycle

namespace Supervisor

namespace Registration

/-- Whether a call has begun and not returned. -/
def isUnderWay : Registration → Bool
  | idle | settled _ => false
  | _ => true

/-- Whether a call has claimed the exit hook, and is still to install it. -/
def isHooking : Registration → Bool
  | hooking _ => true
  | _ => false

theorem isUnderWay_of_isHooking {g : Registration} (h : g.isHooking = true) :
    g.isUnderWay = true := by
  cases g with
  | hooking id => rfl
  | _ => cases h

variable {hasHooks b : Bool} {e : Entry} {c c' : Coordinator} {g g' : Registration} {id : Nat}

/-! ## What one step of a registration does to the hook -/

theorem Move.balance (hm : Move hasHooks e c g g' c' b) :
    c'.hooksInstalled + g'.isHooking.toNat + c.hookClaimed.toNat =
      c.hooksInstalled + g.isHooking.toNat + c'.hookClaimed.toNat := by
  cases hm with
  | claim id _ hc => simp [Coordinator.claimHook, isHooking, hc]
  | install id => simp [Coordinator.installHook, isHooking]
  | _ => simp [Coordinator.takeId, Coordinator.insert, isHooking]

theorem Move.hooksInstalled (hm : Move hasHooks e c g g' c' b) :
    c'.hooksInstalled = c.hooksInstalled + g.isHooking.toNat := by
  cases hm <;> rfl

theorem Move.hookClaimed (hm : Move hasHooks e c g g' c' b) (hc : c.hookClaimed = true) :
    c'.hookClaimed = true := by
  cases hm with
  | claim id _ _ => rfl
  | _ => exact hc

/-- The hook is claimed by one who has put its entry into the registry. -/
theorem Move.claimed_back (hm : Move hasHooks e c g g' c' b) (hc : c'.hookClaimed = true) :
    c.hookClaimed = true ∨ hasHooks = true ∧ ∃ id, g = .inserted id := by
  cases hm with
  | claim id hh _ => exact Or.inr ⟨hh, id, rfl⟩
  | _ => exact Or.inl hc

/-- Nobody who has put its entry into the registry leaves the hook unclaimed. -/
theorem Move.claimed_of_inserted (hm : Move hasHooks e c g g' c' b) (hg : g = .inserted id)
    (hh : hasHooks = true) : c'.hookClaimed = true := by
  subst hg
  cases hm with
  | claim id _ _ => rfl
  | unhooked id hn => simpa [hh] using hn

theorem Move.inserted_of_numbered (hm : Move hasHooks e c g g' c' b) (hg : g = .numbered id)
    (hs : c.shuttingDown = false) : g' = .inserted id := by
  subst hg
  cases hm with
  | refuse id hs' => rw [hs] at hs'; cases hs'
  | insert id _ => rfl

theorem Move.numbered_or_inserted (hm : Move hasHooks e c g g' c' b)
    (hg : g' = .inserted id ∨ g' = .hooking id) :
    (g = .numbered id ∧ c.shuttingDown = false) ∨ g = .inserted id := by
  cases hm with
  | insert n hs => rcases hg with hg | hg <;> cases hg; exact Or.inl ⟨rfl, hs⟩
  | claim n _ _ => rcases hg with hg | hg <;> cases hg; exact Or.inr rfl
  | _ => rcases hg with hg | hg <;> cases hg

end Registration

namespace World

variable {env : Environment} {w w' : World} {a : Action} {as past : List Action} {m id : Nat}

/-! ## The hook in a run -/

/-- In the run `as`, after the actions `past`, the host was given the exit hook. -/
def InstalledAt (env : Environment) (as past : List Action) : Prop :=
  ∃ a v, Took env as past a v ∧ v.installs a = true

theorem InstalledAt.concat (hi : InstalledAt env as past) : InstalledAt env (as ++ [a]) past := by
  obtain ⟨b, v, ht, hb⟩ := hi
  exact ⟨b, v, ht.concat, hb⟩

theorem InstalledAt.concat_cases (hi : InstalledAt env (as ++ [a]) past)
    (hw : run env {} as = some w) :
    InstalledAt env as past ∨ (past = as ∧ w.installs a = true) := by
  obtain ⟨b, v, ht, hb⟩ := hi
  rcases ht.concat_cases with ht' | ⟨rfl, rfl⟩
  · exact Or.inl ⟨b, v, ht', hb⟩
  · rw [ht.2] at hw
    cases hw
    exact Or.inr ⟨rfl, hb⟩

/-- How the exit hook stands after the run `as`. -/
structure HookSound (env : Environment) (as : List Action) (w : World) : Prop where
  balance : w.coordinator.hooksInstalled + w.registrations.countP (·.isHooking) =
    w.coordinator.hookClaimed.toNat
  configured : w.coordinator.hookClaimed = true → env.hasHooks = true
  claimed : w.coordinator.hookClaimed = true → ∃ m id, InsertedBy env as m id
  entered : ∀ m id, w.registrations[m]? = some (.inserted id) ∨
    w.registrations[m]? = some (.hooking id) → InsertedBy env as m id
  attended : ∀ m id, InsertedBy env as m id → env.hasHooks = true →
    w.coordinator.hookClaimed = true ∨ w.registrations[m]? = some (.inserted id)
  installed : w.coordinator.hooksInstalled ≠ 0 ↔ ∃ past, InstalledAt env as past
  once : ∀ past past', InstalledAt env as past → InstalledAt env as past' → past = past'

theorem HookSound.empty : HookSound env [] {} := by
  have hnone : ∀ past a v, ¬ Took env [] past a v := fun past a v ht => by simp [Took] at ht
  refine ⟨rfl, nofun, nofun, fun m id hg => ?_, ?_, ?_, ?_⟩
  · rcases hg with hg | hg <;> simp [registrations] at hg
  · rintro m id ⟨past, a, v, ht, -⟩
    exact absurd ht (hnone past a v)
  · refine ⟨fun hne => absurd rfl hne, ?_⟩
    rintro ⟨past, a, v, ht, -⟩
    exact absurd ht (hnone past a v)
  · rintro past past' ⟨a, v, ht, -⟩
    exact absurd ht (hnone past a v)

/-- An action that is no step of a registration leaves the hook alone. -/
theorem HookSound.quiet (hH : HookSound env as w) (hw : run env {} as = some w)
    (hb : Bystands w a w') : HookSound env (as ++ [a]) w' := by
  have hn := hb.enrols
  have hc := hb.hookClaimed
  have hi := hb.hooksInstalled
  have hins : ∀ m id, InsertedBy env (as ++ [a]) m id ↔ InsertedBy env as m id := fun m id => by
    refine ⟨fun h => ?_, .concat⟩
    rcases h.concat_cases hw with h | ⟨h, -⟩
    · exact h
    · rw [hn] at h; cases h
  have hinst : ∀ past, InstalledAt env (as ++ [a]) past ↔ InstalledAt env as past := fun past => by
    refine ⟨fun h => ?_, .concat⟩
    rcases h.concat_cases hw with h | ⟨-, h⟩
    · exact h
    · simp [installs, enrolling, hn] at h
  have hget : ∀ (m : Nat) (g : Registration), g ≠ .idle →
      (w'.registrations[m]? = some g ↔ w.registrations[m]? = some g) := fun m g hg => by
    refine ⟨fun h => ?_, hb.getElem?⟩
    rcases hb.registrations with hr | hr
    · rwa [hr] at h
    · rw [hr] at h
      rcases getElem?_concat_cases h with h | ⟨-, rfl⟩
      · exact h
      · exact absurd rfl hg
  have hcount : w'.registrations.countP (·.isHooking) = w.registrations.countP (·.isHooking) := by
    rcases hb.registrations with hr | hr <;> simp [hr, Registration.isHooking]
  refine ⟨by rw [hi, hcount, hc, hH.balance], ?_, ?_, ?_, ?_, ?_, ?_⟩
  · rw [hc]; exact hH.configured
  · simpa only [hc, hins] using hH.claimed
  · intro m id hg
    rw [hget m (.inserted id) (by simp), hget m (.hooking id) (by simp)] at hg
    exact (hins m id).2 (hH.entered m id hg)
  · intro m id hi hh
    rw [hc, hget m (.inserted id) (by simp)]
    exact hH.attended m id ((hins m id).1 hi) hh
  · simpa only [hi, hinst] using hH.installed
  · simpa only [hinst] using hH.once

/-- A step of a registration. -/
theorem HookSound.enrol {g g' : Registration} {e : Entry} {b : Bool} (hH : HookSound env as w)
    (hw : run env {} as = some w) (hm : w.enrols a = some m) (hg : w.registrations[m]? = some g)
    (hmove : Registration.Move env.hasHooks e w.coordinator g g' w'.coordinator b)
    (hr : w'.registrations = w.registrations.set m g') : HookSound env (as ++ [a]) w' := by
  obtain ⟨hlt, -⟩ := List.getElem?_eq_some_iff.1 hg
  have henr : w.enrolling a = some g := by rw [enrolling_eq hm, hg]
  have hself : w'.registrations[m]? = some g' := by rw [hr]; simp [hlt]
  have hinstalls : w.installs a = g.isHooking := by
    unfold installs
    rw [henr]
    cases g <;> rfl
  have hcount := countP_set_add (p := fun g : Registration => g.isHooking) (b := g') hg
  have hbal := hmove.balance
  have hB := hH.balance
  have hinst := hmove.hooksInstalled
  have hbit := Bool.toNat_le w.coordinator.hookClaimed
  rw [← hr] at hcount
  constructor
  case balance => omega
  case configured =>
    intro hc
    rcases hmove.claimed_back hc with hc | ⟨hh, -⟩
    · exact hH.configured hc
    · exact hh
  case claimed =>
    intro hc
    rcases hmove.claimed_back hc with hc | ⟨-, id, rfl⟩
    · obtain ⟨n, id, hi⟩ := hH.claimed hc
      exact ⟨n, id, hi.concat⟩
    · exact ⟨m, id, (hH.entered m id (Or.inl hg)).concat⟩
  case entered =>
    intro n id hn
    by_cases hmn : m = n
    · subst hmn
      simp only [hself, Option.some.injEq] at hn
      rcases hmove.numbered_or_inserted hn with ⟨rfl, hs⟩ | rfl
      · exact .last hw hm (inserts_eq_some.2 ⟨henr, hs⟩)
      · exact (hH.entered m id (Or.inl hg)).concat
    · rw [hr, List.getElem?_set_ne hmn] at hn
      exact (hH.entered n id hn).concat
  case attended =>
    intro n id hn hh
    rcases hn.concat_cases hw with hn | ⟨hn, hid⟩
    · rcases hH.attended n id hn hh with hc | hin
      · exact Or.inl (hmove.hookClaimed hc)
      · by_cases hmn : m = n
        · subst hmn
          rw [hg] at hin
          exact Or.inl (hmove.claimed_of_inserted (Option.some.inj hin) hh)
        · exact Or.inr (by rw [hr, List.getElem?_set_ne hmn, hin])
    · rw [hm] at hn
      cases hn
      obtain ⟨hnum, hs⟩ := inserts_eq_some.1 hid
      rw [henr] at hnum
      exact Or.inr (by rw [hself, hmove.inserted_of_numbered (Option.some.inj hnum) hs])
  case installed =>
    refine ⟨fun hne => ?_, ?_⟩
    · cases hk : g.isHooking with
      | true => exact ⟨as, a, w, Took.last a hw, hinstalls.trans hk⟩
      | false =>
        obtain ⟨past, hp⟩ := hH.installed.1 (by rwa [hinst, hk] at hne)
        exact ⟨past, hp.concat⟩
    · rintro ⟨past, hp⟩
      rcases hp.concat_cases hw with hp | ⟨-, hp⟩
      · have := hH.installed.2 ⟨past, hp⟩
        omega
      · rw [hinst, ← hinstalls, hp]
        exact Nat.succ_ne_zero _
  case once =>
    -- whoever is about to install the hook is the only one that has claimed it
    have hfree : ∀ past, InstalledAt env as past → w.installs a = true → False := by
      intro past hp hi
      have hone := hH.installed.2 ⟨past, hp⟩
      have hpos : 0 < w.registrations.countP (·.isHooking) :=
        List.countP_pos_iff.2 ⟨g, List.mem_of_getElem? hg, hinstalls ▸ hi⟩
      omega
    intro past past' hp hp'
    rcases hp.concat_cases hw with hp | ⟨rfl, hi⟩ <;>
      rcases hp'.concat_cases hw with hp' | ⟨rfl, hi'⟩
    · exact hH.once past past' hp hp'
    · exact absurd hi' (hfree past hp)
    · exact absurd hi (hfree past' hp')
    · rfl

/-- **Every action keeps the hook sound.** -/
theorem HookSound.step (hH : HookSound env as w) (hw : run env {} as = some w)
    (ha : step env w a = some w') : HookSound env (as ++ [a]) w' := by
  rcases enrol_or_bystands ha with ⟨m, g, g', e, b, hm, hg, hmove, hr⟩ | hb
  · exact hH.enrol hw hm hg hmove hr
  · exact hH.quiet hw hb

theorem hookSound_of_run (hw : run env {} as = some w) : HookSound env as w :=
  run_induction (P := HookSound env) .empty (fun _ _ _ _ hv hH ha => hH.step hv ha) hw

/-- **One exit hook for each coordinator.**  The host is given the hook at most once, and
    never if the coordinator has no hooks.  It is given by a registration that has put its own
    entry into the registry before, hence by none that was refused and for no survivor.  While
    no registration is under way the host has been given it if and only if there are hooks and
    some registration has ever put an entry into the registry. -/
theorem one_exit_hook (hw : run env {} as = some w) :
    (∀ past past', InstalledAt env as past → InstalledAt env as past' → past = past') ∧
    (w.coordinator.hooksInstalled ≤ 1 ∧
      (w.coordinator.hooksInstalled = 1 ↔ ∃ past, InstalledAt env as past)) ∧
    (env.hasHooks = false → ∀ past, ¬ InstalledAt env as past) ∧
    (∀ past a v, Took env as past a v → v.installs a = true →
      ∃ m id, v.enrols a = some m ∧ InsertedBy env past m id ∧
        ∀ x h r, v.members[m]? = some x → x.body = .handle h → h.runner = some r →
          r.spec.options.survivor = false) ∧
    ((∀ g ∈ w.registrations, g.isUnderWay = false) →
      ((∃ past, InstalledAt env as past) ↔
        env.hasHooks = true ∧ ∃ m id, InsertedBy env as m id)) := by
  have hH := hookSound_of_run hw
  have hB := hH.balance
  have hbit := Bool.toNat_le w.coordinator.hookClaimed
  have hclaimed : (∃ past, InstalledAt env as past) → w.coordinator.hookClaimed = true := by
    intro hi
    have hne := hH.installed.2 hi
    cases hc : w.coordinator.hookClaimed with
    | true => rfl
    | false => rw [hc] at hB; simp at hB; omega
  refine ⟨hH.once, ⟨by omega, ?_⟩, fun hh past hp => ?_, fun past a v ht hi => ?_, fun hrest => ?_⟩
  · rw [← hH.installed]
    omega
  · rw [hH.configured (hclaimed ⟨past, hp⟩)] at hh
    cases hh
  · obtain ⟨id, hid⟩ := installs_eq_true.1 hi
    obtain ⟨m, hm, hg⟩ := enrolling_eq_some.1 hid
    refine ⟨m, id, hm, (hookSound_of_run ht.2).entered m id (Or.inr hg), fun x h r hx hb hr => ?_⟩
    rw [getElem?_registrations hx] at hg
    exact not_survivor_of_registration ht.2 hx hb hr (by rw [Option.some.inj hg]; nofun)
  · refine ⟨fun hi => ⟨hH.configured (hclaimed hi), hH.claimed (hclaimed hi)⟩, ?_⟩
    rintro ⟨hh, m, id, hins⟩
    -- nobody is about to claim the hook, nor to install it
    have hnone : w.registrations.countP (·.isHooking) = 0 := by
      refine List.countP_eq_zero.2 fun g hg hk => ?_
      exact absurd (hrest g hg) (by rw [Registration.isUnderWay_of_isHooking hk]; nofun)
    rcases hH.attended m id hins hh with hc | hin
    · rw [hc] at hB
      exact hH.installed.1 (by simp at hB; omega)
    · cases hrest _ (List.mem_of_getElem? hin)

/-- Two guests register at the same time: both put their entries into the registry before
    the second claims the hook, and the first finds it claimed before it is installed. -/
def racingGuests : List Action :=
  [.welcome "a" {}, .welcome "b" {}, .register 0, .register 1, .register 0, .register 1,
    .register 1, .register 0, .register 1]

/-- The host is given one hook, by the second. -/
theorem one_exit_hook_racingGuests :
    ∃ w, run (.withoutPrograms {} true) {} racingGuests = some w ∧
      (∀ g ∈ w.registrations, g.isUnderWay = false) ∧ w.coordinator.hooksInstalled = 1 ∧
      ∃ past, InstalledAt (.withoutPrograms {} true) racingGuests past := by
  refine ⟨_, rfl, by decide, rfl, ?_⟩
  exact (@one_exit_hook (.withoutPrograms {} true) _ racingGuests rfl).2.1.2.1 rfl

end World

end Supervisor
