/-
  The log is written and never read.

  * `World.unlogged`: a world without its log; what an action does otherwise does
    not depend on it (`step_unlogged`);
  * `World.Reaches`: actions that lead from a world to another, up to the log, and
    none of which makes a call or gives one up;
  * a host that takes such actions (`Reaches.actAll`), waits (`Reaches.await`) or notes
    something comes to a world that is reached.
-/
import Supervisor.Proofs.Prompt
import Supervisor.Session

namespace Supervisor

/-- Somebody makes a call, or gives one up. -/
def Action.isOfCaller : Action → Bool
  | call _ _ | abandon _ => true
  | _ => false

namespace World

variable {env : Environment} {w u v : World} {as bs : List Action} {a : Action}

/-- A world without its log. -/
def unlogged (w : World) : World := { w with behind := [] }

/-! ## One action -/

theorem onGuest_unlogged (w : World) (m : Nat) (f : Member → Guest → Option Guest) :
    (w.unlogged.onGuest m f).map unlogged = (w.onGuest m f).map unlogged := by
  simp [onGuest, unlogged, setMember, Option.map_bind, Function.comp_def]

theorem onHandle_unlogged (w : World) (m : Nat) (f : Handle → Except Error Handle) :
    (w.unlogged.onHandle m f).map unlogged = (w.onHandle m f).map unlogged := by
  simp only [onHandle, Option.bind_eq_bind, Option.map_bind, Function.comp_def]
  refine congrArg (Option.bind w.members[m]?) (funext fun x => ?_)
  refine congrArg (Option.bind x.handle?) (funext fun h => ?_)
  cases f h <;> rfl

theorem start_unlogged (w : World) (m : Nat) (canSpawn : Bool) :
    (w.unlogged.start m canSpawn).map unlogged = (w.start m canSpawn).map unlogged := by
  simp only [World.start, Option.bind_eq_bind, Option.map_bind, Function.comp_def]
  refine congrArg (Option.bind w.members[m]?) (funext fun x => ?_)
  refine congrArg (Option.bind x.handle?) (funext fun h => ?_)
  cases h.start canSpawn <;> rfl

theorem sweepStep_unlogged (env : Environment) (w : World) (k : Nat) (step : SweepStep) :
    (sweepStep env w.unlogged k step).map unlogged = (sweepStep env w k step).map unlogged := by
  simp only [sweepStep, Option.bind_eq_bind, Option.map_bind, Function.comp_def]
  refine congrArg (Option.bind w.sweeps[k]?) (funext fun s => ?_)
  cases step with
  | drain => dsimp only; split <;> rfl
  | cancel i =>
    simp only [Option.map_bind, Function.comp_def]
    refine congrArg (Option.bind s.joins[i]?) (funext fun j => ?_)
    split
    · rfl
    · cases hx : w.members[j.entry.member]? with
      | none =>
        have hx' : w.unlogged.members[j.entry.member]? = none := hx
        simp only [hx']
        rfl
      | some x =>
        have hx' : w.unlogged.members[j.entry.member]? = some x := hx
        simp only [hx']
        rfl
  | stopped i =>
    simp only [Option.map_bind, Function.comp_def]
    refine congrArg (Option.bind s.joins[i]?) (funext fun j => ?_)
    by_cases h : j.isWaiting ∧ (w.members[j.entry.member]?).all (·.isOver)
    · rw [if_pos h]
      exact (congrArg (Option.map unlogged) (if_pos h)).trans rfl
    · rw [if_neg h]
      exact congrArg (Option.map unlogged) (if_neg h)
  | timedOut i =>
    simp only [Option.map_bind, Function.comp_def]
    refine congrArg (Option.bind s.joins[i]?) (funext fun j => ?_)
    by_cases h : j.isWaiting ∧ j.isOverdue w.now ∧ !(w.members[j.entry.member]?).all (·.isOver)
    · rw [if_pos h]
      exact (congrArg (Option.map unlogged) (if_pos h)).trans rfl
    · rw [if_neg h]
      exact congrArg (Option.map unlogged) (if_neg h)
  | report => dsimp only; split <;> rfl

/-- **What an action does does not depend on the log.** -/
theorem step_unlogged (env : Environment) (w : World) (a : Action) :
    (step env w.unlogged a).map unlogged = (step env w a).map unlogged := by
  cases a with
  | register m =>
    simp [step, unlogged, accept, setMember, note, Option.map_bind, Function.comp_def]
  | setState m s => exact onGuest_unlogged _ _ _
  | vanish m => exact onGuest_unlogged _ _ _
  | react m => exact onGuest_unlogged _ _ _
  | create command sink => simp only [step]; split <;> rfl
  | configure m c => exact onHandle_unlogged _ _ _
  | createControl m label => exact onHandle_unlogged _ _ _
  | start m canSpawn => exact start_unlogged _ _ _
  | copy m => simpa only [step] using onHandle_unlogged _ _ _
  | drop m => simpa only [step] using onHandle_unlogged _ _ _
  | runner m s =>
    simp [step, runnerStep, unlogged, view, accept, setMember, note, Option.map_bind,
      Function.comp_def]
  | pump m e =>
    simp [step, pumpStep, unlogged, view, accept, setMember, note, Option.map_bind,
      Function.comp_def]
  | call kind m =>
    have hheld : w.unlogged.isHeld m = w.isHeld m := rfl
    simp only [step, hheld]
    split <;> rfl
  | proceed k =>
    have hheld : ∀ m, w.unlogged.isHeld m = w.isHeld m := fun _ => rfl
    simp only [step, callStep, hheld, Option.bind_eq_bind, Option.map_bind, Function.comp_def]
    rfl
  | abandon k =>
    simp only [step, Option.bind_eq_bind, Option.map_bind, Function.comp_def]
    refine congrArg (Option.bind w.calls[k]?) (funext fun c => ?_)
    split <;> rfl
  | sweepStep k s => exact sweepStep_unlogged env w k s
  | _ => rfl

/-- Worlds that differ in their logs go on alike. -/
theorem exists_step_of_unlogged (hv : v.unlogged = w.unlogged) (ha : step env w a = some u) :
    ∃ u', step env v a = some u' ∧ u'.unlogged = u.unlogged := by
  have hmap : (step env v a).map unlogged = some u.unlogged := by
    rw [← step_unlogged, hv, step_unlogged, ha]
    rfl
  exact Option.map_eq_some_iff.1 hmap

/-! ## What a host comes to -/

theorem length_calls_of_step (ha : step env w a = some u) (hc : a.isOfCaller = false) :
    u.calls.length = w.calls.length := by
  cases effect_of_step ha with
  | call kind m => cases hc
  | abandon hk => cases hc
  | proceed log hk hx hb hm => simp
  | _ => rfl

/-- Only callers make calls. -/
theorem length_calls_of_run (hw : run env w as = some u) (hc : ∀ a ∈ as, a.isOfCaller = false) :
    u.calls.length = w.calls.length := by
  induction as generalizing w with
  | nil => cases hw; rfl
  | cons a as ih =>
    obtain ⟨v, hv, hrest⟩ := run_cons.1 hw
    obtain ⟨hca, has⟩ := List.forall_mem_cons.1 hc
    exact (ih hrest has).trans (length_calls_of_step hv hca)

/-- The actions `as` lead from `w` to `u`, up to the log, and no caller takes part. -/
structure Reaches (env : Environment) (w : World) (as : List Action) (u : World) : Prop where
  run : ∃ v, run env w as = some v ∧ v.unlogged = u.unlogged
  uncalled : ∀ a ∈ as, a.isOfCaller = false

namespace Reaches

theorem refl (env : Environment) (w : World) : Reaches env w [] w :=
  ⟨⟨w, rfl, rfl⟩, fun _ ha => absurd ha List.not_mem_nil⟩

theorem concat (hr : Reaches env w as u) (ha : step env u a = some v)
    (hc : a.isOfCaller = false) : Reaches env w (as ++ [a]) v := by
  obtain ⟨⟨u', hu', hlog⟩, huncalled⟩ := hr
  obtain ⟨v', hv', hlog'⟩ := exists_step_of_unlogged hlog ha
  refine ⟨⟨v', run_concat.2 ⟨u', hu', hv'⟩, hlog'⟩, fun b hb => ?_⟩
  rcases List.mem_append.1 hb with hb | hb
  · exact huncalled b hb
  · rw [List.mem_singleton.1 hb]
    exact hc

theorem note (hr : Reaches env w as u) (events : List Event) : Reaches env w as (u.note events) :=
  ⟨hr.run, hr.uncalled⟩

theorem pass {t : Nat} (hr : Reaches env w as u) (ht : u.now ≤ t) :
    Reaches env w (as ++ [Action.pass (t - u.now)]) { u with now := t } := by
  refine hr.concat ?_ rfl
  rw [step, Nat.add_sub_cancel' ht]

/-- Callers belong to the host. -/
theorem isOfCaller_of_mem_instant (ha : a ∈ w.instant) : a.isOfCaller = false := by
  simp only [instant, List.mem_append, List.mem_flatMap, Prod.exists] at ha
  rcases ha with (⟨x, m, -, ha⟩ | ⟨s, k, -, ha⟩) | ⟨c, k, -, ha⟩
  · cases hb : x.body with
    | guest g =>
      simp only [memberActions, hb, List.mem_singleton] at ha
      rw [ha]
      rfl
    | handle h =>
      rcases exists_of_mem_memberActions hb ha with ⟨s, rfl⟩ | ⟨e, rfl⟩
      · rfl
      · rfl
  · split at ha
    · cases ha
    · obtain ⟨t, -, rfl⟩ := List.mem_map.1 ha
      rfl
  · split at ha
    · cases ha
    · rw [List.mem_singleton.1 ha]
      rfl

/-- **What a host waits for is reached.** -/
theorem awaitFor (hr : Reaches env w as u) (limit : Nat) (done : World → Bool) (fuel : Nat) :
    ∃ bs, Reaches env w (as ++ bs) (World.awaitFor env limit done fuel u) := by
  induction fuel generalizing as u with
  | zero => exact ⟨[], by rw [List.append_nil]; exact hr⟩
  | succ fuel ih =>
    unfold World.awaitFor
    split
    · next u' hnext =>
      obtain ⟨a, hmem, ha⟩ := List.exists_of_findSome?_eq_some hnext
      obtain ⟨bs, hbs⟩ := ih (hr.concat ha (isOfCaller_of_mem_instant hmem))
      exact ⟨a :: bs, by rwa [List.append_cons]⟩
    · split
      · exact ⟨[], by rw [List.append_nil]; exact hr⟩
      · split
        · next t ht =>
          have hlt : u.now < t :=
            of_decide_eq_true (List.mem_filter.1 (List.min?_eq_some_iff.1 ht).1).2
          split
          · obtain ⟨bs, hbs⟩ := ih (hr.pass (Nat.le_of_lt hlt))
            exact ⟨_ :: bs, by rwa [List.append_cons]⟩
          · exact ⟨_, hr.pass (Nat.le_max_left _ _)⟩
        · exact ⟨_, hr.pass (Nat.le_max_left _ _)⟩

theorem awaitUntil (hr : Reaches env w as u) (limit : Nat) (done : World → Bool) :
    ∃ bs, Reaches env w (as ++ bs) (u.awaitUntil env limit done) :=
  hr.awaitFor limit done patience

theorem await (hr : Reaches env w as u) (done : World → Bool) :
    ∃ bs, Reaches env w (as ++ bs) (Session.await env done u) :=
  hr.awaitUntil _ done

/-- Actions that cannot be taken change nothing. -/
theorem actAll (hr : Reaches env w as u) (hc : ∀ b ∈ bs, b.isOfCaller = false) :
    ∃ cs, Reaches env w (as ++ cs) (Session.actAll env bs u) := by
  induction bs generalizing as u with
  | nil => exact ⟨[], by rw [List.append_nil]; exact hr⟩
  | cons b bs ih =>
    obtain ⟨hcb, hbs⟩ := List.forall_mem_cons.1 hc
    cases hb : step env u b with
    | none =>
      obtain ⟨cs, hcs⟩ := ih hr hbs
      exact ⟨cs, by
        simpa only [Session.actAll, Session.act, List.foldl_cons, hb, Option.getD_none] using hcs⟩
    | some v =>
      obtain ⟨cs, hcs⟩ := ih (hr.concat hb hcb) hbs
      refine ⟨b :: cs, ?_⟩
      rw [List.append_cons]
      simpa only [Session.actAll, Session.act, List.foldl_cons, hb, Option.getD_some] using hcs

end Reaches

end World

end Supervisor
