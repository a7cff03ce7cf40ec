/-
  Whose pid a handle shows, and how long.

  * `Runner.Shows h r`: the handle shows the pid of the child of its runner from the launch
    on until the teardown forgets it, and while the runner waits the child is unreaped;
  * `World.Spawned env as m spec c`: the runner of the handle launched the child;
  * `Act.shows`, `Act.origin`: what a step of the runner keeps of it, hence every action
    (`shows_of_run`, `spawned_of_advance`);
  * `pid_is_of_own_child`: the pid is always that of a child of this runner, but this child is
    alive only as long as the runner waits for it.
-/
import Supervisor.Proofs.Story

namespace Supervisor

/-! ## The pid that is shown -/

/-- The handle `h` shows the pid of the child of its runner `r`, as far as it has one and has
    not forgotten it. -/
structure Runner.Shows (h : Handle) (r : Runner) : Prop where
  pid : h.status.pid = if r.stage.hasForgotten then none else r.child.map (·.pid)
  awaited : r.stage = .waiting → ∃ c, r.child = some c ∧ c.reaped = false

theorem RunStatus.advance_pid (s : RunStatus) (next : RunState) :
    (s.advance next).pid = s.pid := by
  unfold advance
  split <;> rfl

namespace Runner

variable {v : View} {x : Member} {h h' : Handle} {r r' : Runner} {s : RunnerStep}

theorem map_pid_reap (r : Runner) : r.reap.child.map (·.pid) = r.child.map (·.pid) := by
  rw [reap, Option.map_map]
  rfl

/-- A step that touches neither the child nor the pid, and does not wait. -/
theorem Shows.keep (hS : r.Shows h) (hp : h'.status.pid = h.status.pid)
    (hc : r'.child.map (·.pid) = r.child.map (·.pid))
    (ht : r'.stage.hasForgotten = r.stage.hasForgotten) (hw : r'.stage ≠ .waiting) :
    r'.Shows h' :=
  ⟨by rw [hp, hS.pid, hc, ht], fun hs => absurd hs hw⟩

/-- **What a handle shows fits its runner** after each of its steps. -/
theorem Act.shows (ha : Act v x h r s h' r') (hS : r.Shows h) : r'.Shows h' := by
  cases ha with
  | begin hs =>
    refine hS.keep rfl rfl ?_ ?_ <;> simp only [goto, hs] <;> split <;> simp [Stage.hasForgotten]
  | register n hs _ =>
    refine hS.keep rfl ?_ ?_ ?_ <;> split <;> simp [goto, hs, Stage.hasForgotten]
  | launch p _ _ => exact ⟨rfl, fun _ => ⟨_, rfl, rfl⟩⟩
  | refuse f hs _ => exact hS.keep rfl rfl (by rw [hs]; rfl) fun hw => by cases hw
  | exit c st hs _ _ => exact hS.keep rfl (map_pid_reap r) (by rw [hs]; rfl) fun hw => by cases hw
  | cancel hs _ => exact hS.keep rfl (map_pid_reap r) (by rw [hs]; rfl) fun hw => by cases hw
  | fall line hs _ =>
    refine hS.keep rfl rfl ?_ fun hw => by cases hw
    cases hst : r.stage <;> simp_all [Stage.isWriting, Stage.hasForgotten, Runner.fall]
  | leave o hs =>
    refine hS.keep rfl rfl ?_ ?_ <;> simp only [goto, hs] <;> split <;> simp [Stage.hasForgotten]
  | forget o _ => exact ⟨rfl, fun hw => by cases hw⟩
  | publish o hs =>
    have hpid := hS.pid
    rw [hs] at hpid
    exact ⟨(h.status.advance_pid _).trans hpid, fun hw => by cases hw⟩
  | drain _ hs | drained _ _ hs | resolve _ _ hs | silent _ hs | tellFailure _ hs | tellEnd _ _ hs
  | close _ hs | disable _ hs | detach _ hs | record _ hs =>
    exact hS.keep rfl rfl (by rw [hs]; rfl) fun hw => by cases hw

theorem Act.spec_eq (ha : Act v x h r s h' r') : r'.spec = r.spec := by
  cases ha with
  | register n _ _ => split <;> rfl
  | _ => rfl

/-- A child that a runner has after a step was there before, or has just been launched. -/
theorem Act.origin (ha : Act v x h r s h' r') {c : Child} (hc : r'.child = some c) :
    (∃ c₀, r.child = some c₀ ∧ c.pid = c₀.pid ∧ c.launched = c₀.launched) ∨
      ∃ p, s = .proceed ∧ r.stage = .launching ∧ v.env.launch r.spec v.now = .ok p ∧
        c.pid = v.pid ∧ c.launched = v.now := by
  cases ha with
  | launch p hs hp =>
    cases hc
    exact .inr ⟨p, rfl, hs, hp, rfl, rfl⟩
  | exit _ _ _ _ _ | cancel _ _ =>
    obtain ⟨c₀, hc₀, rfl⟩ := Option.map_eq_some_iff.1 hc
    exact .inl ⟨c₀, hc₀, rfl, rfl⟩
  | register n _ _ => exact .inl ⟨c, by split at hc <;> exact hc, rfl, rfl⟩
  | _ => exact .inl ⟨c, hc, rfl, rfl⟩

/-- The pump does not touch the child but for when it would end by itself. -/
theorem childAfter_map_pid (r : Runner) (v : View) (p : Pump) :
    (r.childAfter v p).map (·.pid) = r.child.map (·.pid) := by
  unfold childAfter
  split
  · rw [Option.map_map]
    rfl
  · rfl

theorem Advance.shows {env : Environment} {w : World} {m : Nat} {a : Action}
    (ha : Advance env w m x h r a h' r') (hS : r.Shows h) : r'.Shows h' := by
  cases ha with
  | act ha => exact ha.shows hS
  | @pump e p p' k' _ _ =>
    refine ⟨?_, fun hs => ?_⟩
    · rw [childAfter_map_pid]
      exact hS.pid
    · obtain ⟨c, hc, hreaped⟩ := hS.awaited hs
      simp only [childAfter, hc]
      split
      · exact ⟨_, rfl, hreaped⟩
      · exact ⟨c, rfl, hreaped⟩
  | idle _ hst => exact ⟨by rw [hst]; exact hS.pid, hS.awaited⟩

end Runner

/-- A host on which every child exits at once, and leaves its output to others that keep it
    open for good. -/
def Environment.orphaning : Environment where
  launch := fun _ now => .ok {
    output := .both { arrivals := [], holders := [⟨now, none⟩] }
    exit := some (now, .exited 0) }
  exitUnread := fun _ _ _ => none

namespace World

section
variable (env : Environment) (as : List Action) (m : Nat)

/-- The runner of the handle launched the child. -/
def Spawned (spec : LaunchSpec) (c : Child) : Prop :=
  ∃ v p, LaunchedAt env as m spec v ∧ env.launch spec v.now = .ok p ∧ c.pid = v.nextPid ∧
    c.launched = v.now

end

variable {env : Environment} {w : World} {as : List Action} {a : Action} {m : Nat} {x : Member}
  {h h' : Handle} {r r' : Runner}

theorem Spawned.concat {spec : LaunchSpec} {c : Child} (hc : Spawned env as m spec c) :
    Spawned env (as ++ [a]) m spec c := by
  obtain ⟨v, p, hl, hp⟩ := hc
  exact ⟨v, p, hl.concat, hp⟩

theorem Spawned.of_same {spec : LaunchSpec} {c c₀ : Child} (hc : Spawned env as m spec c₀)
    (hpid : c.pid = c₀.pid) (hl : c.launched = c₀.launched) : Spawned env as m spec c := by
  obtain ⟨v, p, hv, hp, hpid₀, hl₀⟩ := hc
  exact ⟨v, p, hv, hp, hpid.trans hpid₀, hl.trans hl₀⟩

/-- A child that a runner has after an action is one that it launched, if this was so
    before. -/
theorem spawned_of_advance (hw : run env {} as = some w) (hx : w.members[m]? = some x)
    (hb : x.body = .handle h) (hr : h.runner = some r)
    (hS : ∀ c, r.child = some c → Spawned env as m r.spec c)
    (ha : r.Advance env w m x h a h' r') {c : Child} (hc : r'.child = some c) :
    Spawned env (as ++ [a]) m r'.spec c := by
  cases ha with
  | act hact =>
    rw [hact.spec_eq]
    obtain ⟨c₀, hc₀, hpid, hl⟩ | ⟨p, rfl, hs, hp, hpid, hl⟩ := hact.origin hc
    · exact ((hS c₀ hc₀).of_same hpid hl).concat
    · have hdid : Did env (as ++ [.runner m .proceed]) m .proceed w x r :=
        ⟨⟨as, Took.last _ hw⟩, hx, h, hb, hr⟩
      exact ⟨w, p, ⟨x, r, hdid, hs, rfl⟩, hp, hpid, hl⟩
  | pump hp ht =>
    simp only [Runner.childAfter] at hc
    split at hc
    · obtain ⟨c₀, hc₀, rfl⟩ := Option.map_eq_some_iff.1 hc
      exact ((hS c₀ hc₀).of_same rfl rfl).concat
    · exact (hS c hc).concat
  | idle _ _ => exact (hS c hc).concat

/-- **After every run a handle shows what fits its runner**, whose child is one that it
    launched itself. -/
theorem shows_of_run (hw : run env {} as = some w) (hx : w.members[m]? = some x)
    (hb : x.body = .handle h) (hr : h.runner = some r) :
    r.Shows h ∧ ∀ c, r.child = some c → Spawned env as m r.spec c := by
  refine run_induction (P := fun as w => ∀ x h r, w.members[m]? = some x → x.body = .handle h →
    h.runner = some r → r.Shows h ∧ ∀ c, r.child = some c → Spawned env as m r.spec c) ?_ ?_ hw
      x h r hx hb hr
  · intro x h r hx
    simp at hx
  · intro as a w w' hw ih ha x' h' r' hx' hb' hr'
    obtain ⟨x, hx, hs⟩ | ⟨-, hnew⟩ := (effect_of_step ha).shift_back hx'
    · obtain ⟨h, hb⟩ := hs.handle_back hb'
      have hS := sound_of_run hw hx
      cases hr : h.runner with
      | none =>
        obtain ⟨-, -, rfl, rfl⟩ := start_of_runner hs hb hr hb' hr'
        refine ⟨⟨?_, nofun⟩, nofun⟩
        rw [RunStatus.advance_pid, ((hS h hb).idle hr).2]
        rfl
      | some r =>
        obtain ⟨y, k, q, hy, hk, hadv⟩ := advance_of_step ha hS hx hb hr
        rw [hx'] at hy
        cases hy
        rw [hb'] at hk
        cases hk
        cases hr'
        obtain ⟨hshows, hspawned⟩ := ih x h r hx hb hr
        exact ⟨⟨(hadv.shows hshows).pid, (hadv.shows hshows).awaited⟩,
          fun c => spawned_of_advance hw hx hb hr hspawned hadv⟩
    · rw [(hnew.handle h' hb').2.2.2] at hr'
      cases hr'

/-! ## Whose pid it is -/

/-- **A handle shows the pid of the child that its own runner launched, and of no other.**
    It shows it from the launch on until the teardown forgets it.  The child, however, is
    alive only while the runner waits for it: from then on, as long as its output is drained
    and told and the run is torn down, the pid is that of a child that was reaped. -/
theorem pid_is_of_own_child (hw : run env {} as = some w) (hx : w.members[m]? = some x)
    (hb : x.body = .handle h) :
    (∀ p, h.status.pid = some p → ∃ r c, h.runner = some r ∧ r.child = some c ∧ c.pid = p) ∧
      ∀ r c, h.runner = some r → r.child = some c →
        Spawned env as m r.spec c ∧
        (h.status.pid = some c.pid ↔ r.stage.hasForgotten = false) ∧
        (c.reaped = false ↔ r.stage = .waiting) := by
  have hS := sound_of_run hw hx h hb
  refine ⟨fun p hp => ?_, fun r c hr hc => ?_⟩
  · cases hr : h.runner with
    | none =>
      rw [(hS.idle hr).2] at hp
      cases hp
    | some r =>
      rw [(shows_of_run hw hx hb hr).1.pid] at hp
      split at hp
      · cases hp
      · obtain ⟨c, hc, hpid⟩ := Option.map_eq_some_iff.1 hp
        exact ⟨r, c, rfl, hc, hpid⟩
  · obtain ⟨hshows, hspawned⟩ := shows_of_run hw hx hb hr
    refine ⟨hspawned c hc, ?_, fun hreaped => ?_, fun hwait => ?_⟩
    · rw [hshows.pid, hc]
      cases r.stage.hasForgotten <;> simp
    · by_contra hwait
      rw [(hS.run r hr).reaped hwait c hc] at hreaped
      cases hreaped
    · obtain ⟨c', hc', hreaped⟩ := hshows.awaited hwait
      rw [hc] at hc'
      cases hc'
      exact hreaped

/-- The child has exited and is reaped, and its output is still drained. -/
def drainingRun : List Action :=
  [.create ["sh"] .storing, .start 0 true] ++ List.replicate 5 (.runner 0 .proceed) ++
    [.runner 0 .exit, .runner 0 .proceed]

/-- Its pid is shown all the same. -/
theorem pid_is_of_own_child_drainingRun :
    ∃ w x h r c, run .orphaning {} drainingRun = some w ∧ w.members[0]? = some x ∧
      x.body = .handle h ∧ h.runner = some r ∧ r.child = some c ∧
      r.stage = .draining (.exited 0) ∧ h.status.pid = some c.pid ∧ c.reaped = true ∧
      Spawned .orphaning drainingRun 0 r.spec c := by
  have hall := @pid_is_of_own_child .orphaning _ drainingRun 0 _ _ rfl rfl rfl
  obtain ⟨hspawned, hpid, -⟩ := hall.2 _ _ rfl rfl
  exact ⟨_, _, _, _, _, rfl, rfl, rfl, rfl, rfl, rfl, hpid.2 rfl, rfl, hspawned⟩

/-- So it is not true that a pid is shown only while its child is unreaped. -/
theorem not_unreaped_of_pid :
    ¬ ∀ (env : Environment) (as : List Action) (w : World) (m : Nat) (x : Member) (h : Handle)
      (p : Nat), run env {} as = some w → w.members[m]? = some x → x.body = .handle h →
        h.status.pid = some p →
        ∃ r c, h.runner = some r ∧ r.child = some c ∧ c.pid = p ∧ c.reaped = false := by
  intro hall
  obtain ⟨r, c, hr, hc, -, hreaped⟩ := hall .orphaning drainingRun _ 0 _ _ _ rfl rfl rfl rfl
  cases hr
  cases hc
  cases hreaped

end World

end Supervisor
