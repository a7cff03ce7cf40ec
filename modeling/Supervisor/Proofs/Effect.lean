/-
  What one action does to all that the parties share.

  * `Turn`: what becomes of a member, and of the coordinator, in a step of the
    member's own party; `SweepTurn`: what a step of a sweep makes of a world;
  * `Effect`: what an action makes of a world; the log, the clock and the next
    pid are left open;
  * `effect_of_step`: the actions that can be taken have these effects;
  * `Shift`: what can become of one member in an action of whatever party
    (`Effect.shift`, `Effect.shift_back`), and likewise `Sweep.Shift` and
    `Call.Shift` of one sweep and of one call.
-/
import Supervisor.Proofs.Moves
import Supervisor.Proofs.Run

namespace Supervisor

/-! ## Turns of a member -/

/-- A member that has just come. -/
structure Member.IsNew (x : Member) : Prop where
  cancel : x.cancel = false
  registration : x.registration = .idle
  handle : ∀ h, x.body = .handle h →
    h.options = {} ∧ h.control = none ∧ h.status = {} ∧ h.runner = none

/-- The child of a runner after an event of its pump: when the pump comes down,
    nobody reads what the child writes. -/
def Runner.childAfter (v : Runner.View) (r : Runner) (p : Pump) : Option Child :=
  if p.stage = .ended .fatal then r.child.map (r.unread v) else r.child

/-- What a step of its own party makes of the member `x` at the place `m`, and
    of the coordinator. -/
inductive Turn (env : Environment) (w : World) (m : Nat) (x : Member) :
    Action → Member → Coordinator → Prop where
  | guest {a : Action} {g : Guest} (g' : Guest) : x.body = .guest g →
      Turn env w m x a { x with body := .guest g' } w.coordinator
  | register {g : Guest} (n : Registration.Result) : x.body = .guest g →
      x.registration.step env.hasHooks ⟨x.label, m⟩ w.coordinator = some n →
      Turn env w m x (.register m) (x.enrol n) n.coordinator
  | configure {h : Handle} (c : Change) : x.body = .handle h → h.status.state = .notStarted →
      Turn env w m x (.configure m c) (x.setHandle { h with options := h.options.apply c })
        w.coordinator
  | createControl {h : Handle} (label : String) : x.body = .handle h →
      h.status.state = .notStarted →
      Turn env w m x (.createControl m label)
        (x.setHandle { h with control := h.control <|> some { label } }) w.coordinator
  | start {h : Handle} : x.body = .handle h → h.status.state = .notStarted →
      Turn env w m x (.start m true)
        (x.setHandle { h with
          status := h.status.advance .running
          runner := some { spec := h.spec, controlled := h.control.isSome } }) w.coordinator
  | copies {a : Action} {h : Handle} (n : Nat) : x.body = .handle h →
      Turn env w m x a (x.setHandle { h with copies := n }) w.coordinator
  | runner {h : Handle} {r : Runner} {s : RunnerStep} {x' : Member} {c' : Coordinator} :
      x.body = .handle h → h.runner = some r → r.Move (w.view env m) x h s x' c' →
      Turn env w m x (.runner m s) x' c'
  | pump {h : Handle} {r : Runner} {p : Pump} {e : PumpEvent} (n : Pump.Result) :
      x.body = .handle h → h.runner = some r → r.pump = some p →
      p.step h.sink w.now e = some n →
      Turn env w m x (.pump m e)
        (x.withRunner { h with sink := n.sink }
          { r with pump := some n.pump, child := r.childAfter (w.view env m) n.pump })
        w.coordinator

/-! ## Turns of a sweep -/

/-- What a step of the sweep `k` makes of a world. -/
inductive SweepTurn (env : Environment) (w : World) (k : Nat) : SweepStep → World → Prop where
  | drain {s : Sweep} (log : List Event) : w.sweeps[k]? = some s → s.drainedAt = none →
      SweepTurn env w k .drain { w with
        coordinator := w.coordinator.drain
        sweeps := w.sweeps.set k (.drain w.now w.coordinator.registry), behind := log }
  | cancel {i : Nat} {s : Sweep} {j : Join} : w.sweeps[k]? = some s → s.joins[i]? = some j →
      j.deadline = none →
      SweepTurn env w k (.cancel i) { w with
        members := w.members.modify j.entry.member fun x => { x with cancel := true }
        sweeps := w.sweeps.set k
          (s.setJoin i { j with deadline := some (w.now + env.settings.joinTimeout) }) }
  | stopped {i : Nat} {s : Sweep} {j : Join} : w.sweeps[k]? = some s →
      s.joins[i]? = some j → j.isWaiting →
      (w.members[j.entry.member]?).all (·.isOver) →
      SweepTurn env w k (.stopped i) { w with
        sweeps := w.sweeps.set k (s.setJoin i { j with result := some .stopped }) }
  | timedOut {i : Nat} {s : Sweep} {j : Join} (log : List Event) : w.sweeps[k]? = some s →
      s.joins[i]? = some j → j.isWaiting → j.isOverdue w.now →
      (w.members[j.entry.member]?).all (·.isOver) = false →
      SweepTurn env w k (.timedOut i) { w with
        sweeps := w.sweeps.set k (s.setJoin i { j with result := some .timedOut }), behind := log }
  | report {s : Sweep} (log : List Event) : w.sweeps[k]? = some s →
      s.endedAt = none → s.isSettled →
      SweepTurn env w k .report { w with
        sweeps := w.sweeps.set k { s with endedAt := some w.now }, behind := log }

/-! ## Effects -/

/-- What an action makes of a world. -/
inductive Effect (env : Environment) (w : World) : Action → World → Prop where
  /-- nothing: an operation that was refused, or nothing but time and the host -/
  | stay {a : Action} (now : Nat) (held : Bool) :
      Effect env w a { w with now := now, held := held }
  | arrive {a : Action} (x : Member) : x.IsNew →
      Effect env w a { w with members := w.members ++ [x] }
  | turn {a : Action} {m : Nat} {x x' : Member} {c' : Coordinator} (pid : Nat)
      (log : List Event) : w.members[m]? = some x → Turn env w m x a x' c' →
      Effect env w a { w with
        coordinator := c', members := w.members.set m x', nextPid := pid, behind := log }
  | unregister (id : Nat) :
      Effect env w (.unregister id) { w with coordinator := w.coordinator.remove id }
  | takeHooks : Effect env w .takeHooks { w with coordinator := w.coordinator.takeHooks }
  | call (kind : CallKind) (m : Nat) :
      Effect env w (.call kind m) { w with calls := w.calls ++ [{ member := m, kind }] }
  | proceed {i : Nat} {k : Call} {x x' : Member} {h : Handle} {s : CallStage}
      (log : List Event) : w.calls[i]? = some k → w.members[k.member]? = some x →
      x.body = .handle h →
      k.Move env.settings.stopTimeout w.now (w.isHeld k.member) x h s x' →
      Effect env w (.proceed i) { w with
        calls := w.calls.set i (k.goto s), members := w.members.set k.member x', behind := log }
  | abandon {i : Nat} {k : Call} : w.calls[i]? = some k →
      Effect env w (.abandon i) { w with calls := w.calls.set i (k.goto .abandoned) }
  | sweep : Effect env w .sweep
      { w with coordinator := w.coordinator.raise, sweeps := w.sweeps ++ [{}] }
  | drain {k : Nat} {s : Sweep} (log : List Event) : w.sweeps[k]? = some s →
      s.drainedAt = none →
      Effect env w (.sweepStep k .drain) { w with
        coordinator := w.coordinator.drain
        sweeps := w.sweeps.set k (.drain w.now w.coordinator.registry), behind := log }
  | cancel {k i : Nat} {s : Sweep} {j : Join} : w.sweeps[k]? = some s → s.joins[i]? = some j →
      j.deadline = none →
      Effect env w (.sweepStep k (.cancel i)) { w with
        members := w.members.modify j.entry.member fun x => { x with cancel := true }
        sweeps := w.sweeps.set k
          (s.setJoin i { j with deadline := some (w.now + env.settings.joinTimeout) }) }
  | stopped {k i : Nat} {s : Sweep} {j : Join} : w.sweeps[k]? = some s →
      s.joins[i]? = some j → j.isWaiting →
      (w.members[j.entry.member]?).all (·.isOver) →
      Effect env w (.sweepStep k (.stopped i)) { w with
        sweeps := w.sweeps.set k (s.setJoin i { j with result := some .stopped }) }
  | timedOut {k i : Nat} {s : Sweep} {j : Join} (log : List Event) : w.sweeps[k]? = some s →
      s.joins[i]? = some j → j.isWaiting → j.isOverdue w.now →
      (w.members[j.entry.member]?).all (·.isOver) = false →
      Effect env w (.sweepStep k (.timedOut i)) { w with
        sweeps := w.sweeps.set k (s.setJoin i { j with result := some .timedOut }), behind := log }
  | report {k : Nat} {s : Sweep} (log : List Event) : w.sweeps[k]? = some s →
      s.endedAt = none → s.isSettled →
      Effect env w (.sweepStep k .report) { w with
        sweeps := w.sweeps.set k { s with endedAt := some w.now }, behind := log }

namespace World

variable {env : Environment} {w w' : World}

theorem handle?_eq_some {x : Member} {h : Handle} : x.handle? = some h ↔ x.body = .handle h := by
  unfold Member.handle?
  cases x.body <;> simp

theorem guest?_eq_some {x : Member} {g : Guest} : x.guest? = some g ↔ x.body = .guest g := by
  unfold Member.guest?
  cases x.body <;> simp

/-- The handle at a place. -/
theorem handle?_iff {m : Nat} {h : Handle} :
    w.handle? m = some h ↔ ∃ x, w.members[m]? = some x ∧ x.body = .handle h := by
  simp only [handle?, Option.bind_eq_some_iff, handle?_eq_some]

/-- To put back the handle that is there changes nothing. -/
theorem setMember_self {m : Nat} {x : Member} {h : Handle} (hx : w.members[m]? = some x)
    (hb : x.body = .handle h) : w.setMember m (x.setHandle h) = w := by
  have hself : x.setHandle h = x := by
    obtain ⟨label, cancel, registration, body⟩ := x
    cases hb
    rfl
  obtain ⟨hlt, rfl⟩ := List.getElem?_eq_some_iff.1 hx
  rw [hself, setMember, List.set_getElem_self]

theorem guard_eq_ok {h : Handle} {op : Operation} {u : Unit} :
    h.guard op = .ok u ↔ h.status.state = .notStarted := by
  unfold Handle.guard
  by_cases hs : h.status.state = .notStarted <;> simp [hs]

theorem effect_of_onGuest {a : Action} {m : Nat} {f : Member → Guest → Option Guest}
    (h : w.onGuest m f = some w') : Effect env w a w' := by
  simp only [onGuest, Option.bind_eq_bind, Option.bind_eq_some_iff, Option.pure_def,
    Option.some.injEq] at h
  obtain ⟨x, hx, g, hg, g', -, rfl⟩ := h
  exact .turn _ _ hx (.guest g' (guest?_eq_some.1 hg))

/-- An operation on a handle is refused, or is a turn of its member. -/
theorem effect_of_onHandle {a : Action} {m : Nat} {f : Handle → Except Error Handle}
    (hf : ∀ x h h', x.body = .handle h → f h = .ok h' →
      Turn env w m x a (x.setHandle h') w.coordinator)
    (h : w.onHandle m f = some w') : Effect env w a w' := by
  simp only [onHandle, Option.bind_eq_bind, Option.bind_eq_some_iff] at h
  obtain ⟨x, hx, hd, hh, h⟩ := h
  split at h
  · next h' hok =>
    simp only [Option.pure_def, Option.some.injEq] at h
    subst h
    exact .turn _ _ hx (hf x hd h' (handle?_eq_some.1 hh) hok)
  · simp only [Option.pure_def, Option.some.injEq] at h
    subst h
    exact .stay _ _

theorem turn_of_configure {m : Nat} {c : Change} {x : Member} {h h' : Handle}
    (hx : x.body = .handle h) (hc : h.configure c = .ok h') :
    Turn env w m x (.configure m c) (x.setHandle h') w.coordinator := by
  unfold Handle.configure at hc
  cases hg : h.guard c.operation with
  | error e => rw [hg] at hc; cases hc
  | ok u =>
    rw [hg] at hc
    cases hc
    exact .configure c hx (guard_eq_ok.1 hg)

theorem turn_of_createControl {m : Nat} {label : String} {x : Member} {h h' : Handle}
    (hx : x.body = .handle h) (hc : h.createControl label = .ok h') :
    Turn env w m x (.createControl m label) (x.setHandle h') w.coordinator := by
  unfold Handle.createControl at hc
  cases hg : h.guard .createStopControl with
  | error e => rw [hg] at hc; cases hc
  | ok u =>
    rw [hg] at hc
    cases hc
    exact .createControl label hx (guard_eq_ok.1 hg)

theorem effect_of_start {m : Nat} {canSpawn : Bool} (h : w.start m canSpawn = some w') :
    Effect env w (.start m canSpawn) w' := by
  simp only [start, Option.bind_eq_bind, Option.bind_eq_some_iff] at h
  obtain ⟨x, hx, hd, hh, h⟩ := h
  cases hg : hd.guard .start with
  | error e =>
    simp only [Handle.start, hg, bind, Except.bind, Option.pure_def, Option.some.injEq] at h
    subst h
    exact .stay _ _
  | ok u =>
    cases canSpawn with
    | false =>
      simp only [Handle.start, hg, bind, Except.bind, Bool.false_eq_true, if_false,
        Option.pure_def, Option.some.injEq] at h
      subst h
      exact .stay _ _
    | true =>
      simp only [Handle.start, hg, bind, Except.bind, if_true, pure, Except.pure,
        Option.some.injEq] at h
      subst h
      exact .turn _ _ hx (.start (handle?_eq_some.1 hh) (guard_eq_ok.1 hg))

theorem effect_of_runnerStep {m : Nat} {s : RunnerStep} (h : runnerStep env w m s = some w') :
    Effect env w (.runner m s) w' := by
  simp only [runnerStep, Option.bind_eq_bind, Option.bind_eq_some_iff, Option.pure_def,
    Option.some.injEq] at h
  obtain ⟨x, hx, hd, hh, r, hr, n, hn, rfl⟩ := h
  have hb := handle?_eq_some.1 hh
  exact .turn _ _ hx (.runner hb hr (Runner.move_of_step hb hr hn))

theorem effect_of_pumpStep {m : Nat} {e : PumpEvent} (h : pumpStep env w m e = some w') :
    Effect env w (.pump m e) w' := by
  simp only [pumpStep, Runner.pumpStep, Option.bind_eq_bind, Option.bind_eq_some_iff,
    Option.pure_def, Option.some.injEq] at h
  obtain ⟨x, hx, hd, hh, r, hr, n, ⟨p, hp, n', hn', rfl⟩, rfl⟩ := h
  exact .turn _ _ hx (.pump n' (handle?_eq_some.1 hh) hr hp hn')

/-- A call that goes on makes a move. -/
theorem exists_move_of_proceed {i : Nat} (h : step env w (.proceed i) = some w') :
    ∃ k x hd s x' log, w.calls[i]? = some k ∧ w.members[k.member]? = some x ∧
      x.body = .handle hd ∧
      k.Move env.settings.stopTimeout w.now (w.isHeld k.member) x hd s x' ∧
      w' = { w with
        calls := w.calls.set i (k.goto s), members := w.members.set k.member x'
        behind := log } := by
  simp only [step, callStep, Option.bind_eq_bind, Option.bind_eq_some_iff, Option.pure_def,
    Option.some.injEq] at h
  obtain ⟨k, hk, x, hx, hd, hh, n, hn, rfl⟩ := h
  obtain ⟨s, hs, hm⟩ := Call.move_of_step hn
  exact ⟨k, x, hd, s, n.member, _, hk, hx, handle?_eq_some.1 hh, hm, by rw [hs]; rfl⟩

/-- To cancel a member that is there is to change it in its place. -/
theorem set_eq_modify {ms : List Member} {m : Nat} {x : Member} {f : Member → Member}
    (h : ms[m]? = some x) : ms.set m (f x) = ms.modify m f := by
  apply List.ext_getElem?
  intro i
  rw [List.getElem?_set, List.getElem?_modify]
  by_cases hi : m = i
  · subst hi
    obtain ⟨hlt, hx⟩ := List.getElem?_eq_some_iff.1 h
    simp [hlt, hx]
  · simp [hi]

theorem sweepTurn_of_sweepStep {k : Nat} {step : SweepStep}
    (h : sweepStep env w k step = some w') : SweepTurn env w k step w' := by
  simp only [sweepStep, Option.bind_eq_bind, Option.bind_eq_some_iff] at h
  obtain ⟨s, hs, h⟩ := h
  cases step with
  | drain =>
    cases hd : s.drainedAt with
    | some t => simp [hd] at h
    | none =>
      simp only [hd, Option.isSome_none, Bool.false_eq_true, if_false, Option.pure_def,
        Option.some.injEq] at h
      subst h
      exact .drain _ hs hd
  | cancel i =>
    simp only [Option.bind_eq_some_iff] at h
    obtain ⟨j, hj, h⟩ := h
    cases hd : j.deadline with
    | some t => simp [hd] at h
    | none =>
      simp only [hd, Option.isSome_none, Bool.false_eq_true, if_false, Option.pure_def] at h
      cases hx : w.members[j.entry.member]? with
      | some x =>
        simp only [hx, Option.some.injEq] at h
        subst h
        simp only [setMember, set_eq_modify (f := fun x => { x with cancel := true }) hx]
        exact .cancel hs hj hd
      | none =>
        simp only [hx, Option.some.injEq] at h
        subst h
        have hm : w.members.modify j.entry.member (fun x => { x with cancel := true }) =
            w.members := List.modify_eq_self (List.getElem?_eq_none_iff.1 hx)
        have he : SweepTurn env w k (.cancel i) _ := .cancel hs hj hd
        rw [hm] at he
        exact he
  | stopped i =>
    simp only [Option.bind_eq_some_iff] at h
    obtain ⟨j, hj, h⟩ := h
    split at h
    · next hg =>
      simp only [Option.pure_def, Option.some.injEq] at h
      subst h
      exact .stopped hs hj hg.1 hg.2
    · cases h
  | timedOut i =>
    simp only [Option.bind_eq_some_iff] at h
    obtain ⟨j, hj, h⟩ := h
    split at h
    · next hg =>
      simp only [Option.pure_def, Option.some.injEq] at h
      subst h
      exact .timedOut _ hs hj hg.1 hg.2.1 (by simpa using hg.2.2)
    · cases h
  | report =>
    dsimp only at h
    split at h
    · next hg =>
      simp only [Option.pure_def, Option.some.injEq] at h
      subst h
      exact .report _ hs (by simpa using hg.1) hg.2
    · cases h

theorem effect_of_sweepStep {k : Nat} {step : SweepStep}
    (h : sweepStep env w k step = some w') : Effect env w (.sweepStep k step) w' := by
  cases sweepTurn_of_sweepStep h with
  | drain log hs hd => exact .drain log hs hd
  | cancel hs hj hd => exact .cancel hs hj hd
  | stopped hs hj hw ho => exact .stopped hs hj hw ho
  | timedOut log hs hj hw hd ho => exact .timedOut log hs hj hw hd ho
  | report log hs hn hset => exact .report log hs hn hset

/-- **The actions that can be taken have these effects.** -/
theorem effect_of_step {a : Action} (h : step env w a = some w') : Effect env w a w' := by
  cases a with
  | welcome label g =>
    simp only [step, Option.some.injEq] at h
    subst h
    exact .arrive _ ⟨rfl, rfl, fun hd hh => by cases hh⟩
  | register m =>
    simp only [step, Option.bind_eq_bind, Option.bind_eq_some_iff, Option.pure_def,
      Option.some.injEq] at h
    obtain ⟨x, hx, g, hg, n, hn, rfl⟩ := h
    obtain ⟨n', hn', hm, hc⟩ := Member.register_eq_some hn
    simp only [accept, setMember, note, hm, hc]
    exact .turn _ _ hx (.register n' (guest?_eq_some.1 hg) hn')
  | unregister id => cases h; exact .unregister id
  | setState m s => exact effect_of_onGuest h
  | vanish m => exact effect_of_onGuest h
  | react m => exact effect_of_onGuest h
  | create command sink =>
    simp only [step, Handle.create] at h
    by_cases hc : command = []
    · simp only [hc, if_true, Option.some.injEq] at h
      subst h
      exact .stay _ _
    · simp only [hc, if_false, Option.some.injEq] at h
      subst h
      refine .arrive _ ⟨rfl, rfl, fun hd hh => ?_⟩
      cases hh
      exact ⟨rfl, rfl, rfl, rfl⟩
  | configure m c => exact effect_of_onHandle (fun x h h' => turn_of_configure) h
  | createControl m label => exact effect_of_onHandle (fun x h h' => turn_of_createControl) h
  | start m canSpawn => exact effect_of_start h
  | copy m =>
    simp only [step] at h
    refine effect_of_onHandle (fun x h h' hx hc => ?_) h
    cases hc
    exact .copies _ hx
  | drop m =>
    simp only [step] at h
    refine effect_of_onHandle (fun x h h' hx hc => ?_) h
    cases hc
    exact .copies _ hx
  | runner m s => exact effect_of_runnerStep h
  | pump m e => exact effect_of_pumpStep h
  | call kind m =>
    simp only [step] at h
    split at h
    · cases h; exact .call kind m
    · cases h
  | proceed i =>
    obtain ⟨k, x, hd, s, x', log, hk, hx, hb, hm, rfl⟩ := exists_move_of_proceed h
    exact .proceed log hk hx hb hm
  | abandon i =>
    simp only [step, Option.bind_eq_bind, Option.bind_eq_some_iff] at h
    obtain ⟨k, hk, h⟩ := h
    cases hr : k.isReturned with
    | true => simp [hr] at h
    | false =>
      simp only [hr, Bool.false_eq_true, if_false, Option.pure_def, Option.some.injEq] at h
      subst h
      exact .abandon hk
  | sweep => cases h; exact .sweep
  | sweepStep k s => exact effect_of_sweepStep h
  | takeHooks => cases h; exact .takeHooks
  | release => cases h; exact .stay _ _
  | pass ms => cases h; exact .stay _ _

end World

/-! ## Shifts of a member -/

/-- What can become of the member `x` at the place `m` in an action of whatever
    party. -/
inductive Shift (env : Environment) (w : World) (m : Nat) (x : Member) :
    Action → Member → Prop where
  | same {a : Action} : Shift env w m x a x
  | turn {a : Action} {x' : Member} {c' : Coordinator} : Turn env w m x a x' c' →
      Shift env w m x a x'
  | call {i : Nat} {k : Call} {h : Handle} {s : CallStage} {x' : Member} :
      w.calls[i]? = some k → k.member = m → x.body = .handle h →
      k.Move env.settings.stopTimeout w.now (w.isHeld m) x h s x' →
      Shift env w m x (.proceed i) x'
  | cancel {k i : Nat} {s : Sweep} {j : Join} : w.sweeps[k]? = some s →
      s.joins[i]? = some j → j.entry.member = m → j.deadline = none →
      Shift env w m x (.sweepStep k (.cancel i)) { x with cancel := true }

/-- A guest does not become a handle. -/
theorem Shift.handle_back {env : Environment} {w : World} {m : Nat} {x x' : Member} {a : Action}
    (hs : Shift env w m x a x') {h' : Handle} (hb' : x'.body = .handle h') :
    ∃ h, x.body = .handle h := by
  cases hs with
  | same => exact ⟨h', hb'⟩
  | turn ht =>
    cases ht with
    | guest g' _ => cases hb'
    | register n hb _ => rw [Member.enrol_body, hb] at hb'; cases hb'
    | configure _ hb _ => exact ⟨_, hb⟩
    | createControl _ hb _ => exact ⟨_, hb⟩
    | start hb _ => exact ⟨_, hb⟩
    | copies _ hb => exact ⟨_, hb⟩
    | runner hb _ _ => exact ⟨_, hb⟩
    | pump _ hb _ _ _ => exact ⟨_, hb⟩
  | call _ _ hb _ => exact ⟨_, hb⟩
  | cancel _ _ _ _ => exact ⟨h', hb'⟩

/-- The item at a place, when another or the same is put into its place. -/
theorem getElem?_set_cases {α : Type} {l : List α} {i j : Nat} {a b : α}
    (h : (l.set i b)[j]? = some a) : (i = j ∧ a = b) ∨ (i ≠ j ∧ l[j]? = some a) := by
  rw [List.getElem?_set] at h
  by_cases hij : i = j
  · refine Or.inl ⟨hij, ?_⟩
    simp only [hij, if_true] at h
    split at h
    · exact (Option.some.inj h).symm
    · cases h
  · exact Or.inr ⟨hij, by simpa only [hij, if_false] using h⟩

/-- To put in an item that looks the same changes nothing of what is seen. -/
theorem map_set_of_eq {α β : Type} {f : α → β} {l : List α} {i : Nat} {a b : α}
    (h : l[i]? = some a) (hf : f b = f a) : (l.set i b).map f = l.map f := by
  apply List.ext_getElem?
  intro n
  rw [List.getElem?_map, List.getElem?_set, List.getElem?_map]
  by_cases hn : i = n
  · subst hn
    obtain ⟨hlt, rfl⟩ := List.getElem?_eq_some_iff.1 h
    simp [hlt, hf]
  · simp [hn]

/-- The number of those that are picked out, when another is put into a place. -/
theorem countP_set_add {α : Type} {p : α → Bool} {l : List α} {i : Nat} {a b : α}
    (h : l[i]? = some a) :
    (l.set i b).countP p + (p a).toNat = l.countP p + (p b).toNat := by
  induction l generalizing i with
  | nil => simp at h
  | cons c l ih =>
    cases i with
    | zero =>
      obtain rfl : c = a := by simpa using h
      simp only [List.set_cons_zero, List.countP_cons]
      cases p c <;> cases p b <;> simp
    | succ i =>
      have := ih (i := i) (by simpa using h)
      simp only [List.set_cons_succ, List.countP_cons]
      omega

/-- The item at a place, when one was added at the end. -/
theorem getElem?_concat_cases {α : Type} {l : List α} {j : Nat} {a b : α}
    (h : (l ++ [b])[j]? = some a) : l[j]? = some a ∨ (l[j]? = none ∧ a = b) := by
  rcases Nat.lt_or_ge j l.length with hlt | hge
  · rw [List.getElem?_append_left hlt] at h
    exact Or.inl h
  · rw [List.getElem?_append_right hge, List.getElem?_singleton] at h
    refine Or.inr ⟨List.getElem?_eq_none_iff.2 hge, ?_⟩
    split at h
    · exact (Option.some.inj h).symm
    · cases h

namespace Effect

variable {env : Environment} {w w' : World} {a : Action}

/-- The member at a place, when another or the same is put into its place. -/
theorem shift_set {m n : Nat} {x y y' : Member} (hy : w.members[n]? = some y)
    (hx : w.members[m]? = some x) (hs : m = n → Shift env w m x a y') :
    ∃ x', (w.members.set n y')[m]? = some x' ∧ Shift env w m x a x' := by
  by_cases hmn : m = n
  · subst hmn
    obtain ⟨hlt, -⟩ := List.getElem?_eq_some_iff.1 hy
    exact ⟨y', by simp [hlt], hs rfl⟩
  · exact ⟨x, by rw [List.getElem?_set_ne (Ne.symm hmn), hx], .same⟩

/-- **A member stays at its place**, and becomes one of its shifts. -/
theorem shift (he : Effect env w a w') {m : Nat} {x : Member} (hx : w.members[m]? = some x) :
    ∃ x', w'.members[m]? = some x' ∧ Shift env w m x a x' := by
  cases he with
  | arrive y _ =>
    obtain ⟨hlt, -⟩ := List.getElem?_eq_some_iff.1 hx
    exact ⟨x, by rw [← hx]; exact List.getElem?_append_left hlt, .same⟩
  | turn pid log hy ht =>
    refine shift_set hy hx fun hmn => ?_
    subst hmn
    rw [hx] at hy
    cases hy
    exact .turn ht
  | proceed log hk hy hb hm =>
    refine shift_set hy hx fun hmn => ?_
    subst hmn
    rw [hx] at hy
    cases hy
    exact .call hk rfl hb hm
  | @cancel k i s j hs hj hd =>
    rw [List.getElem?_modify, hx]
    by_cases hm : j.entry.member = m
    · exact ⟨{ x with cancel := true }, by simp [hm], .cancel hs hj hm hd⟩
    · exact ⟨x, by simp [hm], .same⟩
  | _ => exact ⟨x, hx, .same⟩

/-- A member was there before, or has just come. -/
theorem shift_back (he : Effect env w a w') {m : Nat} {x' : Member}
    (hx : w'.members[m]? = some x') :
    (∃ x, w.members[m]? = some x ∧ Shift env w m x a x') ∨
      (w.members[m]? = none ∧ x'.IsNew) := by
  cases hm : w.members[m]? with
  | some x =>
    obtain ⟨y, hy, hs⟩ := he.shift hm
    rw [hx] at hy
    cases hy
    exact Or.inl ⟨x, rfl, hs⟩
  | none =>
    refine Or.inr ⟨rfl, ?_⟩
    cases he with
    | arrive y hy =>
      rcases getElem?_concat_cases hx with hx | ⟨-, rfl⟩
      · rw [hm] at hx; cases hx
      · exact hy
    | turn pid log hy ht =>
      rcases getElem?_set_cases hx with ⟨rfl, -⟩ | ⟨-, hx⟩
      · rw [hm] at hy; cases hy
      · rw [hm] at hx; cases hx
    | proceed log hk hy hb hmv =>
      rcases getElem?_set_cases hx with ⟨rfl, -⟩ | ⟨-, hx⟩
      · rw [hm] at hy; cases hy
      · rw [hm] at hx; cases hx
    | cancel => simp [List.getElem?_modify, hm] at hx
    | _ => simp [hm] at hx

end Effect

/-! ## Shifts of a sweep and of a call -/

/-- What can become of the sweep `s` at the place `k`. -/
inductive Sweep.Shift (env : Environment) (w : World) (k : Nat) (s : Sweep) :
    Action → Sweep → Prop where
  | same {a : Action} : Shift env w k s a s
  | drain : s.drainedAt = none →
      Shift env w k s (.sweepStep k .drain) (.drain w.now w.coordinator.registry)
  | cancel {i : Nat} {j : Join} : s.joins[i]? = some j → j.deadline = none →
      Shift env w k s (.sweepStep k (.cancel i))
        (s.setJoin i { j with deadline := some (w.now + env.settings.joinTimeout) })
  | stopped {i : Nat} {j : Join} : s.joins[i]? = some j → j.isWaiting →
      (w.members[j.entry.member]?).all (·.isOver) →
      Shift env w k s (.sweepStep k (.stopped i))
        (s.setJoin i { j with result := some .stopped })
  | timedOut {i : Nat} {j : Join} : s.joins[i]? = some j → j.isWaiting → j.isOverdue w.now →
      (w.members[j.entry.member]?).all (·.isOver) = false →
      Shift env w k s (.sweepStep k (.timedOut i))
        (s.setJoin i { j with result := some .timedOut })
  | report : s.endedAt = none → s.isSettled →
      Shift env w k s (.sweepStep k .report) { s with endedAt := some w.now }

/-- What can become of the call `k` at the place `i`. -/
inductive Call.Shift (env : Environment) (w : World) (i : Nat) (k : Call) :
    Action → Call → Prop where
  | same {a : Action} : Shift env w i k a k
  | proceed {x x' : Member} {h : Handle} {s : CallStage} : w.members[k.member]? = some x →
      x.body = .handle h →
      k.Move env.settings.stopTimeout w.now (w.isHeld k.member) x h s x' →
      Shift env w i k (.proceed i) (k.goto s)
  | abandon : Shift env w i k (.abandon i) (k.goto .abandoned)

namespace Effect

variable {env : Environment} {w w' : World} {a : Action}

/-- A sweep was there before, or has just begun. -/
theorem sweep_back (he : Effect env w a w') {k : Nat} {s' : Sweep}
    (hs : w'.sweeps[k]? = some s') :
    (∃ s, w.sweeps[k]? = some s ∧ s.Shift env w k a s') ∨
      (w.sweeps[k]? = none ∧ a = .sweep ∧ s' = {}) := by
  cases he with
  | sweep =>
    rcases getElem?_concat_cases hs with hs | ⟨hn, rfl⟩
    · exact Or.inl ⟨s', hs, .same⟩
    · exact Or.inr ⟨hn, rfl, rfl⟩
  | @drain i s log hi hd =>
    rcases getElem?_set_cases hs with ⟨rfl, rfl⟩ | ⟨-, hs⟩
    · exact Or.inl ⟨s, hi, .drain hd⟩
    · exact Or.inl ⟨s', hs, .same⟩
  | @cancel i n s j hi hj hd =>
    rcases getElem?_set_cases hs with ⟨rfl, rfl⟩ | ⟨-, hs⟩
    · exact Or.inl ⟨s, hi, .cancel hj hd⟩
    · exact Or.inl ⟨s', hs, .same⟩
  | @stopped i n s j hi hj hw ho =>
    rcases getElem?_set_cases hs with ⟨rfl, rfl⟩ | ⟨-, hs⟩
    · exact Or.inl ⟨s, hi, .stopped hj hw ho⟩
    · exact Or.inl ⟨s', hs, .same⟩
  | @timedOut i n s j log hi hj hw hd ho =>
    rcases getElem?_set_cases hs with ⟨rfl, rfl⟩ | ⟨-, hs⟩
    · exact Or.inl ⟨s, hi, .timedOut hj hw hd ho⟩
    · exact Or.inl ⟨s', hs, .same⟩
  | @report i s log hi hn hset =>
    rcases getElem?_set_cases hs with ⟨rfl, rfl⟩ | ⟨-, hs⟩
    · exact Or.inl ⟨s, hi, .report hn hset⟩
    · exact Or.inl ⟨s', hs, .same⟩
  | _ => exact Or.inl ⟨s', hs, .same⟩

/-- A sweep stays at its place. -/
theorem sweep_shift (he : Effect env w a w') {k : Nat} {s : Sweep}
    (hs : w.sweeps[k]? = some s) : ∃ s', w'.sweeps[k]? = some s' ∧ s.Shift env w k a s' := by
  have hlen : w.sweeps.length ≤ w'.sweeps.length := by cases he <;> simp
  obtain ⟨hlt, -⟩ := List.getElem?_eq_some_iff.1 hs
  have hs' := List.getElem?_eq_getElem (Nat.lt_of_lt_of_le hlt hlen)
  rcases he.sweep_back hs' with ⟨s₀, hs₀, hsh⟩ | ⟨hn, -, -⟩
  · rw [hs] at hs₀
    cases hs₀
    exact ⟨_, hs', hsh⟩
  · rw [hs] at hn
    cases hn

/-- A call was there before, or has just been made. -/
theorem call_back (he : Effect env w a w') {i : Nat} {k' : Call} (hk : w'.calls[i]? = some k') :
    (∃ k, w.calls[i]? = some k ∧ k.Shift env w i a k') ∨
      (w.calls[i]? = none ∧ a = .call k'.kind k'.member ∧ k'.stage = .entered) := by
  cases he with
  | call kind m =>
    rcases getElem?_concat_cases hk with hk | ⟨hn, rfl⟩
    · exact Or.inl ⟨k', hk, .same⟩
    · exact Or.inr ⟨hn, rfl, rfl⟩
  | @proceed n k x x' h s log hn hx hb hm =>
    rcases getElem?_set_cases hk with ⟨rfl, rfl⟩ | ⟨-, hk⟩
    · exact Or.inl ⟨k, hn, .proceed hx hb hm⟩
    · exact Or.inl ⟨k', hk, .same⟩
  | @abandon n k hn =>
    rcases getElem?_set_cases hk with ⟨rfl, rfl⟩ | ⟨-, hk⟩
    · exact Or.inl ⟨k, hn, .abandon⟩
    · exact Or.inl ⟨k', hk, .same⟩
  | _ => exact Or.inl ⟨k', hk, .same⟩

/-- A call stays at its place. -/
theorem call_shift (he : Effect env w a w') {i : Nat} {k : Call} (hk : w.calls[i]? = some k) :
    ∃ k', w'.calls[i]? = some k' ∧ k.Shift env w i a k' := by
  have hlen : w.calls.length ≤ w'.calls.length := by cases he <;> simp
  obtain ⟨hlt, -⟩ := List.getElem?_eq_some_iff.1 hk
  have hk' := List.getElem?_eq_getElem (Nat.lt_of_lt_of_le hlt hlen)
  rcases he.call_back hk' with ⟨k₀, hk₀, hsh⟩ | ⟨hn, -, -⟩
  · rw [hk] at hk₀
    cases hk₀
    exact ⟨_, hk', hsh⟩
  · rw [hk] at hn
    cases hn

end Effect

end Supervisor
