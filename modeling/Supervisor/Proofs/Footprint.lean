/-
  Whose action it is, and what it may change.

  * `World.owner`: the member that an action is about, or that comes with it;
  * `World.callsOn` are the calls on a member, `World.rank` is the place of a call among
    them;
  * operations, runner steps, pump events and steps of calls are inverted once
    (`onHandle_eq_some`, `runnerStep_eq_some`, `pumpStep_eq_some`, `callStep_eq_some`);
  * `World.Footprint` is what an action may change, and `footprint_of_step` says that every
    action has one; so the actions of others leave a member and its calls alone
    (`frame_of_step`), and only `pass` takes time (`now_of_step`).
-/
import Supervisor.Proofs.Effect

namespace Supervisor

/-! ## Items that are picked out -/

section
variable {α : Type} {p : α → Bool} {l : List α} {k : Nat} {a b : α}

/-- An item that is picked out, at its place among those that are. -/
theorem getElem?_filter_countP (ha : l[k]? = some a) (hp : p a = true) :
    (l.filter p)[(l.take k).countP p]? = some a := by
  induction l generalizing k with
  | nil => simp at ha
  | cons c l ih =>
    cases k with
    | zero =>
      obtain rfl : c = a := by simpa using ha
      simp [hp]
    | succ k =>
      have ha : l[k]? = some a := by simpa using ha
      cases hc : p c with
      | true => simpa [hc] using ih ha
      | false => simpa [hc] using ih ha

/-- To change an item that is picked out is to change it among those that are. -/
theorem filter_set_of_pos (ha : l[k]? = some a) (hp : p a = true) (hb : p b = true) :
    (l.set k b).filter p = (l.filter p).set ((l.take k).countP p) b := by
  induction l generalizing k with
  | nil => simp at ha
  | cons c l ih =>
    cases k with
    | zero =>
      obtain rfl : c = a := by simpa using ha
      simp [hp, hb]
    | succ k =>
      have ha : l[k]? = some a := by simpa using ha
      cases hc : p c with
      | true => simpa [hc] using ih ha
      | false => simpa [hc] using ih ha

/-- To change an item that is not picked out changes none that is. -/
theorem filter_set_of_neg (ha : l[k]? = some a) (hp : p a = false) (hb : p b = false) :
    (l.set k b).filter p = l.filter p := by
  induction l generalizing k with
  | nil => simp at ha
  | cons c l ih =>
    cases k with
    | zero =>
      obtain rfl : c = a := by simpa using ha
      simp [hp, hb]
    | succ k =>
      have ha : l[k]? = some a := by simpa using ha
      cases hc : p c with
      | true => simpa [hc] using ih ha
      | false => simpa [hc] using ih ha

end

namespace World

variable {env : Environment} {w w' s s' : World} {m n : Nat} {a : Action}

/-! ## Owners -/

/-- The calls on a member. -/
def callsOn (w : World) (m : Nat) : List Call := w.calls.filter (·.member = m)

/-- The place of a call among those on a member. -/
def rank (w : World) (m k : Nat) : Nat := (w.calls.take k).countP (·.member = m)

/-- Whose action it is: the member that it is about, or that comes with it. -/
def owner (w : World) : Action → Option Nat
  | .welcome _ _ | .create _ _ => some w.members.length
  | .register m | .setState m _ | .vanish m | .react m | .configure m _ | .createControl m _
  | .start m _ | .copy m | .drop m | .runner m _ | .pump m _ | .call _ m => some m
  | .proceed k | .abandon k => w.calls[k]?.map (·.member)
  | .unregister _ | .sweep | .sweepStep _ _ | .takeHooks | .release | .pass _ => none

/-- An operation on a handle changes the handle, or is refused. -/
theorem onHandle_eq_some {f : Handle → Except Error Handle} (h : w.onHandle m f = some w') :
    ∃ x hd, w.members[m]? = some x ∧ x.body = .handle hd ∧
      ((∃ hd', f hd = .ok hd' ∧ w' = w.setMember m (x.setHandle hd')) ∨
        ∃ e, f hd = .error e ∧ w' = w) := by
  simp only [onHandle, Option.bind_eq_bind, Option.bind_eq_some_iff] at h
  obtain ⟨x, hx, hd, hh, h⟩ := h
  refine ⟨x, hd, hx, handle?_eq_some.1 hh, ?_⟩
  cases hf : f hd with
  | ok hd' => rw [hf] at h; cases h; exact Or.inl ⟨hd', rfl, rfl⟩
  | error e => rw [hf] at h; cases h; exact Or.inr ⟨e, rfl, rfl⟩

theorem guest_of_onGuest {f : Member → Guest → Option Guest} (h : w.onGuest m f = some w') :
    ∃ x g, w.members[m]? = some x ∧ x.guest? = some g := by
  simp only [onGuest, Option.bind_eq_bind, Option.bind_eq_some_iff] at h
  obtain ⟨x, hx, g, hg, -⟩ := h
  exact ⟨x, g, hx, hg⟩

/-- The start of a run, if it is not refused. -/
theorem start_eq_some {b : Bool} (h : w.start m b = some w') :
    ∃ x hd, w.members[m]? = some x ∧ x.body = .handle hd ∧
      ((∃ hd', hd.start b = .ok hd' ∧
        w' = (w.setMember m (x.setHandle hd')).note [.runnerSpawned hd'.command]) ∨
        ∃ e, hd.start b = .error e ∧ w' = w) := by
  simp only [World.start, Option.bind_eq_bind, Option.bind_eq_some_iff] at h
  obtain ⟨x, hx, hd, hh, h⟩ := h
  refine ⟨x, hd, hx, handle?_eq_some.1 hh, ?_⟩
  cases hf : hd.start b with
  | ok hd' => rw [hf] at h; cases h; exact Or.inl ⟨hd', rfl, rfl⟩
  | error e => rw [hf] at h; cases h; exact Or.inr ⟨e, rfl, rfl⟩

/-- A step of a runner, with what it leaves. -/
theorem runnerStep_eq_some {st : RunnerStep} (h : runnerStep env w m st = some w') :
    ∃ x hd r next, w.members[m]? = some x ∧ x.body = .handle hd ∧ hd.runner = some r ∧
      r.step (w.view env m) x hd st = some next ∧
      ∃ pid, w' = { w with nextPid := pid }.accept m next := by
  simp only [runnerStep, Option.bind_eq_bind, Option.bind_eq_some_iff, Option.pure_def,
    Option.some.injEq] at h
  obtain ⟨x, hx, hd, hh, r, hr, next, hn, rfl⟩ := h
  exact ⟨x, hd, r, next, hx, handle?_eq_some.1 hh, hr, hn, _, rfl⟩

/-- The step of the runner of a member, with what it leaves. -/
theorem step_of_runnerStep {st : RunnerStep} {x : Member} {h : Handle} {r : Runner}
    (hx : w.members[m]? = some x) (hb : x.body = .handle h) (hr : h.runner = some r)
    (ha : step env w (.runner m st) = some w') :
    ∃ next, r.step (w.view env m) x h st = some next ∧
      ∃ pid, w' = { w with nextPid := pid }.accept m next := by
  obtain ⟨y, k, q, next, hy, hk, hq, hn, hw'⟩ := runnerStep_eq_some ha
  rw [hx] at hy
  cases hy
  rw [hb] at hk
  cases hk
  rw [hr] at hq
  cases hq
  exact ⟨next, hn, hw'⟩

theorem runnerStep_of_step {st : RunnerStep} {x : Member} {h : Handle} {r : Runner}
    {next : Member.Result} (hx : w.members[m]? = some x) (hb : x.body = .handle h)
    (hr : h.runner = some r) (hn : r.step (w.view env m) x h st = some next) :
    ∃ pid, step env w (.runner m st) = some (World.accept { w with nextPid := pid } m next) := by
  simp only [step, runnerStep, hx, handle?_eq_some.2 hb, hr, hn, Option.bind_eq_bind,
    Option.bind_some, Option.pure_def]
  exact ⟨_, rfl⟩

/-- An event of a pump, with what it leaves. -/
theorem pumpStep_eq_some {e : PumpEvent} (h : pumpStep env w m e = some w') :
    ∃ x hd r next, w.members[m]? = some x ∧ x.body = .handle hd ∧ hd.runner = some r ∧
      r.pumpStep (w.view env m) x hd e = some next ∧ w' = w.accept m next := by
  simp only [pumpStep, Option.bind_eq_bind, Option.bind_eq_some_iff, Option.pure_def,
    Option.some.injEq] at h
  obtain ⟨x, hx, hd, hh, r, hr, next, hn, rfl⟩ := h
  exact ⟨x, hd, r, next, hx, handle?_eq_some.1 hh, hr, hn, rfl⟩

/-- A step of a call, with what it leaves. -/
theorem callStep_eq_some {i : Nat} (h : callStep env w i = some w') :
    ∃ k x hd next, w.calls[i]? = some k ∧ w.members[k.member]? = some x ∧ x.body = .handle hd ∧
      k.step env.settings.stopTimeout w.now (w.isHeld k.member) x hd = some next ∧
      w' = ({ w with calls := w.calls.set i next.call }.setMember k.member next.member).note
        next.events := by
  simp only [callStep, Option.bind_eq_bind, Option.bind_eq_some_iff, Option.pure_def,
    Option.some.injEq] at h
  obtain ⟨k, hk, x, hx, hd, hh, next, hn, rfl⟩ := h
  exact ⟨k, x, hd, next, hk, hx, handle?_eq_some.1 hh, hn, rfl⟩

theorem abandon_eq_some {i : Nat} (h : step env w (.abandon i) = some w') :
    ∃ k, w.calls[i]? = some k ∧ k.isReturned = false ∧
      w' = { w with calls := w.calls.set i (k.goto .abandoned) } := by
  simp only [step, Option.bind_eq_bind, Option.bind_eq_some_iff] at h
  obtain ⟨k, hk, h⟩ := h
  cases hr : k.isReturned with
  | true => simp [hr] at h
  | false =>
    simp only [hr, Bool.false_eq_true, if_false, Option.pure_def, Option.some.injEq] at h
    exact ⟨k, hk, hr, h.symm⟩

/-- The calls on another member stay when a call goes on. -/
theorem callsOn_set {i : Nat} {k l : Call} (hk : w.calls[i]? = some k) (hm : l.member = k.member)
    (hne : k.member ≠ m) (hc : w'.calls = w.calls.set i l) : w'.callsOn m = w.callsOn m := by
  rw [callsOn, callsOn, hc]
  exact filter_set_of_neg hk (decide_eq_false hne) (decide_eq_false (by rw [hm]; exact hne))

theorem member_of_callStep {bound now : Nat} {held : Bool} {x : Member} {hd : Handle} {k : Call}
    {next : Call.Result} (h : k.step bound now held x hd = some next) :
    next.call = k.goto next.call.stage := by
  obtain ⟨t, ht, -⟩ := Call.move_of_step h
  rw [ht]
  rfl

/-- What an action may change, and of whom. -/
inductive Footprint (w : World) : Action → World → Prop where
  /-- nothing: an operation that was refused -/
  | stay {a : Action} : Footprint w a w
  | pass (ms : Nat) : Footprint w (.pass ms) { w with now := w.now + ms }
  /-- what is nobody's -/
  | host {a : Action} (c : Coordinator) (held : Bool) (ss : List Sweep) : w.owner a = none →
      Footprint w a { w with coordinator := c, held := held, sweeps := ss }
  | arrive {a : Action} (x : Member) :
      (∃ label g, a = .welcome label g) ∨ (∃ command sink, a = .create command sink) →
      Footprint w a { w with members := w.members ++ [x] }
  /-- the member whose action it is -/
  | set {a : Action} {n : Nat} (x : Member) (c : Coordinator) (pid : Nat) (log : List Event) :
      w.owner a = some n → Footprint w a { w with
        coordinator := c, members := w.members.set n x, nextPid := pid, behind := log }
  | call (kind : CallKind) (n : Nat) :
      Footprint w (.call kind n) { w with calls := w.calls ++ [{ member := n, kind }] }
  | proceed {i : Nat} {k : Call} (t : CallStage) (x : Member) (log : List Event) :
      w.calls[i]? = some k → Footprint w (.proceed i) { w with
        calls := w.calls.set i (k.goto t), members := w.members.set k.member x, behind := log }
  | abandon {i : Nat} {k : Call} : w.calls[i]? = some k →
      Footprint w (.abandon i) { w with calls := w.calls.set i (k.goto .abandoned) }
  | sweepStep {k : Nat} {t : SweepStep} (c : Coordinator) (ms : List Member) (ss : List Sweep)
      (log : List Event) : w.sweeps ≠ [] → Footprint w (.sweepStep k t) { w with
        coordinator := c, members := ms, sweeps := ss, behind := log }

theorem Footprint.onHandle {f : Handle → Except Error Handle} (h : w.onHandle n f = some w')
    (ho : w.owner a = some n) : Footprint w a w' := by
  obtain ⟨x, hd, -, -, ⟨hd', -, rfl⟩ | ⟨e, -, rfl⟩⟩ := onHandle_eq_some h
  · exact .set _ _ _ _ ho
  · exact .stay

theorem Footprint.onGuest {f : Member → Guest → Option Guest} (h : w.onGuest n f = some w')
    (ho : w.owner a = some n) : Footprint w a w' := by
  simp only [World.onGuest, Option.bind_eq_bind, Option.bind_eq_some_iff, Option.pure_def,
    Option.some.injEq] at h
  obtain ⟨x, -, g, -, g', -, rfl⟩ := h
  exact .set _ _ _ _ ho

theorem footprint_of_sweepStep {k : Nat} {t : SweepStep} (ha : sweepStep env w k t = some w') :
    Footprint w (.sweepStep k t) w' := by
  have hs : w.sweeps ≠ [] := fun hs => by simp [sweepStep, hs] at ha
  cases sweepTurn_of_sweepStep ha <;> exact .sweepStep _ _ _ _ hs

/-- **The actions that can be taken have these footprints.** -/
theorem footprint_of_step (ha : step env w a = some w') : Footprint w a w' := by
  cases a with
  | welcome label g => cases ha; exact .arrive _ (Or.inl ⟨label, g, rfl⟩)
  | register n =>
    simp only [step, Option.bind_eq_bind, Option.bind_eq_some_iff, Option.pure_def,
      Option.some.injEq] at ha
    obtain ⟨x, -, g, -, next, -, rfl⟩ := ha
    exact .set _ _ _ _ rfl
  | unregister id => cases ha; exact .host _ _ _ rfl
  | setState n t => exact .onGuest ha rfl
  | vanish n => exact .onGuest ha rfl
  | react n => exact .onGuest ha rfl
  | create command sink =>
    simp only [step] at ha
    split at ha
    · cases ha; exact .arrive _ (Or.inr ⟨command, sink, rfl⟩)
    · cases ha; exact .stay
  | configure n c => exact .onHandle ha rfl
  | createControl n label => exact .onHandle ha rfl
  | start n b =>
    obtain ⟨x, hd, -, -, ⟨hd', -, rfl⟩ | ⟨e, -, rfl⟩⟩ := start_eq_some ha
    · exact .set _ _ _ _ rfl
    · exact .stay
  | copy n =>
    simp only [step] at ha
    exact .onHandle ha rfl
  | drop n =>
    simp only [step] at ha
    exact .onHandle ha rfl
  | runner n st =>
    obtain ⟨x, hd, r, next, -, -, -, -, pid, rfl⟩ := runnerStep_eq_some ha
    exact .set _ _ _ _ rfl
  | pump n e =>
    obtain ⟨x, hd, r, next, -, -, -, -, rfl⟩ := pumpStep_eq_some ha
    exact .set _ _ _ _ rfl
  | call kind n =>
    simp only [step] at ha
    split at ha
    · cases ha; exact .call kind n
    · cases ha
  | proceed i =>
    obtain ⟨k, x, hd, next, hk, -, -, hn, rfl⟩ := callStep_eq_some ha
    rw [member_of_callStep hn]
    exact .proceed _ _ _ hk
  | abandon i =>
    obtain ⟨k, hk, -, rfl⟩ := abandon_eq_some ha
    exact .abandon hk
  | sweep => cases ha; exact .host _ w.held _ rfl
  | sweepStep k t => exact footprint_of_sweepStep ha
  | takeHooks => cases ha; exact .host _ w.held w.sweeps rfl
  | release => cases ha; exact .host w.coordinator _ w.sweeps rfl
  | pass ms => cases ha; exact .pass ms

/-- What the actions of others leave alone. -/
structure Frame (m : Nat) (w w' : World) : Prop where
  member : w'.members[m]? = w.members[m]?
  calls : w'.callsOn m = w.callsOn m

/-- **The actions of others leave a member and its calls alone**, as long as there is no
    sweep. -/
theorem frame_of_step (ha : step env w a = some w') (hs : w.sweeps = [])
    (ho : w.owner a ≠ some m) : Frame m w w' := by
  have hne : ∀ n, w.owner a = some n → n ≠ m := fun n hn hnm => ho (by rw [hn, hnm])
  cases footprint_of_step ha with
  | arrive x harr =>
    refine ⟨?_, rfl⟩
    have hlen : w.members.length ≠ m := hne _ (by rcases harr with ⟨_, _, rfl⟩ | ⟨_, _, rfl⟩ <;> rfl)
    rcases Nat.lt_or_ge m w.members.length with hlt | hge
    · exact List.getElem?_append_left hlt
    · rw [List.getElem?_eq_none_iff.2 hge]
      exact List.getElem?_eq_none_iff.2 (by simp; omega)
  | set x c pid log hn => exact ⟨List.getElem?_set_ne (hne _ hn), rfl⟩
  | call kind n =>
    refine ⟨rfl, ?_⟩
    simp [callsOn, List.filter_append, hne n rfl]
  | @proceed i k t x log hk =>
    have hkm : k.member ≠ m := hne _ (by simp [owner, hk])
    exact ⟨List.getElem?_set_ne hkm, callsOn_set (l := k.goto t) hk rfl hkm rfl⟩
  | @abandon i k hk =>
    have hkm : k.member ≠ m := hne _ (by simp [owner, hk])
    exact ⟨rfl, callsOn_set (l := k.goto .abandoned) hk rfl hkm rfl⟩
  | sweepStep c ms ss log hsw => exact absurd hs hsw
  | _ => exact ⟨rfl, rfl⟩

theorem now_of_step (ha : step env w a = some w') (hp : ∀ ms, a ≠ .pass ms) : w'.now = w.now := by
  cases footprint_of_step ha with
  | pass ms => exact absurd rfl (hp ms)
  | _ => rfl

end World

end Supervisor
