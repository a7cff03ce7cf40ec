/-
  Handles on one coordinator do not interfere.

  * `World.Same m w n s`: the member `m` of `w` and the member `n` of `s` are the
    same but for numbers, and so are the calls on them; actions that match keep them so
    (`Same.step`);
  * `World.alone`: the actions of a run that are those of one handle, with the places that
    members and calls have if there are no others;
  * `handles_never_interfere`: what has become of a handle is what becomes of it alone, and
    steps of different handles commute.
-/
import Supervisor.Proofs.Anonymity
import Supervisor.Proofs.Footprint
import Supervisor.Proofs.Ledger
import Supervisor.Proofs.Lifecycle

namespace Supervisor

/-- A call without the member that it names. -/
def Call.anonymous (k : Call) : Call := { k with member := 0 }

namespace World

variable {env : Environment} {w w' s s' : World} {m n : Nat} {a : Action}

/-! ## Members that are the same but for numbers -/

/-- The member `m` of `w` and the member `n` of `s`, with the calls on them. -/
structure Same (m : Nat) (w : World) (n : Nat) (s : World) : Prop where
  now : s.now = w.now
  member : s.members[n]?.map Member.anonymous = w.members[m]?.map Member.anonymous
  calls : (s.callsOn n).map Call.anonymous = (w.callsOn m).map Call.anonymous

theorem Same.symm (hS : Same m w n s) : Same n s m w := ⟨hS.now.symm, hS.member.symm, hS.calls.symm⟩

theorem Same.of_frame (hf : Frame m w w') (hn : w'.now = w.now) : Same m w m w' :=
  ⟨hn, by rw [hf.member], by rw [hf.calls]⟩

theorem Same.trans {l : Nat} {u : World} (h₁ : Same m w n s) (h₂ : Same n s l u) : Same m w l u :=
  ⟨h₂.now.trans h₁.now, h₂.member.trans h₁.member, h₂.calls.trans h₁.calls⟩

/-- What is the same as a handle is one. -/
theorem Same.handle {x : Member} {h : Handle} (hS : Same m w n s) (hx : w.members[m]? = some x)
    (hb : x.body = .handle h) :
    ∃ y k, s.members[n]? = some y ∧ y.anonymous = x.anonymous ∧ y.body = .handle k ∧
      k.anonymous = h.anonymous := by
  have hm := hS.member
  rw [hx, Option.map_some, Option.map_eq_some_iff] at hm
  obtain ⟨y, hy, heq⟩ := hm
  obtain ⟨k, hk, hkh⟩ := Member.handle_of_anonymous heq hb
  exact ⟨y, k, hy, heq, hk, hkh⟩

/-- The same is put into the place of the same. -/
theorem Same.set {x y : Member} (hS : Same m w n s) (hx : w.members[m]? = some x)
    (hy : s.members[n]? = some y) (x' y' : Member) (heq : y'.anonymous = x'.anonymous)
    (hw : w'.now = w.now ∧ w'.members = w.members.set m x' ∧ w'.calls = w.calls)
    (hs : s'.now = s.now ∧ s'.members = s.members.set n y' ∧ s'.calls = s.calls) :
    Same m w' n s' := by
  obtain ⟨hlt, -⟩ := List.getElem?_eq_some_iff.1 hx
  obtain ⟨hlt', -⟩ := List.getElem?_eq_some_iff.1 hy
  refine ⟨by rw [hw.1, hs.1, hS.now], ?_, ?_⟩
  · rw [hw.2.1, hs.2.1]
    simp [hlt, hlt', heq]
  · rw [callsOn, callsOn, hw.2.2, hs.2.2]
    exact hS.calls

theorem Same.onHandle {f : Handle → Except Error Handle} (hS : Same m w n s)
    (hf : ∀ h k : Handle, k.anonymous = h.anonymous →
      (f k).map Handle.anonymous = (f h).map Handle.anonymous)
    (ha : w.onHandle m f = some w') : ∃ s', s.onHandle n f = some s' ∧ Same m w' n s' := by
  obtain ⟨x, h, hx, hb, hcase⟩ := onHandle_eq_some ha
  obtain ⟨y, k, hy, heq, hk, hkh⟩ := hS.handle hx hb
  have hfk := hf h k hkh
  rcases hcase with ⟨h', hok, rfl⟩ | ⟨e, herr, rfl⟩
  · cases hk' : f k with
    | error e => rw [hok, hk'] at hfk; cases hfk
    | ok k' =>
      rw [hok, hk'] at hfk
      have hkh' : k'.anonymous = h'.anonymous := Except.ok.inj hfk
      refine ⟨s.setMember n (y.setHandle k'), ?_, ?_⟩
      · simp [World.onHandle, hy, handle?_eq_some.2 hk, hk']
      · refine hS.set hx hy (x.setHandle h') (y.setHandle k') ?_ ⟨rfl, rfl, rfl⟩
          ⟨rfl, rfl, rfl⟩
        rw [Member.anonymous_setHandle, Member.anonymous_setHandle, heq, hkh']
  · cases hk' : f k with
    | ok k' => rw [herr, hk'] at hfk; cases hfk
    | error e' => exact ⟨s, by simp [World.onHandle, hy, handle?_eq_some.2 hk, hk'], hS⟩

theorem Same.start {b : Bool} (hS : Same m w n s) (ha : w.start m b = some w') :
    ∃ s', s.start n b = some s' ∧ Same m w' n s' := by
  obtain ⟨x, h, hx, hb, hcase⟩ := start_eq_some ha
  obtain ⟨y, k, hy, heq, hk, hkh⟩ := hS.handle hx hb
  have hfk := Handle.start_congr hkh b
  rcases hcase with ⟨h', hok, rfl⟩ | ⟨e, herr, rfl⟩
  · cases hk' : k.start b with
    | error e => rw [hok, hk'] at hfk; cases hfk
    | ok k' =>
      rw [hok, hk'] at hfk
      have hkh' : k'.anonymous = h'.anonymous := Except.ok.inj hfk
      refine ⟨(s.setMember n (y.setHandle k')).note [.runnerSpawned k'.command], ?_, ?_⟩
      · simp [World.start, hy, handle?_eq_some.2 hk, hk']
      · refine hS.set hx hy (x.setHandle h') (y.setHandle k') ?_ ⟨rfl, rfl, rfl⟩
          ⟨rfl, rfl, rfl⟩
        rw [Member.anonymous_setHandle, Member.anonymous_setHandle, heq, hkh']
  · cases hk' : k.start b with
    | ok k' => rw [herr, hk'] at hfk; cases hfk
    | error e' => exact ⟨s, by simp [World.start, hy, handle?_eq_some.2 hk, hk'], hS⟩

/-- No sweep has begun. -/
def IsCalm (w : World) : Prop := w.coordinator.shuttingDown = false

/-- The runner of a member would look after the exit hook next. -/
def LooksAtHook (env : Environment) (w : World) (m : Nat) : Prop :=
  ∃ x h r, w.members[m]? = some x ∧ x.body = .handle h ∧ h.runner = some r ∧
    r.stage = .registering ∧ x.registration.anonymous = .inserted 0 ∧ env.hasHooks = true

theorem Same.runner {st : RunnerStep} (hS : Same m w n s) (hw : w.IsCalm) (hs : s.IsCalm)
    (hhook : LooksAtHook env w m → s.coordinator.hookClaimed = w.coordinator.hookClaimed)
    (ha : runnerStep env w m st = some w') :
    ∃ s', runnerStep env s n st = some s' ∧ Same m w' n s' := by
  obtain ⟨x, h, r, next, hx, hb, hr, hn, pid, rfl⟩ := runnerStep_eq_some ha
  obtain ⟨y, k, hy, heq, hk, hkh⟩ := hS.handle hx hb
  obtain ⟨q, hq, hqr⟩ := Handle.runner_of_anonymous hkh hr
  have hv : (w.view env m).Alike (s.view env n) := ⟨rfl, hS.now, hs.trans hw.symm⟩
  have hstep := Runner.step_congr hv heq hkh hqr
    (fun hst hins hh => hhook ⟨x, h, r, hx, hb, hr, hst, hins, hh⟩) st
  rw [hn, Option.map_some, Option.map_eq_some_iff] at hstep
  obtain ⟨next', hn', heq'⟩ := hstep
  refine ⟨World.accept { s with
    nextPid := if q.stage = .launching then s.nextPid + 1 else s.nextPid } n next', ?_,
    hS.set hx hy _ _ heq' ⟨rfl, rfl, rfl⟩ ⟨rfl, rfl, rfl⟩⟩
  simp only [runnerStep, hy, handle?_eq_some.2 hk, hq, hn', Option.bind_eq_bind, Option.bind_some,
    Option.pure_def]

theorem Same.pump {e : PumpEvent} (hS : Same m w n s) (hw : w.IsCalm) (hs : s.IsCalm)
    (ha : pumpStep env w m e = some w') : ∃ s', pumpStep env s n e = some s' ∧ Same m w' n s' := by
  obtain ⟨x, h, r, next, hx, hb, hr, hn, rfl⟩ := pumpStep_eq_some ha
  obtain ⟨y, k, hy, heq, hk, hkh⟩ := hS.handle hx hb
  obtain ⟨q, hq, hqr⟩ := Handle.runner_of_anonymous hkh hr
  have hv : (w.view env m).Alike (s.view env n) := ⟨rfl, hS.now, hs.trans hw.symm⟩
  have hstep := Runner.pumpStep_congr hv heq hkh hqr e
  rw [hn, Option.map_some, Option.map_eq_some_iff] at hstep
  obtain ⟨next', hn', heq'⟩ := hstep
  refine ⟨s.accept n next', ?_, hS.set hx hy _ _ heq' ⟨rfl, rfl, rfl⟩ ⟨rfl, rfl, rfl⟩⟩
  simp only [pumpStep, hy, handle?_eq_some.2 hk, hq, hn', Option.bind_eq_bind, Option.bind_some,
    Option.pure_def]

theorem isHeld_eq (w : World) (m : Nat) :
    w.isHeld m = ((w.members[m]?.map Member.anonymous).any (fun x => x.handle?.any fun h =>
      decide (0 < h.copies)) || ((w.callsOn m).map Call.anonymous).any (·.holds)) := by
  have hcopies : (w.handle? m).any (fun h => decide (0 < h.copies)) =
      (w.members[m]?.map Member.anonymous).any fun x => x.handle?.any fun h =>
        decide (0 < h.copies) := by
    cases hx : w.members[m]? with
    | none => simp [handle?, hx]
    | some x =>
      cases hb : x.body with
      | guest g => simp [handle?, hx, Member.handle?, Member.anonymous, Body.anonymous, hb]
      | handle h =>
        simp [handle?, hx, Member.handle?, Member.anonymous, Body.anonymous, hb, Handle.anonymous]
  have hcalls : (w.calls.any fun k => decide (k.member = m) && k.holds) =
      ((w.callsOn m).map Call.anonymous).any (·.holds) := by
    rw [callsOn, List.any_map, List.any_filter]
    rfl
  rw [isHeld, hcopies, hcalls]

theorem Same.isHeld (hS : Same m w n s) : s.isHeld n = w.isHeld m := by
  rw [isHeld_eq, isHeld_eq, hS.member, hS.calls]

/-- Calls that have the same place among those on their members. -/
structure SameCall (m : Nat) (w : World) (i : Nat) (n : Nat) (s : World) (j : Nat) : Prop where
  owner : w.calls[i]?.map (·.member) = some m
  owner' : s.calls[j]?.map (·.member) = some n
  rank : s.rank n j = w.rank m i

theorem callsOn_rank {i : Nat} {k : Call} (hk : w.calls[i]? = some k) (hm : k.member = m) :
    (w.callsOn m)[w.rank m i]? = some k :=
  getElem?_filter_countP hk (decide_eq_true hm)

theorem Same.call {i j : Nat} {k : Call} (hS : Same m w n s) (hij : SameCall m w i n s j)
    (hk : w.calls[i]? = some k) :
    k.member = m ∧ ∃ l, s.calls[j]? = some l ∧ l.member = n ∧ l.kind = k.kind ∧
      l.stage = k.stage := by
  have hm : k.member = m := by simpa [hk] using hij.owner
  obtain ⟨l, hl, hn⟩ := Option.map_eq_some_iff.1 hij.owner'
  have hanon : some l.anonymous = some k.anonymous := by
    have hat := congrArg (·[w.rank m i]?) hS.calls
    rw [← Option.map_some, ← Option.map_some, ← callsOn_rank hk hm, ← callsOn_rank hl hn, hij.rank]
    simpa only [List.getElem?_map] using hat
  have hanon := Option.some.inj hanon
  exact ⟨hm, l, hl, hn, (congrArg Call.kind hanon :), (congrArg Call.stage hanon :)⟩

/-- The same becomes of calls that are the same. -/
theorem Same.callsOn_set {i j : Nat} {k l : Call} {t : CallStage} (hS : Same m w n s)
    (hij : SameCall m w i n s j) (hk : w.calls[i]? = some k) (hl : s.calls[j]? = some l)
    (hw : w'.calls = w.calls.set i (k.goto t)) (hs : s'.calls = s.calls.set j (l.goto t)) :
    (s'.callsOn n).map Call.anonymous = (w'.callsOn m).map Call.anonymous := by
  obtain ⟨hm, l', hl', hn, hkind, -⟩ := hS.call hij hk
  rw [hl] at hl'
  cases hl'
  have hgoto : (l.goto t).anonymous = (k.goto t).anonymous := by
    simp only [Call.anonymous, Call.goto, hkind]
  have hset : w'.callsOn m = (w.callsOn m).set (w.rank m i) (k.goto t) := by
    rw [World.callsOn, hw]
    exact filter_set_of_pos hk (decide_eq_true hm) (decide_eq_true hm)
  have hset' : s'.callsOn n = (s.callsOn n).set (s.rank n j) (l.goto t) := by
    rw [World.callsOn, hs]
    exact filter_set_of_pos hl (decide_eq_true hn) (decide_eq_true hn)
  rw [hset, hset', List.map_set, List.map_set, hS.calls, hij.rank, hgoto]

theorem Same.proceed {i j : Nat} (hS : Same m w n s) (hij : SameCall m w i n s j)
    (ha : callStep env w i = some w') : ∃ s', callStep env s j = some s' ∧ Same m w' n s' := by
  obtain ⟨k, x, h, next, hk, hx, hb, hn, rfl⟩ := callStep_eq_some ha
  obtain ⟨hm, l, hl, hln, hkind, hstage⟩ := hS.call hij hk
  rw [hm] at hx hn
  obtain ⟨y, k', hy, heq, hk', hkh⟩ := hS.handle hx hb
  have hstep := Call.step_congr env.settings.stopTimeout w.now (w.isHeld m) heq hkh hkind hstage
  rw [hn, Option.map_some, Option.map_eq_some_iff] at hstep
  obtain ⟨next', hn', heq'⟩ := hstep
  obtain ⟨hst, hmem⟩ := Prod.mk.inj heq'
  have hgo := member_of_callStep hn
  have hgo' := member_of_callStep hn'
  rw [hst] at hgo'
  rw [← hS.now, ← hS.isHeld] at hn'
  obtain ⟨hlt, -⟩ := List.getElem?_eq_some_iff.1 hx
  obtain ⟨hlt', -⟩ := List.getElem?_eq_some_iff.1 hy
  refine ⟨(World.setMember { s with calls := s.calls.set j next'.call } n next'.member).note
    next'.events, ?_, hS.now, ?_, ?_⟩
  · simp only [callStep, hl, hln, hy, handle?_eq_some.2 hk', hn', Option.bind_eq_bind,
      Option.bind_some, Option.pure_def]
  · simp [World.setMember, World.note, hm, hlt, hlt', hmem]
  · exact hS.callsOn_set hij hk hl (congrArg (w.calls.set i) hgo) (congrArg (s.calls.set j) hgo')

theorem Same.abandon {i j : Nat} (hS : Same m w n s) (hij : SameCall m w i n s j)
    (ha : step env w (.abandon i) = some w') :
    ∃ s', step env s (.abandon j) = some s' ∧ Same m w' n s' := by
  obtain ⟨k, hk, hr, rfl⟩ := abandon_eq_some ha
  obtain ⟨hm, l, hl, hln, hkind, hstage⟩ := hS.call hij hk
  have hr' : l.isReturned = false := by rw [Call.isReturned, hstage]; exact hr
  refine ⟨{ s with calls := s.calls.set j (l.goto .abandoned) }, ?_, hS.now, hS.member, ?_⟩
  · simp [step, hl, hr']
  · exact hS.callsOn_set hij hk hl rfl rfl

/-- Actions of handles that do the same, each to its own. -/
inductive Matches (m : Nat) (w : World) (n : Nat) (s : World) : Action → Action → Prop where
  | create (command : List String) (sink : Sink) : w.members.length = m → s.members.length = n →
      Matches m w n s (.create command sink) (.create command sink)
  | configure (c : Change) : Matches m w n s (.configure m c) (.configure n c)
  | createControl (label : String) : Matches m w n s (.createControl m label) (.createControl n label)
  | start (b : Bool) : Matches m w n s (.start m b) (.start n b)
  | copy : Matches m w n s (.copy m) (.copy n)
  | drop : Matches m w n s (.drop m) (.drop n)
  | runner (st : RunnerStep) : Matches m w n s (.runner m st) (.runner n st)
  | pump (e : PumpEvent) : Matches m w n s (.pump m e) (.pump n e)
  | call (kind : CallKind) : Matches m w n s (.call kind m) (.call kind n)
  | proceed {i j : Nat} : SameCall m w i n s j → Matches m w n s (.proceed i) (.proceed j)
  | abandon {i j : Nat} : SameCall m w i n s j → Matches m w n s (.abandon i) (.abandon j)

/-- **Actions that match keep members the same**, and if one can be taken then so can the
    other.  Only of the exit hook it has to be known whether it is claimed. -/
theorem Same.step {b : Action} (hS : Same m w n s) (hw : w.IsCalm) (hs : s.IsCalm)
    (hab : Matches m w n s a b)
    (hhook : ∀ st, a = .runner m st → LooksAtHook env w m →
      s.coordinator.hookClaimed = w.coordinator.hookClaimed)
    (ha : World.step env w a = some w') :
    ∃ s', World.step env s b = some s' ∧ Same m w' n s' := by
  cases hab with
  | create command sink hm hn =>
    simp only [World.step] at ha ⊢
    cases hc : Handle.create command sink with
    | error e =>
      rw [hc] at ha
      cases ha
      exact ⟨s, rfl, hS⟩
    | ok h =>
      rw [hc] at ha
      cases ha
      refine ⟨_, rfl, hS.now, ?_, hS.calls⟩
      simp [← hm, ← hn]
  | configure c => exact hS.onHandle (fun h k hk => Handle.configure_congr hk c) ha
  | createControl label => exact hS.onHandle (fun h k hk => Handle.createControl_congr hk label) ha
  | start b => exact hS.start ha
  | copy =>
    simp only [World.step] at ha ⊢
    refine hS.onHandle (fun h k hk => ?_) ha
    exact congrArg (fun k : Handle => Except.ok { k with copies := k.copies + 1 }) hk
  | drop =>
    simp only [World.step] at ha ⊢
    refine hS.onHandle (fun h k hk => ?_) ha
    exact congrArg (fun k : Handle => Except.ok { k with copies := k.copies - 1 }) hk
  | runner st => exact hS.runner hw hs (hhook st rfl) ha
  | pump e => exact hS.pump hw hs ha
  | call kind =>
    simp only [World.step, hS.isHeld] at ha ⊢
    split at ha
    · next hheld =>
      cases ha
      refine ⟨_, if_pos hheld, hS.now, hS.member, ?_⟩
      have hcalls := hS.calls
      simp only [World.callsOn] at hcalls
      simp [World.callsOn, List.filter_append, hcalls, Call.anonymous]
    · cases ha
  | proceed hij => exact hS.proceed hij ha
  | abandon hij => exact hS.abandon hij ha

/-! ## Runs without a sweep -/

variable {as : List Action}

theorem calm_of_run (hw : run env {} as = some w) (hn : Action.sweep ∉ as) :
    w.sweeps = [] ∧ w.IsCalm := by
  have hs : w.sweeps = [] := by
    refine run_induction (P := fun as w => Action.sweep ∉ as → w.sweeps = []) (fun _ => rfl) ?_ hw hn
    intro as a w w' _ ih ha hn
    have hs := ih fun hmem => hn (List.mem_append_left _ hmem)
    refine List.eq_nil_iff_forall_not_mem.2 fun t ht => ?_
    obtain ⟨k, hk⟩ := List.getElem?_of_mem ht
    rcases (effect_of_step ha).sweep_back hk with ⟨t₀, ht₀, -⟩ | ⟨-, rfl, -⟩
    · simp [hs] at ht₀
    · exact hn (List.mem_append_right _ (List.mem_singleton_self _))
  refine ⟨hs, ?_⟩
  cases hd : w.coordinator.shuttingDown with
  | false => exact hd
  | true => exact absurd hs ((ledger_of_run hw).raised.1 hd)

end World

/-- A registration that has seen to the exit hook. -/
def Registration.IsPastHook (g : Registration) : Prop :=
  g.anonymous = .hooking 0 ∨ g.anonymous = .settled 0

theorem Registration.Move.isPastHook {hasHooks b : Bool} {e : Entry} {c c' : Coordinator}
    {g g' : Registration} (hm : Move hasHooks e c g g' c' b)
    (h : g.IsPastHook ∨ c.hookClaimed = false ∧ c'.hookClaimed = true) : g'.IsPastHook := by
  cases hm with
  | claim id _ _ => exact Or.inl rfl
  | install id => exact Or.inr rfl
  | number => rcases h with (h | h) | ⟨h, h'⟩ <;> simp_all [anonymous, Coordinator.takeId]
  | insert id _ => rcases h with (h | h) | ⟨h, h'⟩ <;> simp_all [anonymous, Coordinator.insert]
  | refuse id _ => rcases h with (h | h) | ⟨h, h'⟩ <;> simp_all [anonymous]
  | cancel id => exact Or.inr rfl
  | unhooked id _ => exact Or.inr rfl

/-- Whoever is past the exit hook stays so. -/
theorem Effect.isPastHook {env : Environment} {w w' : World} {a : Action} {m : Nat} {x : Member}
    (he : Effect env w a w') (hx : w.members[m]? = some x) (hp : x.registration.IsPastHook) :
    ∃ x', w'.members[m]? = some x' ∧ x'.registration.IsPastHook := by
  obtain ⟨x', hx', hs⟩ := he.shift hx
  refine ⟨x', hx', ?_⟩
  cases hs with
  | same => exact hp
  | turn ht =>
    rcases ht.enrolment hx with ⟨hreg, -, -⟩ | ⟨b, hm, -⟩
    · rw [hreg]; exact hp
    · exact hm.isPastHook (Or.inl hp)
  | call _ _ _ hm => rw [hm.registration]; exact hp
  | cancel _ _ _ _ => exact hp

namespace World

variable {env : Environment} {w w' s s' : World} {m n : Nat} {a : Action} {as : List Action}

/-- **The exit hook is claimed by one who is past it.** -/
theorem claimant_of_run (hw : run env {} as = some w) (hc : w.coordinator.hookClaimed = true) :
    ∃ (m : Nat) (x : Member), w.members[m]? = some x ∧ x.registration.IsPastHook := by
  refine run_induction (P := fun _ w => w.coordinator.hookClaimed = true →
    ∃ (m : Nat) (x : Member), w.members[m]? = some x ∧ x.registration.IsPastHook)
    (fun hc => by cases hc) ?_ hw hc
  intro as a w w' _ ih ha hc'
  have he := effect_of_step ha
  cases hc : w.coordinator.hookClaimed with
  | true =>
    obtain ⟨m, x, hx, hp⟩ := ih hc
    obtain ⟨x', hx', hp'⟩ := he.isPastHook hx hp
    exact ⟨m, x', hx', hp'⟩
  | false =>
    have hchange : ∀ c : Coordinator, c.hookClaimed = w.coordinator.hookClaimed →
        w'.coordinator ≠ c := fun c hcw hwc => by rw [hwc, hcw, hc] at hc'; cases hc'
    cases he with
    | @turn _ m x x' c' pid log hx ht =>
      obtain ⟨hlt, -⟩ := List.getElem?_eq_some_iff.1 hx
      rcases ht.enrolment hx with ⟨-, -, hco | ⟨id, -, hco⟩⟩ | ⟨b, hm, -⟩
      · exact absurd hco (hchange _ rfl)
      · exact absurd hco (hchange _ rfl)
      · exact ⟨m, x', by simp [hlt], hm.isPastHook (Or.inr ⟨hc, hc'⟩)⟩
    | _ => exact absurd rfl (hchange _ rfl)

/-! ## Alone -/

/-- The runner of a member would look after the exit hook next, which somebody has
    claimed. -/
def findsHook (env : Environment) (w : World) (m : Nat) : Bool :=
  env.hasHooks && w.coordinator.hookClaimed && w.members[m]?.any fun x =>
    decide (x.registration.anonymous = .inserted 0) && x.handle?.any fun h =>
      h.runner.any fun r => decide (r.stage = .registering)

theorem findsHook_iff : w.findsHook env m = true ↔
    LooksAtHook env w m ∧ w.coordinator.hookClaimed = true := by
  simp only [findsHook, LooksAtHook, Bool.and_eq_true, Option.any_eq_true, decide_eq_true_eq,
    handle?_eq_some]
  constructor
  · rintro ⟨⟨hh, hc⟩, x, hx, hreg, h, hb, r, hr, hs⟩
    exact ⟨⟨x, h, r, hx, hb, hr, hs, hreg, hh⟩, hc⟩
  · rintro ⟨⟨x, h, r, hx, hb, hr, hs, hreg, hh⟩, hc⟩
    exact ⟨⟨hh, hc⟩, x, hx, hreg, h, hb, r, hr, hs⟩

/-- What an action is for the handle `m`, if that is the only one: itself, at the first
    place; and time passes for all.  A runner that finds the exit hook claimed goes
    on at once, where alone it claims the hook in one step and installs it in another. -/
def ownSteps (env : Environment) (w : World) (m : Nat) (a : Action) : List Action :=
  if w.owner a = some m then
    match a with
    | .create command sink => [.create command sink]
    | .configure _ c => [.configure 0 c]
    | .createControl _ label => [.createControl 0 label]
    | .start _ b => [.start 0 b]
    | .copy _ => [.copy 0]
    | .drop _ => [.drop 0]
    | .runner _ st => if w.findsHook env m then [.runner 0 st, .runner 0 st] else [.runner 0 st]
    | .pump _ e => [.pump 0 e]
    | .call kind _ => [.call kind 0]
    | .proceed i => [.proceed (w.rank m i)]
    | .abandon i => [.abandon (w.rank m i)]
    | _ => []
  else
    match a with
    | .pass ms => [.pass ms]
    | _ => []

/-- The actions of a run that are those of the handle `m`, as if it were alone. -/
def alone (env : Environment) (m : Nat) : World → List Action → List Action
  | _, [] => []
  | w, a :: as =>
    match step env w a with
    | none => []
    | some w' => w.ownSteps env m a ++ alone env m w' as

theorem alone_concat {w₀ : World} (hw : run env w₀ as = some w) (ha : step env w a = some w') :
    alone env m w₀ (as ++ [a]) = alone env m w₀ as ++ w.ownSteps env m a := by
  induction as generalizing w₀ with
  | nil => cases hw; simp [alone, ha]
  | cons b as ih =>
    obtain ⟨v, hv, hw⟩ := run_cons.1 hw
    simp only [List.cons_append, alone, hv]
    rw [ih hw, List.append_assoc]

theorem sweep_not_mem_ownSteps : Action.sweep ∉ w.ownSteps env m a := by
  unfold ownSteps
  split
  · split <;> first | simp | (split <;> simp)
  · split <;> simp

theorem sweep_not_mem_alone {w₀ : World} : Action.sweep ∉ alone env m w₀ as := by
  induction as generalizing w₀ with
  | nil => simp [alone]
  | cons a as ih =>
    unfold alone
    split
    · simp
    · rw [List.mem_append, not_or]
      exact ⟨sweep_not_mem_ownSteps, ih⟩

/-- One who is to look after the exit hook and finds it claimed has registered. -/
theorem step_of_claimed {v : Runner.View} {x : Member} {h : Handle} {r : Runner} {id : Nat}
    (hs : r.stage = .registering) (hreg : x.registration = .inserted id)
    (hc : v.coordinator.hookClaimed = true) :
    r.step v x h .proceed = some ⟨Member.withRunner { x with registration := .settled id } h
      (r.goto .launching), v.coordinator, []⟩ := by
  simp [Runner.step, Runner.proceed, hs, Member.register, hreg, Registration.step, hc,
    Registration.isSettled]

/-- One who finds it free claims it. -/
theorem step_of_unclaimed {v : Runner.View} {x : Member} {h : Handle} {r : Runner} {id : Nat}
    (hs : r.stage = .registering) (hreg : x.registration = .inserted id)
    (hh : v.env.hasHooks = true) (hc : v.coordinator.hookClaimed = false) :
    r.step v x h .proceed =
      some ⟨{ x with registration := .hooking id }, v.coordinator.claimHook, []⟩ := by
  simp [Runner.step, Runner.proceed, hs, Member.register, hreg, Registration.step, hc, hh,
    Registration.isSettled]

/-- One who has claimed it installs it. -/
theorem step_of_hooking {v : Runner.View} {x : Member} {h : Handle} {r : Runner} {id : Nat}
    (hs : r.stage = .registering) (hreg : x.registration = .hooking id) :
    r.step v x h .proceed = some ⟨Member.withRunner { x with registration := .settled id } h
      (r.goto .launching), v.coordinator.installHook, []⟩ := by
  simp [Runner.step, Runner.proceed, hs, Member.register, hreg, Registration.step,
    Registration.isSettled]

theorem exists_of_inserted {g : Registration} (h : g.anonymous = .inserted 0) :
    ∃ id, g = .inserted id := by
  cases g with
  | inserted id => exact ⟨id, rfl⟩
  | _ => cases h

/-- A runner that registers only goes on with its program. -/
theorem step_of_registering {v : Runner.View} {x : Member} {h : Handle} {r : Runner}
    {st : RunnerStep} {next : Member.Result} (hs : r.stage = .registering)
    (hn : r.step v x h st = some next) : st = .proceed := by
  cases st with
  | proceed => rfl
  | exit => simp [Runner.step, hs] at hn
  | cancel => simp [Runner.step, hs] at hn

/-- **Who finds the exit hook claimed is where he would be alone**, after one step
    more. -/
theorem Same.findsHook {st : RunnerStep} (hS : Same m w n s) (hl : LooksAtHook env w m)
    (hc : w.coordinator.hookClaimed = true) (hc' : s.coordinator.hookClaimed = false)
    (ha : World.step env w (.runner m st) = some w') :
    ∃ s', run env s [.runner n st, .runner n st] = some s' ∧ Same m w' n s' := by
  obtain ⟨x, h, r, hx, hb, hr, hst, hins, hh⟩ := hl
  obtain ⟨y, k, hy, heq, hk, hkh⟩ := hS.handle hx hb
  obtain ⟨q, hq, hqr⟩ := Handle.runner_of_anonymous hkh hr
  obtain ⟨next, hn, pid, rfl⟩ := step_of_runnerStep hx hb hr ha
  obtain rfl := step_of_registering hst hn
  obtain ⟨id, hid⟩ := exists_of_inserted hins
  rw [step_of_claimed hst hid hc] at hn
  cases hn
  have hst' : q.stage = .registering := (Runner.of_anonymous hqr).2.2.1.trans hst
  obtain ⟨id', hid'⟩ : ∃ id, y.registration = .inserted id :=
    exists_of_inserted ((congrArg Member.registration heq :).trans hins)
  obtain ⟨hlt, -⟩ := List.getElem?_eq_some_iff.1 hy
  obtain ⟨pid₁, hfirst⟩ := runnerStep_of_step hy hk hq
    (step_of_unclaimed (v := s.view env n) hst' hid' hh hc')
  generalize hs₁ : World.accept { s with nextPid := pid₁ } n _ = s₁ at hfirst
  have hmem₁ : s₁.members = s.members.set n { y with registration := .hooking id' } := by
    rw [← hs₁]; rfl
  obtain ⟨pid₂, hsecond⟩ := runnerStep_of_step (m := n)
    (x := { y with registration := .hooking id' }) (by rw [hmem₁]; simp [hlt]) hk hq
    (step_of_hooking (v := s₁.view env n) hst' rfl)
  refine ⟨_, run_cons.2 ⟨s₁, hfirst, run_cons.2 ⟨_, hsecond, rfl⟩⟩, ?_⟩
  refine hS.set hx hy (Member.withRunner { x with registration := .settled id } h (r.goto .launching))
    (Member.withRunner { y with registration := .settled id' } k (q.goto .launching)) ?_ ⟨rfl, rfl, rfl⟩ ⟨by rw [← hs₁]; rfl, ?_, by rw [← hs₁]; rfl⟩
  · refine Runner.withRunner_congr ?_ hkh (Runner.goto_congr hqr _)
    exact (congrArg (fun x : Member => ({ x with registration := .settled 0 } : Member)) heq :)
  · simp [World.accept, World.setMember, World.note, hmem₁]

/-- There is at most one member, and all calls are on it. -/
structure Lonely (s : World) : Prop where
  single : s.members.length ≤ 1
  calls : ∀ k ∈ s.calls, k.member = 0

/-- An action after which there is still at most one: nobody else comes, and a call that
    begins is on him. -/
def KeepsLonely (s : World) : Action → Prop
  | .welcome _ _ => False
  | .create _ _ => s.members = []
  | .call _ n => n = 0
  | _ => True

/-- Who is alone stays so. -/
theorem Lonely.step {b : Action} (hL : s.Lonely) (hs : World.step env s b = some s')
    (hb : s.KeepsLonely b) (hsw : s.sweeps = []) : s'.Lonely := by
  refine ⟨?_, fun k hk => ?_⟩
  · cases footprint_of_step hs with
    | arrive x harr =>
      rcases harr with ⟨label, g, rfl⟩ | ⟨command, sink, rfl⟩
      · exact hb.elim
      · have hnil : s.members = [] := hb
        simp [hnil]
    | sweepStep c ms ss log hne => exact absurd hsw hne
    | set x c pid log _ => simpa using hL.single
    | proceed t x log _ => simpa using hL.single
    | _ => exact hL.single
  · obtain ⟨i, hi⟩ := List.getElem?_of_mem hk
    rcases (effect_of_step hs).call_back hi with ⟨k₀, hk₀, hsh⟩ | ⟨-, rfl, -⟩
    · have hm : k.member = k₀.member := by cases hsh <;> rfl
      rw [hm]
      exact hL.calls k₀ (List.mem_of_getElem? hk₀)
    · exact hb

/-- The world `s` holds what is the same as the handle `m` of `w`, and nothing else. -/
structure Twin (m : Nat) (w s : World) : Prop where
  same : Same m w 0 s
  lonely : s.Lonely

/-- The place of a call of one who is alone. -/
theorem Twin.sameCall {i : Nat} (hT : Twin m w s) (ho : w.calls[i]?.map (·.member) = some m) :
    SameCall m w i 0 s (w.rank m i) := by
  obtain ⟨k, hk, hm⟩ := Option.map_eq_some_iff.1 ho
  have hall : s.callsOn 0 = s.calls :=
    List.filter_eq_self.2 fun k hk => decide_eq_true (hT.lonely.calls k hk)
  have hat := congrArg (·[w.rank m i]?) hT.same.calls
  simp only [List.getElem?_map, callsOn_rank hk hm, hall] at hat
  obtain ⟨l, hl, -⟩ := Option.map_eq_some_iff.1 hat
  obtain ⟨hlt, -⟩ := List.getElem?_eq_some_iff.1 hl
  refine ⟨ho, ?_, ?_⟩
  · rw [hl, Option.map_some, hT.lonely.calls l (List.mem_of_getElem? hl)]
  · rw [World.rank, List.countP_eq_length.2 fun k hk =>
      decide_eq_true (hT.lonely.calls k (List.mem_of_mem_take hk))]
    simp only [List.length_take]
    omega

/-- The exit hook of one who is alone is free until he looks after it. -/
theorem Twin.hookClaimed (hT : Twin m w s) (hs : run env {} as = some s)
    (hl : LooksAtHook env w m) : s.coordinator.hookClaimed = false := by
  cases hc : s.coordinator.hookClaimed with
  | false => rfl
  | true =>
    obtain ⟨n, y, hy, hp⟩ := claimant_of_run hs hc
    obtain ⟨x, h, r, hx, -, -, -, hins, -⟩ := hl
    have hn : n = 0 := by
      have := (List.getElem?_eq_some_iff.1 hy).1
      have := hT.lonely.single
      omega
    subst hn
    have hm := hT.same.member
    rw [hx, hy, Option.map_some, Option.map_some, Option.some.injEq] at hm
    have hreg : y.registration.anonymous = x.registration.anonymous :=
      (congrArg Member.registration hm :)
    rcases hp with hp | hp
    · rw [hreg, hins] at hp; cases hp
    · rw [hreg, hins] at hp; cases hp

/-- What guests do, or others to them. -/
def isOfGuest : Action → Bool
  | .welcome _ _ | .register _ | .setState _ _ | .vanish _ | .react _ => true
  | _ => false

/-- It is not done to a handle. -/
theorem isOfGuest_eq_false (ha : step env w a = some w') (ho : w.owner a = some m)
    (hh : ∀ x, w.members[m]? = some x → ∃ h, x.body = .handle h)
    (hh' : ∀ x, w'.members[m]? = some x → ∃ h, x.body = .handle h) : isOfGuest a = false := by
  have hguest : ∀ {x : Member} {g : Guest}, w.members[m]? = some x → x.guest? = some g → False := by
    intro x g hx hg
    obtain ⟨h, hb⟩ := hh x hx
    rw [guest?_eq_some.1 hg] at hb
    cases hb
  cases a with
  | welcome label g =>
    cases ho
    cases ha
    obtain ⟨h, hb⟩ := hh' { label, body := .guest g } (by simp)
    cases hb
  | register n =>
    cases ho
    simp only [step, Option.bind_eq_bind, Option.bind_eq_some_iff] at ha
    obtain ⟨x, hx, g, hg, -⟩ := ha
    exact (hguest hx hg).elim
  | setState n t => cases ho; obtain ⟨x, g, hx, hg⟩ := guest_of_onGuest ha; exact (hguest hx hg).elim
  | vanish n => cases ho; obtain ⟨x, g, hx, hg⟩ := guest_of_onGuest ha; exact (hguest hx hg).elim
  | react n => cases ho; obtain ⟨x, g, hx, hg⟩ := guest_of_onGuest ha; exact (hguest hx hg).elim
  | _ => rfl

/-- An action of a handle is matched by one of the handle that is alone, and is all that the
    latter does, unless the exit hook makes a difference. -/
theorem Twin.exists_match (env : Environment) (hT : Twin m w s) (ho : w.owner a = some m)
    (hg : isOfGuest a = false) : ∃ b, Matches m w 0 s a b ∧ s.KeepsLonely b ∧
      ((∀ st, a = .runner m st → w.findsHook env m = false) → w.ownSteps env m a = [b]) := by
  have hown : ∀ b, (w.owner a = some m → w.ownSteps env m a = [b]) →
      Matches m w 0 s a b → s.KeepsLonely b → ∃ b, Matches m w 0 s a b ∧ s.KeepsLonely b ∧
        ((∀ st, a = .runner m st → w.findsHook env m = false) → w.ownSteps env m a = [b]) :=
    fun b hb hM hk => ⟨b, hM, hk, fun _ => hb ho⟩
  cases a with
  | create command sink =>
    have hlen : w.members.length = m := Option.some.inj ho
    have hnil : s.members = [] := by
      have hm := hT.same.member
      rw [List.getElem?_eq_none_iff.2 (Nat.le_of_eq hlen), Option.map_none,
        Option.map_eq_none_iff, List.getElem?_eq_none_iff] at hm
      exact List.eq_nil_of_length_eq_zero (Nat.le_zero.1 hm)
    exact hown _ (if_pos ·) (.create command sink hlen (by rw [hnil]; rfl)) hnil
  | configure n c => cases ho; exact hown _ (if_pos ·) (.configure c) trivial
  | createControl n label => cases ho; exact hown _ (if_pos ·) (.createControl label) trivial
  | start n b => cases ho; exact hown _ (if_pos ·) (.start b) trivial
  | copy n => cases ho; exact hown _ (if_pos ·) .copy trivial
  | drop n => cases ho; exact hown _ (if_pos ·) .drop trivial
  | pump n e => cases ho; exact hown _ (if_pos ·) (.pump e) trivial
  | call kind n => cases ho; exact hown _ (if_pos ·) (.call kind) rfl
  | proceed i => exact hown _ (if_pos ·) (.proceed (hT.sameCall ho)) trivial
  | abandon i => exact hown _ (if_pos ·) (.abandon (hT.sameCall ho)) trivial
  | runner n st =>
    cases ho
    refine ⟨.runner 0 st, .runner st, trivial, fun hfree => ?_⟩
    simp only [World.ownSteps, owner, if_true, hfree st rfl, Bool.false_eq_true, if_false]
  | welcome | register | setState | vanish | react => cases hg
  | _ => cases ho

section
variable {bs : List Action}

/-- What matches is done alike, where the exit hook makes no difference. -/
theorem Twin.step_of_match {b : Action} (hT : Twin m w s) (hw : w.IsCalm)
    (hrun : run env {} bs = some s) (hbs : Action.sweep ∉ bs) (ha : step env w a = some w')
    (hM : Matches m w 0 s a b) (hk : s.KeepsLonely b)
    (hfree : ∀ st, a = .runner m st → w.findsHook env m = false) :
    ∃ s', run env s [b] = some s' ∧ Twin m w' s' := by
  obtain ⟨hsw, hs⟩ := calm_of_run hrun hbs
  have hhook : ∀ st, a = .runner m st → LooksAtHook env w m →
      s.coordinator.hookClaimed = w.coordinator.hookClaimed := fun st hst hl => by
    cases hc : w.coordinator.hookClaimed with
    | false => exact hT.hookClaimed hrun hl
    | true =>
      have hfound := hfree st hst
      rw [findsHook_iff.2 ⟨hl, hc⟩] at hfound
      cases hfound
  obtain ⟨s', hs', hS'⟩ := hT.same.step hw hs hM hhook ha
  exact ⟨s', run_cons.2 ⟨s', hs', rfl⟩, hS', hT.lonely.step hs' hk hsw⟩

/-- Who finds the exit hook claimed would have claimed it, and installed it, alone. -/
theorem Twin.step_of_findsHook {st : RunnerStep} (hT : Twin m w s)
    (hrun : run env {} bs = some s) (hbs : Action.sweep ∉ bs)
    (ha : step env w (.runner m st) = some w') (hf : w.findsHook env m = true) :
    ∃ s', run env s (w.ownSteps env m (.runner m st)) = some s' ∧ Twin m w' s' := by
  obtain ⟨hl, hc⟩ := findsHook_iff.1 hf
  obtain ⟨s', hs', hS'⟩ := hT.same.findsHook hl hc (hT.hookClaimed hrun hl) ha
  refine ⟨s', by simp only [World.ownSteps, owner, if_true, hf]; exact hs', hS', ?_⟩
  obtain ⟨s₁, hs₁, hs'⟩ := run_cons.1 hs'
  obtain ⟨s₂, hs₂, hs'⟩ := run_cons.1 hs'
  cases hs'
  have hL := hT.lonely.step hs₁ trivial (calm_of_run hrun hbs).1
  exact hL.step hs₂ trivial (calm_of_run (run_concat.2 ⟨s, hrun, hs₁⟩) (by simpa using hbs)).1

/-- What others do is nothing to a handle, but that time passes. -/
theorem Twin.step_of_others (hT : Twin m w s) (hw : w.sweeps = []) (ha : step env w a = some w')
    (ho : w.owner a ≠ some m) :
    ∃ s', run env s (w.ownSteps env m a) = some s' ∧ Twin m w' s' := by
  by_cases hp : ∃ ms, a = .pass ms
  · obtain ⟨ms, rfl⟩ := hp
    cases ha
    refine ⟨{ s with now := s.now + ms }, by simp [World.ownSteps, owner, run, World.step], ?_⟩
    exact ⟨⟨congrArg (· + ms) hT.same.now, hT.same.member, hT.same.calls⟩,
      hT.lonely.single, hT.lonely.calls⟩
  · have hnp : ∀ ms, a ≠ .pass ms := fun ms h => hp ⟨ms, h⟩
    have hf := frame_of_step ha hw ho
    refine ⟨s, ?_, (Same.of_frame hf (now_of_step ha hnp)).symm.trans hT.same, hT.lonely⟩
    have hnil : w.ownSteps env m a = [] := by
      unfold World.ownSteps
      rw [if_neg ho]
      split
      · exact absurd rfl (hnp _)
      · rfl
    rw [hnil]
    rfl

/-- **Each action is for a handle what it is if the handle is alone.** -/
theorem Twin.ownSteps (hT : Twin m w s) (hw : w.sweeps = [] ∧ w.IsCalm)
    (hrun : run env {} bs = some s) (hbs : Action.sweep ∉ bs) (ha : step env w a = some w')
    (hh : ∀ x, w.members[m]? = some x → ∃ h, x.body = .handle h)
    (hh' : ∀ x, w'.members[m]? = some x → ∃ h, x.body = .handle h) :
    ∃ s', run env s (w.ownSteps env m a) = some s' ∧ Twin m w' s' := by
  by_cases ho : w.owner a = some m
  · by_cases hfound : ∃ st, a = .runner m st ∧ w.findsHook env m = true
    · obtain ⟨st, rfl, hf⟩ := hfound
      exact hT.step_of_findsHook hrun hbs ha hf
    · have hfree : ∀ st, a = .runner m st → w.findsHook env m = false := fun st hst => by
        by_contra hf
        exact hfound ⟨st, hst, by simpa using hf⟩
      obtain ⟨b, hM, hk, hown⟩ := hT.exists_match env ho (isOfGuest_eq_false ha ho hh hh')
      rw [hown hfree]
      exact hT.step_of_match hw.2 hrun hbs ha hM hk hfree
  · exact hT.step_of_others hw.1 ha ho

end

/-- **What has become of a handle is what becomes of it alone.** -/
theorem exists_twin (hw : run env {} as = some w) (hn : Action.sweep ∉ as)
    (hh : ∀ x, w.members[m]? = some x → ∃ h, x.body = .handle h) :
    ∃ s, run env {} (alone env m {} as) = some s ∧ Twin m w s := by
  refine run_induction (P := fun as w => Action.sweep ∉ as →
    (∀ x, w.members[m]? = some x → ∃ h, x.body = .handle h) →
      ∃ s, run env {} (alone env m {} as) = some s ∧ Twin m w s) ?_ ?_ hw hn hh
  · exact fun _ _ => ⟨{}, rfl, ⟨rfl, by simp, rfl⟩, by simp, by simp⟩
  · intro as a w w' hw ih ha hn hh'
    have hn₀ : Action.sweep ∉ as := fun h => hn (List.mem_append_left _ h)
    have hh₀ : ∀ x, w.members[m]? = some x → ∃ h, x.body = .handle h := fun x hx => by
      obtain ⟨x', hx', hs⟩ := (effect_of_step ha).shift hx
      obtain ⟨h', hb'⟩ := hh' x' hx'
      exact hs.handle_back hb'
    obtain ⟨s, hs, hT⟩ := ih hn₀ hh₀
    obtain ⟨s', hs', hT'⟩ := hT.ownSteps (calm_of_run hw hn₀) hs sweep_not_mem_alone ha hh₀ hh'
    refine ⟨s', ?_, hT'⟩
    rw [alone_concat hw ha]
    exact run_append_eq_some.2 ⟨s, hs, hs'⟩

end World

/-! ## What can be seen of a handle -/

/-- The state of a handle, but for numbers and for where exactly its runner stands. -/
structure LocalState where
  options : Options
  state : RunState
  outcome : Option Outcome
  hasPid : Bool
  cancel : Bool
  control : Option StopControl
  phase : Option Phase
  writes : List Write
  deriving DecidableEq

/-- The state of a member that is a handle. -/
def Member.localState (x : Member) : Option LocalState :=
  x.handle?.map fun h => {
    options := h.options
    state := h.status.state
    outcome := h.status.outcome
    hasPid := h.status.pid.isSome
    cancel := x.cancel
    control := h.control
    phase := h.runner.map (·.phase)
    writes := h.sink.writes }

theorem Member.localState_congr {x y : Member} (h : y.anonymous = x.anonymous) :
    y.localState = x.localState := by
  have hcancel : y.cancel = x.cancel := (congrArg Member.cancel h :)
  cases hb : x.body with
  | guest g =>
    have hbody := congrArg Member.body h
    simp only [Member.anonymous, hb] at hbody
    cases hk : y.body with
    | guest g' => simp [Member.localState, Member.handle?, hb, hk]
    | handle k => rw [hk] at hbody; cases hbody
  | handle hd =>
    obtain ⟨k, hk, hkh⟩ := Member.handle_of_anonymous h hb
    obtain ⟨-, hsink, hopt, hctl, -, hst, hout, hpid⟩ := Handle.of_anonymous hkh
    have hphase : k.runner.map (·.phase) = hd.runner.map (·.phase) := by
      have hr := congrArg (fun h : Handle => h.runner.map (·.phase)) hkh
      simpa [Handle.anonymous, Option.map_map, Function.comp_def, Runner.anonymous] using hr
    simp [Member.localState, Member.handle?, hb, hk, hsink, hopt, hctl, hst, hout, hpid, hphase,
      hcancel]

namespace World

variable {env : Environment} {w w' s s' : World} {m n : Nat} {a b : Action} {as : List Action}

/-- The state of the handle at a place. -/
def localAt (w : World) (m : Nat) : Option LocalState := w.members[m]?.bind (·.localState)

theorem Same.localAt (hS : Same m w n s) : s.localAt n = w.localAt m := by
  have hm := hS.member
  unfold World.localAt
  cases hx : w.members[m]? with
  | none =>
    rw [hx, Option.map_none, Option.map_eq_none_iff] at hm
    rw [hm]
  | some x =>
    rw [hx, Option.map_some, Option.map_eq_some_iff] at hm
    obtain ⟨y, hy, heq⟩ := hm
    rw [hy]
    exact Member.localState_congr heq

theorem Frame.localAt (hf : Frame m w w') : w'.localAt m = w.localAt m := by
  rw [World.localAt, World.localAt, hf.member]

/-! ## Steps of different handles -/

theorem localAt_accept {x : Member} {next : Member.Result} {pid : Nat} (hx : w.members[m]? = some x)
    (hn : next.member.localState = x.localState) :
    (World.accept { w with nextPid := pid } m next).localAt m = w.localAt m := by
  obtain ⟨hlt, -⟩ := List.getElem?_eq_some_iff.1 hx
  have hx' : (World.accept { w with nextPid := pid } m next).members[m]? = some next.member := by
    simp [World.accept, World.setMember, World.note, hlt]
  rw [localAt, localAt, hx, hx']
  exact hn

/-- Whoever is to look after the exit hook can go on, and nothing is seen of it. -/
theorem localAt_of_looksAtHook (hl : LooksAtHook env w m) :
    ∃ w', step env w (.runner m .proceed) = some w' ∧ w'.localAt m = w.localAt m := by
  obtain ⟨x, h, r, hx, hb, hr, hst, hins, hh⟩ := hl
  obtain ⟨id, hid⟩ := exists_of_inserted hins
  cases hc : w.coordinator.hookClaimed with
  | true =>
    obtain ⟨pid, hstep⟩ := runnerStep_of_step hx hb hr
      (step_of_claimed (v := w.view env m) hst hid hc)
    refine ⟨_, hstep, localAt_accept hx ?_⟩
    simp only [Member.localState, Member.handle?, Member.withRunner, Member.setHandle, hb, hr,
      Option.map_some, Runner.goto]
  | false =>
    obtain ⟨pid, hstep⟩ := runnerStep_of_step hx hb hr
      (step_of_unclaimed (v := w.view env m) hst hid hh hc)
    exact ⟨_, hstep, localAt_accept hx rfl⟩

/-- **The same becomes of what is the same**, as far as it can be seen. -/
theorem Same.localAt_step (hS : Same m w n s) (hw : w.IsCalm) (hs : s.IsCalm)
    (hab : Matches m w n s a b) (ha : World.step env w a = some w') :
    ∃ s', World.step env s b = some s' ∧ s'.localAt n = w'.localAt m := by
  by_cases hhook : ∀ st, a = .runner m st → LooksAtHook env w m →
      s.coordinator.hookClaimed = w.coordinator.hookClaimed
  · obtain ⟨s', hs', hS'⟩ := hS.step hw hs hab hhook ha
    exact ⟨s', hs', hS'.localAt⟩
  · simp only [not_forall] at hhook
    obtain ⟨st, rfl, hl, -⟩ := hhook
    cases hab
    obtain ⟨x, h, r, hx, hb, hr, hst, hins, hh⟩ := id hl
    obtain ⟨next, hn, -⟩ := step_of_runnerStep hx hb hr ha
    obtain rfl := step_of_registering hst hn
    obtain ⟨y, k, hy, heq, hk, hkh⟩ := hS.handle hx hb
    obtain ⟨q, hq, hqr⟩ := Handle.runner_of_anonymous hkh hr
    have hl' : LooksAtHook env s n := ⟨y, k, q, hy, hk, hq, (Runner.of_anonymous hqr).2.2.1.trans hst,
      (congrArg Member.registration heq :).trans hins, hh⟩
    obtain ⟨w₁, hw₁, hloc⟩ := localAt_of_looksAtHook hl
    rw [ha] at hw₁
    cases hw₁
    obtain ⟨s', hs', hloc'⟩ := localAt_of_looksAtHook hl'
    exact ⟨s', hs', by rw [hloc, hloc', hS.localAt]⟩

theorem Matches.symm (hab : Matches m w n s a b) : Matches n s m w b a := by
  cases hab with
  | create command sink hm hn => exact .create command sink hn hm
  | configure c => exact .configure c
  | createControl label => exact .createControl label
  | start b => exact .start b
  | copy => exact .copy
  | drop => exact .drop
  | runner st => exact .runner st
  | pump e => exact .pump e
  | call kind => exact .call kind
  | proceed h => exact .proceed ⟨h.owner', h.owner, h.rank.symm⟩
  | abandon h => exact .abandon ⟨h.owner', h.owner, h.rank.symm⟩

theorem Matches.owner (hab : Matches m w n s a b) : s.owner b = some n := by
  cases hab with
  | create command sink _ hn => rw [World.owner, hn]
  | proceed h => exact h.owner'
  | abandon h => exact h.owner'
  | _ => rfl

/-- Calls keep their places, and the members that they name. -/
theorem calls_prefix_of_step (ha : step env w a = some w') :
    w.calls.map (·.member) <+: w'.calls.map (·.member) := by
  have hset : ∀ (i : Nat) (k : Call) (t : CallStage), w.calls[i]? = some k →
      (w.calls.set i (k.goto t)).map (·.member) = w.calls.map (·.member) := fun i k t hk => by
    obtain ⟨hlt, rfl⟩ := List.getElem?_eq_some_iff.1 hk
    apply List.ext_getElem?
    intro j
    simp only [List.getElem?_map, List.getElem?_set]
    by_cases hij : i = j
    · subst hij
      simp [hlt, Call.goto]
    · simp [hij]
  cases footprint_of_step ha with
  | call kind n => simp
  | proceed t x log hk => simp only [hset _ _ t hk, List.prefix_rfl]
  | abandon hk => simp only [hset _ _ _ hk, List.prefix_rfl]
  | _ => exact List.prefix_rfl

theorem rank_eq (w : World) (m i : Nat) :
    w.rank m i = ((w.calls.map (·.member)).take i).countP (· = m) := by
  rw [rank, ← List.map_take, List.countP_map]
  rfl

theorem sameCall_of_step {i : Nat} (ha : step env w a = some w')
    (ho : w.calls[i]?.map (·.member) = some m) : SameCall m w i m w' i := by
  obtain ⟨rest, hrest⟩ := calls_prefix_of_step ha
  have hat : (w.calls.map (·.member))[i]? = some m := by rw [List.getElem?_map]; exact ho
  obtain ⟨hlt, -⟩ := List.getElem?_eq_some_iff.1 hat
  refine ⟨ho, ?_, ?_⟩
  · rw [← List.getElem?_map, ← hrest, List.getElem?_append_left hlt]
    exact hat
  · rw [rank_eq, rank_eq, ← hrest, List.take_append_of_le_length (Nat.le_of_lt hlt)]

/-- An action of one handle is what it was after an action of another. -/
theorem matches_of_step (ha : step env w a = some w') (hs : w.sweeps = [])
    (hab : Matches m w m w b b) (hne : w.owner a ≠ some m) : Matches m w m w' b b := by
  cases hab with
  | create command sink hm _ =>
    have hge : w.members.length ≤ w'.members.length := by
      by_contra hlt
      rw [Nat.not_le] at hlt
      obtain ⟨x', hx', -⟩ := (effect_of_step ha).shift (List.getElem?_eq_getElem hlt)
      exact absurd (List.getElem?_eq_some_iff.1 hx').1 (Nat.lt_irrefl _)
    have hle := (frame_of_step ha hs hne).member
    rw [List.getElem?_eq_none_iff.2 (Nat.le_of_eq hm), List.getElem?_eq_none_iff] at hle
    exact .create command sink hm (by omega)
  | configure c => exact .configure c
  | createControl label => exact .createControl label
  | start b => exact .start b
  | copy => exact .copy
  | drop => exact .drop
  | runner st => exact .runner st
  | pump e => exact .pump e
  | call kind => exact .call kind
  | proceed h => exact .proceed (sameCall_of_step ha h.owner)
  | abandon h => exact .abandon (sameCall_of_step ha h.owner)

/-- It is a step of the handle `m`, or the one that makes it. -/
def IsStepOf (w : World) (m : Nat) (a : Action) : Prop := Matches m w m w a a

theorem IsStepOf.owner (h : w.IsStepOf m a) : w.owner a = some m := Matches.owner h

theorem IsStepOf.ne_pass (h : w.IsStepOf m a) (ms : Nat) : a ≠ .pass ms := by
  rintro rfl
  cases h.owner

theorem IsStepOf.ne_sweep (h : w.IsStepOf m a) : a ≠ .sweep := by
  rintro rfl
  cases h.owner

/-- After a step of another handle, a step of the handle is the same step, and of the
    same. -/
theorem IsStepOf.after (ha : w.IsStepOf m a) (hb : w.IsStepOf n b) (hne : m ≠ n)
    (hs : w.sweeps = []) (hw : step env w a = some w') : Same n w n w' ∧ Matches n w n w' b b := by
  have ho : w.owner a ≠ some n := by
    rw [ha.owner]
    exact fun h => hne (Option.some.inj h)
  exact ⟨.of_frame (frame_of_step hw hs ho) (now_of_step hw ha.ne_pass), matches_of_step hw hs hb ho⟩

/-- **Steps of different handles commute**, as far as can be seen of any handle. -/
theorem exists_commuted {w₁ w₂ : World} (hw : run env {} as = some w) (hn : Action.sweep ∉ as)
    (hne : m ≠ n) (ha : w.IsStepOf m a) (hb : w.IsStepOf n b) (hw₁ : step env w a = some w₁)
    (hw₂ : step env w₁ b = some w₂) :
    ∃ v₁ v₂, step env w b = some v₁ ∧ step env v₁ a = some v₂ ∧
      ∀ i, v₂.localAt i = w₂.localAt i := by
  have hcalm : ∀ {c : Action} {v : World}, c ≠ .sweep → step env w c = some v →
      v.sweeps = [] ∧ v.IsCalm := fun hc hv =>
    calm_of_run (run_concat.2 ⟨w, hw, hv⟩) (by simpa using ⟨hn, hc.symm⟩)
  obtain ⟨hs, hcw⟩ := calm_of_run hw hn
  obtain ⟨hs₁, hcw₁⟩ := hcalm ha.ne_sweep hw₁
  -- `b` could be taken before `a`, since nothing of `n` has changed in between.
  obtain ⟨hsame, hmatch⟩ := ha.after hb hne hs hw₁
  obtain ⟨v₁, hv₁, hloc₁⟩ := hsame.symm.localAt_step hcw₁ hcw hmatch.symm hw₂
  obtain ⟨hsv, hcv⟩ := hcalm hb.ne_sweep hv₁
  -- And `a` can be taken after it, for the same reason.
  obtain ⟨hsame', hmatch'⟩ := hb.after ha hne.symm hs hv₁
  obtain ⟨v₂, hv₂, hloc₂⟩ := hsame'.localAt_step hcw hcv hmatch' hw₁
  refine ⟨v₁, v₂, hv₁, hv₂, fun i => ?_⟩
  have hother : ∀ {l : Nat} {c : Action} {u u' : World}, u.owner c = some l → i ≠ l →
      u.sweeps = [] → step env u c = some u' → u'.localAt i = u.localAt i :=
    fun hc hil hu hstep => Frame.localAt (frame_of_step hstep hu fun h =>
      hil (Option.some.inj (h.symm.trans hc)))
  by_cases him : i = m
  · subst him
    rw [hloc₂, hother hmatch.owner hne hs₁ hw₂]
  · rw [hother hmatch'.owner him hsv hv₂]
    by_cases hin : i = n
    · subst hin
      exact hloc₁
    · rw [hother hb.owner hin hs hv₁, hother hmatch.owner hin hs₁ hw₂, hother ha.owner him hs hw₁]

/-- **Concurrent handles never interfere.**  After a run without a sweep, every handle is in
    the state, but for numbers, to which its own steps lead if they are all that happens;
    and two steps of different handles can be taken in either order, and leave every handle
    in the same state. -/
theorem handles_never_interfere (hw : run env {} as = some w) (hn : Action.sweep ∉ as) :
    (∀ m x h, w.members[m]? = some x → x.body = .handle h →
      ∃ s y, run env {} (alone env m {} as) = some s ∧ s.members = [y] ∧
        y.anonymous = x.anonymous ∧ s.localAt 0 = w.localAt m ∧
        s.calls.map Call.anonymous = (w.callsOn m).map Call.anonymous) ∧
    ∀ m n a b w₁ w₂, m ≠ n → w.IsStepOf m a → w.IsStepOf n b → step env w a = some w₁ →
      step env w₁ b = some w₂ → ∃ v₁ v₂, step env w b = some v₁ ∧ step env v₁ a = some v₂ ∧
        ∀ i, v₂.localAt i = w₂.localAt i := by
  refine ⟨fun m x h hx hb => ?_, fun m n a b w₁ w₂ hne ha hb hw₁ hw₂ =>
    exists_commuted hw hn hne ha hb hw₁ hw₂⟩
  obtain ⟨s, hs, hT⟩ := exists_twin hw hn fun x' hx' => by
    rw [hx] at hx'
    cases hx'
    exact ⟨h, hb⟩
  have hm := hT.same.member
  rw [hx, Option.map_some, Option.map_eq_some_iff] at hm
  obtain ⟨y, hy, heq⟩ := hm
  have hall : s.callsOn 0 = s.calls :=
    List.filter_eq_self.2 fun k hk => decide_eq_true (hT.lonely.calls k hk)
  refine ⟨s, y, hs, ?_, heq, hT.same.localAt, by rw [← hall]; exact hT.same.calls⟩
  obtain ⟨hlt, hget⟩ := List.getElem?_eq_some_iff.1 hy
  have hlen : s.members.length = 1 := Nat.le_antisymm hT.lonely.single hlt
  obtain ⟨z, hz⟩ := List.length_eq_one_iff.1 hlen
  rw [hz] at hy ⊢
  exact congrArg ([·]) (Option.some.inj hy)

end World

/-- A host with exit hooks, on which every child says nothing. -/
def Environment.hooked : Environment := { Environment.silent with hasHooks := true }

namespace World

/-- Two handles register in turns.  The second is the first to look after the exit hook, and
    is the first to be stopped. -/
def crossedStarts : List Action :=
  [.create ["a"] .storing, .create ["b"] .storing, .createControl 1 "stop", .start 0 true,
    .start 1 true, .runner 0 .proceed, .runner 1 .proceed, .runner 0 .proceed, .runner 1 .proceed,
    .runner 1 .proceed, .runner 0 .proceed, .runner 1 .proceed, .runner 0 .proceed, .pass 3,
    .runner 1 .proceed, .runner 1 .proceed, .runner 0 .proceed, .call .wait 0, .call .activate 1,
    .proceed 1, .proceed 0, .proceed 1, .proceed 1, .proceed 1]

/-- The first handle is where it would be alone, and the two steps that come next can be
    taken in either order. -/
theorem handles_never_interfere_crossedStarts :
    ∃ w s, run .hooked {} crossedStarts = some w ∧
      run .hooked {} ([.create ["a"] .storing, .start 0 true] ++
        List.replicate 5 (.runner 0 .proceed) ++ [.pass 3, .runner 0 .proceed, .call .wait 0,
          .proceed 0]) = some s ∧
      s.localAt 0 = w.localAt 0 ∧ (w.localAt 0).any (·.hasPid) = true ∧
      ∃ w₁ w₂ v₁ v₂, step .hooked w (.runner 1 .cancel) = some w₁ ∧
        step .hooked w₁ (.pump 0 .start) = some w₂ ∧ step .hooked w (.pump 0 .start) = some v₁ ∧
        step .hooked v₁ (.runner 1 .cancel) = some v₂ ∧ ∀ i, v₂.localAt i = w₂.localAt i := by
  have hrun : run .hooked {} crossedStarts = some _ := rfl
  have hfree : Action.sweep ∉ crossedStarts := by simp [crossedStarts]
  obtain ⟨halone, hswap⟩ := handles_never_interfere hrun hfree
  obtain ⟨s, y, hs, -, -, hloc, -⟩ := halone 0 _ _ rfl rfl
  obtain ⟨v₁, v₂, hv₁, hv₂, hall⟩ := hswap 1 0 (.runner 1 .cancel) (.pump 0 .start) _ _ (by decide)
    (.runner .cancel) (.pump .start) rfl rfl
  exact ⟨_, s, hrun, hs, hloc, rfl, _, _, v₁, v₂, rfl, rfl, hv₁, hv₂, hall⟩

end World

end Supervisor
