/-
  What becomes of a stop.

  * `World.Stepped env as m i s past v`: a moment at which the call `i` on the member `m`
    went on from the stage `s`;
  * `World.Turned`: such a moment at which it turned the cancel flag.  There is one at most,
    of all calls on a member (`Turned.unique`);
  * `World.Answered`: what a stop is over for: it has turned the flag, it has found the run
    not running or the flag set, or it has sought a handle that nobody held;
  * `isOf_of_run`, `World.CallStory`: the stages that a call can be at, and what has happened
    to it by its stage (`callStory_of_run`); only who has turned the flag waits a bounded time;
  * `member_of_proceed`: no other step of a call changes the flag, and none the run state;
  * `exists_answer`: a stop that does not wait can return at once.
-/
import Supervisor.Proofs.Later

namespace Supervisor

/-! ## Stages -/

namespace CallStage

/-- Whether a call of the kind can be at the stage. -/
def isOf : CallStage → CallKind → Bool
  | entered, _ | abandoned, _ => true
  | returned result, kind => result || kind = .activate
  | waiting, kind => kind = .wait
  | seeking, kind | disabling, kind => kind = .activate
  | reading, kind | asking, kind | bounded _, kind => kind ≠ .wait

/-- Whether it is to be accounted for how a call came to the stage. -/
def isAccountable : CallStage → Bool
  | bounded _ | disabling | returned _ => true
  | _ => false

/-- How many steps a stop has before it at most, until it waits or returns. -/
def ahead : CallStage → Nat
  | entered => 5
  | seeking => 4
  | reading => 3
  | asking => 2
  | disabling => 1
  | bounded _ | waiting | returned _ | abandoned => 0

end CallStage

/-! ## What a step of a call makes of its member -/

section
variable {bound now : Nat} {held : Bool} {x x' : Member} {h : Handle} {k : Call} {s : CallStage}

/-- Who asks first turns the flag, and waits. -/
theorem Call.Move.of_asking (hm : k.Move bound now held x h s x') (hs : k.stage = .asking)
    (hc : x.cancel = false) : s = .bounded (now + bound) ∧ x' = { x with cancel := true } := by
  cases hm with
  | ask => exact ⟨rfl, rfl⟩
  | asked _ hset => rw [hc] at hset; cases hset
  | _ => simp_all

/-- **A call leaves the flag alone**, unless it is the one that turns it. -/
theorem Call.Move.cancel_eq (hm : k.Move bound now held x h s x')
    (hn : ¬ (k.stage = .asking ∧ x.cancel = false)) : x'.cancel = x.cancel := by
  cases hm with
  | ask hs hc => exact absurd ⟨hs, hc⟩ hn
  | _ => rfl

theorem Call.leave_stage (k : Call) :
    k.leave.stage = .disabling ∨ k.leave.stage = .returned true := by
  unfold Call.leave
  split
  · exact .inl rfl
  · exact .inr rfl

/-- A call keeps to the stages of its kind. -/
theorem Call.Move.isOf (hm : k.Move bound now held x h s x') (hk : k.stage.isOf k.kind = true) :
    s.isOf k.kind = true := by
  cases hm with
  | idle hs _ | asked hs _ | finished _ hs _ | timeout _ hs _ _ =>
    rw [hs] at hk
    cases hkind : k.kind <;> simp_all [CallStage.isOf, Call.leave, Call.goto]
  | _ => simp_all [CallStage.isOf]

/-- A step of a stop brings it nearer to its end.  Only one that finds the flag not set comes
    to wait. -/
theorem Call.Move.ahead (hm : k.Move bound now held x h s x') (ha : 0 < k.stage.ahead)
    (hkind : k.kind ≠ .wait) : s.ahead < k.stage.ahead ∧
      (0 < s.ahead ∨ (∃ b, s = .returned b) ∨ x.cancel = false ∧ ∃ d, s = .bounded d) := by
  cases hm with
  | idle hs _ | asked hs _ =>
    rw [hs]
    obtain hl | hl := k.leave_stage
    · rw [hl]
      exact ⟨by decide, .inl (by decide)⟩
    · rw [hl]
      exact ⟨by decide, .inr (.inl ⟨_, rfl⟩)⟩
  | finished _ hs _ | timeout _ hs _ _ | ended hs _ => rw [hs] at ha; cases ha
  | wait _ hk _ | pointless _ hk _ => exact absurd hk hkind
  | disabled hs _ _ | disable hs =>
    rw [hs]
    exact ⟨by decide, .inr (.inl ⟨_, rfl⟩)⟩
  | enabled hs _ _ | begin hs _ | found hs _ | lost hs _ | running hs _ =>
    rw [hs]
    exact ⟨by decide, .inl (by decide)⟩
  | ask hs hc =>
    rw [hs]
    exact ⟨by simp [CallStage.ahead], .inr (.inr ⟨hc, _, rfl⟩)⟩

/-- A stop on its way is never held up. -/
theorem Call.isSome_step (bound now : Nat) (held : Bool) (x : Member) (h : Handle)
    (ha : 0 < k.stage.ahead) : (k.step bound now held x h).isSome := by
  unfold Call.step
  cases hs : k.stage with
  | entered => cases k.kind <;> rfl
  | asking => dsimp only; split <;> rfl
  | seeking | reading | disabling => rfl
  | _ => rw [hs] at ha; cases ha

/-- **No call changes the run state.** -/
theorem Call.Move.state_eq (hm : k.Move bound now held x h s x') (hb : x.body = .handle h) :
    x'.state = x.state := by
  cases hm with
  | disable _ => simp [Member.state, hb, Member.setHandle, Handle.disableControl]
  | _ => rfl

end

namespace World

variable {env : Environment} {w w' : World} {as bs : List Action} {m i j : Nat} {x : Member}
  {h : Handle} {k : Call}

/-! ## Moments of a call -/

/-- In the run `as`, after the actions `past`, the call `i` on the member `m` went on from
    the stage `s`, in the world `v`. -/
structure Stepped (env : Environment) (as : List Action) (m i : Nat) (s : CallStage)
    (past : List Action) (v : World) : Prop where
  took : Took env as past (.proceed i) v
  call : ∃ k, v.calls[i]? = some k ∧ k.member = m ∧ k.stage = s

/-- At this moment the call `i` turned the cancel flag of the member `m`. -/
structure Turned (env : Environment) (as : List Action) (m i : Nat) (past : List Action)
    (v : World) : Prop where
  asked : Stepped env as m i .asking past v
  unset : ∃ x, v.members[m]? = some x ∧ x.cancel = false

theorem Stepped.mono {s : CallStage} {past : List Action} {v : World}
    (h : Stepped env as m i s past v) (hab : as <+: bs) : Stepped env bs m i s past v :=
  ⟨h.took.mono hab, h.call⟩

theorem Turned.mono {past : List Action} {v : World} (h : Turned env as m i past v)
    (hab : as <+: bs) : Turned env bs m i past v :=
  ⟨h.asked.mono hab, h.unset⟩

theorem Stepped.last {s : CallStage} (hw : run env {} as = some w) (hk : w.calls[i]? = some k)
    (hs : k.stage = s) : Stepped env (as ++ [.proceed i]) k.member i s as w :=
  ⟨Took.last _ hw, k, hk, rfl, hs⟩

/-- A call keeps its place, its kind and its member. -/
theorem call_of_run (hw : run env w bs = some w') (hk : w.calls[i]? = some k) :
    ∃ k', w'.calls[i]? = some k' ∧ k'.kind = k.kind ∧ k'.member = k.member := by
  refine run_induction (P := fun _ w' => ∃ k', w'.calls[i]? = some k' ∧ k'.kind = k.kind ∧
    k'.member = k.member) ⟨k, hk, rfl, rfl⟩ ?_ hw
  rintro bs a u u' - ⟨k₁, hk₁, hkind, hm⟩ ha
  obtain ⟨k₂, hk₂, hsh⟩ := (effect_of_step ha).call_shift hk₁
  refine ⟨k₂, hk₂, ?_⟩
  cases hsh <;> exact ⟨hkind, hm⟩

/-- A call that begins takes the next place. -/
theorem call_of_begin {kind : CallKind} (ha : step env w (.call kind m) = some w') :
    w' = { w with calls := w.calls ++ [{ member := m, kind }] } := by
  simp only [step] at ha
  split at ha
  · exact (Option.some.inj ha).symm
  · cases ha

theorem Took.exists_call {kind : CallKind} {past : List Action} {u : World}
    (h : Took env as past (.call kind m) u) (hw : run env {} as = some w) :
    ∃ k, w.calls[u.calls.length]? = some k ∧ k.kind = kind ∧ k.member = m := by
  obtain ⟨rest, hrest⟩ := h.rest hw
  obtain ⟨u', ha, hrest⟩ := run_cons.1 hrest
  have hk : u'.calls[u.calls.length]? = some { member := m, kind } := by
    rw [call_of_begin ha]
    exact List.getElem?_concat_length
  exact call_of_run hrest hk

/-- A call goes on only after it has begun. -/
theorem Stepped.after_begin {kind : CallKind} {s : CallStage} {past past' : List Action}
    {u v : World} (h : Took env as past (.call kind m) u)
    (hs : Stepped env as m u.calls.length s past' v) : past ++ [.call kind m] <+: past' := by
  obtain rfl | hp | hp := h.cases_past hs.took
  · cases (h.eq_of_past hs.took).1
  · exact hp
  · -- its place would have been taken before
    obtain ⟨k, hk, -⟩ := hs.call
    obtain ⟨v', rest, ha, hrest⟩ := hs.took.between h hp
    obtain ⟨k', hk', -⟩ := call_of_run (run_cons.2 ⟨v', ha, hrest⟩) hk
    rw [List.getElem?_eq_none (Nat.le_refl _)] at hk'
    cases hk'

/-- **Whatever a call finds not running is finished for good**, if the run was running when
    the call began. -/
theorem finished_of_idle {kind : CallKind} {s : CallStage} {past past' : List Action}
    {u v : World} {y : Member} (hw : run env {} as = some w)
    (hc : Took env as past (.call kind m) u) (hy : u.members[m]? = some y)
    (hb : y.body = .handle h) (hs : h.status.state = .running)
    (hstep : Stepped env as m u.calls.length s past' v) (hx : v.members[m]? = some x)
    (hn : x.state ≠ .running) : ∃ x', w.members[m]? = some x' ∧ x'.state = .finished := by
  obtain ⟨u', bs, hu', hbs⟩ := hc.between hstep.took (hstep.after_begin hc)
  have hv := run_cons.2 ⟨u', hu', hbs⟩
  obtain ⟨y', hy', hl⟩ := later_of_run hc.2 hv hy
  obtain rfl := Option.some.inj (hx.symm.trans hy')
  obtain ⟨h', hb', -⟩ := hl.handle h hb
  obtain hrun | hfin := running_or_finished hc.2 hv hy hb hs hx
  · exact absurd hrun hn
  · obtain ⟨rest, hrest⟩ := hstep.took.rest hw
    exact finished_of_later hstep.took.2 hrest hx hb' hfin

/-! ## The flag is turned once -/

/-- Who turns the flag finds it set from then on, and waits up to the bound. -/
theorem Turned.next {past : List Action} {v u : World} (ht : Turned env as m i past v)
    (ha : step env v (.proceed i) = some u) :
    (∃ x, u.members[m]? = some x ∧ x.cancel = true) ∧
      ∃ k, u.calls[i]? = some k ∧ k.member = m ∧
        k.stage = .bounded (v.now + env.settings.stopTimeout) := by
  obtain ⟨k, hk, rfl, hs⟩ := ht.asked.call
  obtain ⟨x, hx, hc⟩ := ht.unset
  obtain ⟨k₁, x₁, h, s, x', log, hk₁, hx₁, hb, hmove, rfl⟩ := exists_move_of_proceed ha
  obtain rfl := Option.some.inj (hk.symm.trans hk₁)
  obtain rfl := Option.some.inj (hx.symm.trans hx₁)
  obtain ⟨hlt, -⟩ := List.getElem?_eq_some_iff.1 hk
  obtain ⟨hltm, -⟩ := List.getElem?_eq_some_iff.1 hx
  obtain ⟨rfl, rfl⟩ := hmove.of_asking hs hc
  exact ⟨⟨_, List.getElem?_set_self hltm, rfl⟩, _, List.getElem?_set_self hlt, rfl, rfl⟩

/-- After the flag was turned it is set for good. -/
theorem Turned.cancel_of_run {past : List Action} {v u : World} (ht : Turned env as m i past v)
    (ha : step env v (.proceed i) = some u) (hw : run env u bs = some w) :
    ∃ x, w.members[m]? = some x ∧ x.cancel = true := by
  obtain ⟨⟨x, hx, hc⟩, -⟩ := ht.next ha
  obtain ⟨x', hx', hl⟩ := later_of_run (run_concat.2 ⟨v, ht.asked.took.2, ha⟩) hw hx
  exact ⟨x', hx', hl.cancel hc⟩

theorem Turned.cancel {past past' : List Action} {v v' : World} {a : Action}
    (h : Turned env as m i past v) (h' : Took env as past' a v')
    (hp : past ++ [.proceed i] <+: past') : ∃ x, v'.members[m]? = some x ∧ x.cancel = true := by
  obtain ⟨u, rest, ha, hrest⟩ := h.asked.took.between h' hp
  exact h.cancel_of_run ha hrest

theorem Turned.cancel_end {past : List Action} {v : World} (h : Turned env as m i past v)
    (hw : run env {} as = some w) : ∃ x, w.members[m]? = some x ∧ x.cancel = true := by
  obtain ⟨rest, hrest⟩ := h.asked.took.rest hw
  obtain ⟨u, ha, hrest⟩ := run_cons.1 hrest
  exact h.cancel_of_run ha hrest

/-- **The flag of a member is turned once**, by one call at one moment. -/
theorem Turned.unique {past past' : List Action} {v v' : World} (h : Turned env as m i past v)
    (h' : Turned env as m j past' v') : i = j ∧ past = past' ∧ v = v' := by
  obtain rfl | hp | hp := h.asked.took.cases_past h'.asked.took
  · obtain ⟨heq, hv⟩ := h.asked.took.eq_of_past h'.asked.took
    exact ⟨Action.proceed.inj heq, rfl, hv⟩
  · obtain ⟨x, hx, hc⟩ := h.cancel h'.asked.took hp
    obtain ⟨y, hy, hn⟩ := h'.unset
    obtain rfl := Option.some.inj (hx.symm.trans hy)
    rw [hc] at hn
    cases hn
  · obtain ⟨x, hx, hc⟩ := h'.cancel h.asked.took hp
    obtain ⟨y, hy, hn⟩ := h.unset
    obtain rfl := Option.some.inj (hx.symm.trans hy)
    rw [hc] at hn
    cases hn

/-- A step of a call that does not turn the flag leaves the flag alone, and none changes the
    run state. -/
theorem member_of_proceed {c : CallStage} {past : List Action} {v v' : World}
    (hs : Stepped env as m i c past v) (ha : step env v (.proceed i) = some v')
    (hx : v.members[m]? = some x) :
    ∃ x', v'.members[m]? = some x' ∧ x'.state = x.state ∧
      (¬ Turned env as m i past v → x'.cancel = x.cancel) := by
  obtain ⟨k, hk, rfl, -⟩ := hs.call
  obtain ⟨k₁, x₁, h, t, x', log, hk₁, hx₁, hb, hmove, rfl⟩ := exists_move_of_proceed ha
  obtain rfl := Option.some.inj (hk.symm.trans hk₁)
  obtain rfl := Option.some.inj (hx.symm.trans hx₁)
  obtain ⟨hlt, -⟩ := List.getElem?_eq_some_iff.1 hx
  refine ⟨x', List.getElem?_set_self hlt, hmove.state_eq hb, fun hn => hmove.cancel_eq ?_⟩
  rintro ⟨hask, hc⟩
  exact hn ⟨⟨hs.took, k, hk, rfl, hask⟩, x, hx, hc⟩

/-! ## What has happened to a call -/

/-- Why the stop of the call `i` on the member `m` is over. -/
inductive Answered (env : Environment) (as : List Action) (m i : Nat) : Prop where
  /-- it has turned the flag, and has waited -/
  | turned {past : List Action} {v : World} : Turned env as m i past v → Answered env as m i
  /-- it has found the run not running -/
  | idle {past : List Action} {v : World} {x : Member} : Stepped env as m i .reading past v →
      v.members[m]? = some x → x.state ≠ .running → Answered env as m i
  /-- it has found the flag set -/
  | forestalled {past : List Action} {v : World} {x : Member} :
      Stepped env as m i .asking past v → v.members[m]? = some x → x.cancel = true →
      Answered env as m i
  /-- it has sought a handle that nobody held any more -/
  | lost {past : List Action} {v : World} : Stepped env as m i .seeking past v →
      v.isHeld m = false → Answered env as m i

/-- Why a wait for the end of the run is over. -/
inductive Awaited (env : Environment) (as : List Action) (m i : Nat) : Prop where
  /-- it has found the run not running -/
  | idle {past : List Action} {v : World} {x : Member} : Stepped env as m i .entered past v →
      v.members[m]? = some x → x.state ≠ .running → Awaited env as m i
  /-- it has waited, and has found the run finished -/
  | ended {past : List Action} {v : World} {x : Member} : Stepped env as m i .waiting past v →
      v.members[m]? = some x → x.state = .finished → Awaited env as m i

theorem Answered.mono (h : Answered env as m i) (hab : as <+: bs) : Answered env bs m i := by
  cases h with
  | turned ht => exact .turned (ht.mono hab)
  | idle hs hx hn => exact .idle (hs.mono hab) hx hn
  | forestalled hs hx hc => exact .forestalled (hs.mono hab) hx hc
  | lost hs hn => exact .lost (hs.mono hab) hn

theorem Awaited.mono (h : Awaited env as m i) (hab : as <+: bs) : Awaited env bs m i := by
  cases h with
  | idle hs hx hn => exact .idle (hs.mono hab) hx hn
  | ended hs hx hf => exact .ended (hs.mono hab) hx hf

/-- What has happened to the call `k` at the place `i`, by its stage. -/
structure CallStory (env : Environment) (as : List Action) (i : Nat) (k : Call) : Prop where
  bounded : ∀ d, k.stage = .bounded d →
    ∃ past v, Turned env as k.member i past v ∧ d = v.now + env.settings.stopTimeout
  answered : k.kind ≠ .wait → k.stage = .disabling ∨ k.stage = .returned true →
    Answered env as k.member i
  awaited : k.kind = .wait → ∀ b, k.stage = .returned b → Awaited env as k.member i

namespace CallStory

theorem mono (h : CallStory env as i k) (hab : as <+: bs) : CallStory env bs i k := by
  refine ⟨fun d hd => ?_, fun hk hs => (h.answered hk hs).mono hab,
    fun hk b hs => (h.awaited hk b hs).mono hab⟩
  obtain ⟨past, v, ht, heq⟩ := h.bounded d hd
  exact ⟨past, v, ht.mono hab, heq⟩

/-- A call that has nothing to account for. -/
theorem blank (hs : k.stage.isAccountable = false) : CallStory env as i k := by
  refine ⟨fun d hd => ?_, fun _ hd => ?_, fun _ b hd => ?_⟩
  · rw [hd] at hs
    cases hs
  · rcases hd with hd | hd <;> rw [hd] at hs <;> cases hs
  · rw [hd] at hs
    cases hs

/-- A call whose stop is over. -/
theorem of_answered {s : CallStage} (hk : k.kind ≠ .wait) (hs : s = .disabling ∨ s = .returned true)
    (ha : Answered env as k.member i) : CallStory env as i (k.goto s) := by
  refine ⟨fun d hd => ?_, fun _ _ => ha, fun h => absurd h hk⟩
  rcases hs with rfl | rfl <;> cases hd

/-- A wait that is over. -/
theorem of_awaited {b : Bool} (hk : k.kind = .wait) (ha : Awaited env as k.member i) :
    CallStory env as i (k.goto (.returned b)) := by
  refine ⟨fun d hd => ?_, fun hne => absurd hk hne, fun _ _ _ => ha⟩
  cases hd

end CallStory

/-- What happens to a call in one of its steps. -/
theorem CallStory.proceed {s : CallStage} (hC : CallStory env as i k)
    (hO : k.stage.isOf k.kind = true) (hw : run env {} as = some w) (hk : w.calls[i]? = some k)
    (hx : w.members[k.member]? = some x) (hb : x.body = .handle h)
    (hm : k.Move env.settings.stopTimeout w.now (w.isHeld k.member) x h s x') :
    CallStory env (as ++ [.proceed i]) i (k.goto s) := by
  have hst : x.state = h.status.state := by simp [Member.state, hb]
  have hlast : ∀ s, k.stage = s → Stepped env (as ++ [.proceed i]) k.member i s as w :=
    fun s => .last hw hk
  have hstop : ∀ s, k.stage = s → s.isOf .wait = false → k.kind ≠ .wait := by
    rintro s rfl hs hkind
    rw [hkind, hs] at hO
    cases hO
  cases hm with
  | enabled | begin | found | running | wait => exact .blank rfl
  | disabled _ hkind _ =>
    refine ⟨fun d hd => ?_, fun _ hs => ?_, fun h => ?_⟩
    · cases hd
    · simp [Call.goto] at hs
    · rw [show k.kind = .wait from h] at hkind
      cases hkind
  | pointless hs hkind hn => exact .of_awaited hkind (.idle (hlast _ hs) hx (by rwa [hst]))
  | ended hs hf =>
    have hkind : k.kind = .wait := by rw [hs] at hO; simpa [CallStage.isOf] using hO
    exact .of_awaited hkind (.ended (hlast _ hs) hx (by rwa [hst]))
  | lost hs hn => exact .of_answered (hstop _ hs rfl) (.inl rfl) (.lost (hlast _ hs) hn)
  | idle hs hn =>
    exact .of_answered (hstop _ hs rfl) k.leave_stage (.idle (hlast _ hs) hx (by rwa [hst]))
  | asked hs hc =>
    exact .of_answered (hstop _ hs rfl) k.leave_stage (.forestalled (hlast _ hs) hx hc)
  | ask hs hc =>
    refine ⟨fun d hd => ?_, fun _ hs => by simp [Call.goto] at hs,
      fun h => absurd h (hstop _ hs rfl)⟩
    exact ⟨as, w, ⟨hlast _ hs, x, hx, hc⟩, (CallStage.bounded.inj hd).symm⟩
  | finished d hs _ | timeout d hs _ _ =>
    obtain ⟨past, v, ht, -⟩ := hC.bounded d hs
    exact .of_answered (hstop _ hs rfl) k.leave_stage (.turned (ht.mono (List.prefix_append _ _)))
  | disable hs =>
    have hne := hstop _ hs rfl
    exact .of_answered hne (.inr rfl) ((hC.answered hne (.inl hs)).mono (List.prefix_append _ _))

/-- **A call is at a stage of its kind**, after every run. -/
theorem isOf_of_run (hw : run env {} as = some w) (hk : w.calls[i]? = some k) :
    k.stage.isOf k.kind = true := by
  refine run_induction (P := fun _ w => ∀ (i : Nat) (k : Call), w.calls[i]? = some k →
    k.stage.isOf k.kind = true) ?_ ?_ hw i k hk
  · intro i k hk
    simp at hk
  · intro as a w w' hw ih ha i k' hk'
    obtain ⟨k, hk, hsh⟩ | ⟨-, -, hs⟩ := (effect_of_step ha).call_back hk'
    · cases hsh with
      | same => exact ih i _ hk
      | proceed _ _ hm => exact hm.isOf (ih i k hk)
      | abandon => rfl
    · rw [hs]
      rfl

/-- **What has happened to a call fits its stage**, after every run. -/
theorem callStory_of_run (hw : run env {} as = some w) (hk : w.calls[i]? = some k) :
    CallStory env as i k := by
  refine run_induction (P := fun as w => ∀ (i : Nat) (k : Call), w.calls[i]? = some k →
    CallStory env as i k) ?_ ?_ hw i k hk
  · intro i k hk
    simp at hk
  · intro as a w w' hw ih ha i k' hk'
    obtain ⟨k, hk, hsh⟩ | ⟨-, -, hs⟩ := (effect_of_step ha).call_back hk'
    · cases hsh with
      | same => exact (ih i _ hk).mono (List.prefix_append _ _)
      | proceed hx hb hm => exact (ih i k hk).proceed (isOf_of_run hw hk) hw hk hx hb hm
      | abandon => exact .blank rfl
    · exact .blank (by rw [hs]; rfl)

/-! ## Stops that do not wait -/

/-- A stop on its way takes its next step, at once. -/
theorem exists_proceed (env : Environment) (hk : w.calls[i]? = some k)
    (hx : w.members[k.member]? = some x) (hb : x.body = .handle h) (ha : 0 < k.stage.ahead) :
    ∃ s x' w', k.Move env.settings.stopTimeout w.now (w.isHeld k.member) x h s x' ∧
      step env w (.proceed i) = some w' ∧ w'.now = w.now ∧ w'.calls[i]? = some (k.goto s) ∧
      w'.members[k.member]? = some x' := by
  obtain ⟨n, hn⟩ := Option.isSome_iff_exists.1
    (Call.isSome_step env.settings.stopTimeout w.now (w.isHeld k.member) x h ha)
  have hsome : (step env w (.proceed i)).isSome := by
    simp [step, callStep, hk, hx, handle?_eq_some.2 hb, hn]
  obtain ⟨w', ha'⟩ := Option.isSome_iff_exists.1 hsome
  obtain ⟨k₁, x₁, h₁, s, x', log, hk₁, hx₁, hb₁, hm, rfl⟩ := exists_move_of_proceed ha'
  obtain rfl := Option.some.inj (hk.symm.trans hk₁)
  obtain rfl := Option.some.inj (hx.symm.trans hx₁)
  obtain rfl := Body.handle.inj (hb.symm.trans hb₁)
  obtain ⟨hlt, -⟩ := List.getElem?_eq_some_iff.1 hk
  obtain ⟨hltm, -⟩ := List.getElem?_eq_some_iff.1 hx
  exact ⟨s, x', _, hm, ha', rfl, List.getElem?_set_self hlt, List.getElem?_set_self hltm⟩

/-- **A stop that is on its way returns by its own steps, at once, or comes to wait**, and
    this only if the flag was not set. -/
theorem exists_answer (env : Environment) (hk : w.calls[i]? = some k)
    (hx : w.members[k.member]? = some x) (hb : x.body = .handle h) (ha : 0 < k.stage.ahead)
    (hkind : k.kind ≠ .wait) : ∃ n w' k', run env w (List.replicate n (.proceed i)) = some w' ∧
      w'.now = w.now ∧ w'.calls[i]? = some k' ∧ ((∃ b, k'.stage = .returned b) ∨
        x.cancel = false ∧ ∃ d, k'.stage = .bounded d) := by
  induction hn : k.stage.ahead using Nat.strongRecOn generalizing w k x h with
  | _ n ih =>
    obtain ⟨s, x', u, hm, hu, hnow, hku, hxu⟩ := exists_proceed env hk hx hb ha
    obtain ⟨hlt, hnext | hend⟩ := hm.ahead ha hkind
    · obtain ⟨h', hb', -⟩ := (hm.later hb).handle h hb
      obtain ⟨n, w', k', hw', hnow', hk', hend⟩ :=
        ih s.ahead (hn ▸ hlt) hku hxu hb' hnext hkind rfl
      refine ⟨n + 1, w', k', run_cons.2 ⟨u, hu, hw'⟩, hnow'.trans hnow, hk', ?_⟩
      refine hend.imp_right fun hc => ⟨?_, hc.2⟩
      by_contra hset
      rw [(hm.later hb).cancel (by simpa using hset)] at hc
      cases hc.1
    · exact ⟨1, u, _, run_cons.2 ⟨u, hu, rfl⟩, hnow, hku, hend⟩

end World

end Supervisor
