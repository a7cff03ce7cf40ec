/-
  What those who stop a run or wait for its end come back with.

  * `Runner.Coded`: the outcome that a run comes to has a code which is not that of a run that
    goes on, as long as the host reports words (`coded_of_run`); so a finished run shows the
    code of its outcome for good (`exists_concluded`);
  * `StopWaited`: the stop waits at some time.  It does exactly if it turns the flag
    (`stopWaited_iff`);
  * `PassesBy`, `LeavesOnTime`: what becomes of the stops that do not, and of the one that
    does;
  * `calls_return_as_promised`: all that a stop, an activation and a wait for the end promise.
-/
import Supervisor.Proofs.CallClock
import Supervisor.Proofs.Cancellation
import Supervisor.Proofs.ExitCode

namespace Supervisor

/-! ## Codes of outcomes -/

/-- **No status that a host reports has the code of a run that goes on.** -/
theorem WaitStatus.IsReported.exitCode_ne {s : WaitStatus} (hs : s.IsReported) :
    (Outcome.ofStatus s).exitCode ≠ unfinishedCode := by
  obtain ⟨word, -, rfl⟩ := hs
  obtain ⟨-, hw⟩ | ⟨hr, hw⟩ | ⟨-, hw⟩ := ofWord_cases word
  · rw [hw, Outcome.ofStatus, Outcome.exitCode, unfinishedCode]
    omega
  · rw [hw, Outcome.ofStatus, Program.exitCode_signaled (by omega), unfinishedCode]
    omega
  · rw [hw]
    decide

/-- What the runner `r` has come to has a code that is not that of a run which goes on: the
    statuses of its child are reported, and so are the outcomes that it has to record and has
    recorded. -/
structure Runner.Coded (h : Handle) (r : Runner) : Prop where
  child : ∀ c t s, r.child = some c → c.exit = some (t, s) → s.IsReported
  coming : ∀ o, r.stage.outcome? = some o → o.exitCode ≠ unfinishedCode
  recorded : ∀ o, h.status.outcome = some o → o.exitCode ≠ unfinishedCode

namespace Runner

variable {v : View} {x : Member} {h h' : Handle} {r r' : Runner} {s : RunnerStep}

theorem Coded.reap (hC : r.Coded h) {c : Child} {t : Nat} {s : WaitStatus}
    (hc : r.reap.child = some c) (he : c.exit = some (t, s)) : s.IsReported := by
  obtain ⟨c₀, hc₀, rfl⟩ := Option.map_eq_some_iff.1 hc
  exact hC.child c₀ t s hc₀ he

theorem isReported_of_status {c : Child} {now : Nat} {s : WaitStatus} (hC : r.Coded h)
    (hc : r.child = some c) (hs : c.status? now = some s) : s.IsReported := by
  unfold Child.status? at hs
  split at hs
  · cases hs
  · split at hs
    · next t s' he =>
      split at hs
      · cases hs
        exact hC.child c t s hc he
      · cases hs
    · cases hs

/-- A step that touches no child and records nothing, and comes to an outcome with a code. -/
theorem Coded.keep (hC : r.Coded h) (hc : r'.child = r.child)
    (hs : h'.status.outcome = h.status.outcome)
    (ho : ∀ o, r'.stage.outcome? = some o → o.exitCode ≠ unfinishedCode) : r'.Coded h' :=
  ⟨fun c t s h => hC.child c t s (hc ▸ h), ho, fun o h => hC.recorded o (hs ▸ h)⟩

/-- At a stage without an outcome there is none to come. -/
theorem coming_of_none {t : Stage} (ht : t.outcome? = none) :
    ∀ o, t.outcome? = some o → o.exitCode ≠ unfinishedCode := fun o ho => by
  rw [ht] at ho
  cases ho

/-- **Outcomes have codes of their own** after each step of the runner. -/
theorem Act.coded (ha : Act v x h r s h' r') (hE : v.env.ReportsWords r.spec)
    (hC : r.Coded h) : r'.Coded h' := by
  cases ha with
  | begin hs =>
    refine hC.keep rfl rfl ?_
    simp only [goto]
    split <;> exact coming_of_none rfl
  | register n hs _ =>
    refine hC.keep (by split <;> rfl) rfl ?_
    split
    · exact coming_of_none rfl
    · exact hC.coming
  | launch p _ hp =>
    refine ⟨fun c t s hc he => ?_, coming_of_none rfl, hC.recorded⟩
    cases hc
    exact hE.launched v.now p t s hp he
  | refuse f hs _ => exact hC.keep rfl rfl (coming_of_none rfl)
  | exit c s _ hc hst =>
    refine ⟨fun _ _ _ => hC.reap, fun o ho => ?_, hC.recorded⟩
    cases ho
    exact (isReported_of_status hC hc hst).exitCode_ne
  | cancel _ _ =>
    refine ⟨fun _ _ _ => hC.reap, fun o ho => ?_, hC.recorded⟩
    cases ho
    decide
  | tellFailure _ _ | fall _ _ _ =>
    refine hC.keep rfl rfl fun o ho => ?_
    cases ho
    decide
  | leave o hs =>
    refine hC.keep rfl rfl fun o' ho => hC.coming o' ?_
    rw [hs]
    simp only [goto] at ho
    split at ho <;> exact ho
  | record o hs =>
    refine ⟨hC.child, fun o' ho => hC.coming o' (by rw [hs]; exact ho), fun o' ho => ?_⟩
    cases hout : h.status.outcome with
    | none =>
      obtain rfl : o = o' := by simpa [RunStatus.storeOutcome, hout] using ho
      exact hC.coming o (by rw [hs]; rfl)
    | some o₀ =>
      obtain rfl : o₀ = o' := by simpa [RunStatus.storeOutcome, hout] using ho
      exact hC.recorded o₀ hout
  | publish o _ => exact hC.keep rfl (h.status.advance_outcome _) (coming_of_none rfl)
  | drain _ hs | drained _ _ hs | resolve _ _ hs | silent _ hs | tellEnd _ _ hs | close _ hs
  | disable _ hs | detach _ hs | forget _ hs =>
    exact hC.keep rfl rfl fun o ho => hC.coming o (by rw [hs]; exact ho)

theorem Advance.coded {env : Environment} {w : World} {m : Nat} {a : Action}
    (ha : Advance env w m x h r a h' r') (hE : env.ReportsWords r.spec) (hC : r.Coded h) :
    r'.Coded h' := by
  cases ha with
  | act ha => exact ha.coded hE hC
  | @pump e p p' k' _ _ =>
    refine ⟨fun c t s hc he => ?_, hC.coming, hC.recorded⟩
    simp only [childAfter] at hc
    split at hc
    · obtain ⟨c₀, -, rfl⟩ := Option.map_eq_some_iff.1 hc
      exact hE.unread c₀.launched w.now t s he
    · exact hC.child c t s hc he
  | idle _ hst => exact hC.keep rfl (by rw [hst]) hC.coming

end Runner

namespace World

variable {env : Environment} {w v : World} {as past rest : List Action} {m i j : Nat} {x : Member}
  {h : Handle} {r : Runner} {k : Call}

/-- **After every run its outcomes have codes of their own**, on a host that reports words. -/
theorem coded_of_run (hE : ∀ spec, env.ReportsWords spec) (hw : run env {} as = some w)
    (hx : w.members[m]? = some x) (hb : x.body = .handle h) (hr : h.runner = some r) :
    r.Coded h := by
  refine run_induction (P := fun _ w => ∀ x h r, w.members[m]? = some x → x.body = .handle h →
    h.runner = some r → r.Coded h) ?_ ?_ hw x h r hx hb hr
  · intro x h r hx
    simp at hx
  · intro as a w w' hw ih ha x' h' r' hx' hb' hr'
    obtain ⟨x, hx, hs⟩ | ⟨-, hnew⟩ := (effect_of_step ha).shift_back hx'
    · obtain ⟨h, hb⟩ := hs.handle_back hb'
      have hS := sound_of_run hw hx
      cases hr : h.runner with
      | none =>
        obtain ⟨-, -, rfl, rfl⟩ := start_of_runner hs hb hr hb' hr'
        refine ⟨nofun, nofun, fun o ho => ?_⟩
        rw [RunStatus.advance_outcome, ((hS h hb).idle hr).2] at ho
        cases ho
      | some r =>
        obtain ⟨y, k, q, hy, hk, hadv⟩ := advance_of_step ha hS hx hb hr
        obtain rfl := Option.some.inj (hx'.symm.trans hy)
        obtain rfl := Body.handle.inj (hb'.symm.trans hk)
        cases hr'
        have hC := hadv.coded (hE _) (ih x h r hx hb hr)
        exact ⟨hC.child, hC.coming, hC.recorded⟩
    · rw [(hnew.handle h' hb').2.2.2] at hr'
      cases hr'

/-- The run of the handle is finished with the outcome `o`, and shows the code of it, which is
    not that of a run that goes on. -/
def Concluded (w : World) (m : Nat) (o : Outcome) : Prop :=
  ∃ h, w.handle? m = some h ∧ h.status.state = .finished ∧ h.status.outcome = some o ∧
    h.status.exitCode = o.exitCode ∧ h.status.exitCode ≠ unfinishedCode

/-- **A finished run shows the code of its outcome for good.** -/
theorem exists_concluded (hE : ∀ spec, env.ReportsWords spec) (hw : run env {} as = some w)
    (hx : w.members[m]? = some x) (hb : x.body = .handle h) (hf : h.status.state = .finished) :
    ∃ o, ∀ bs w', run env w bs = some w' → Concluded w' m o := by
  obtain ⟨o, ho⟩ := Option.isSome_iff_exists.1 (tornDown_of_finished hw hx hb hf).outcome
  obtain ⟨r, hr, -⟩ := gone_of_finished hw hx hb hf
  have hne := (coded_of_run hE hw hx hb hr).recorded o ho
  refine ⟨o, fun bs w' hw' => ?_⟩
  obtain ⟨x', hx', hl⟩ := later_of_run hw hw' hx
  obtain ⟨h', hb', hl⟩ := hl.handle h hb
  have hfin : h'.status.state = .finished := RunState.eq_finished_of_le (hf ▸ hl.state)
  have hcode : h'.status.exitCode = o.exitCode := by
    simp [RunStatus.exitCode, hfin, hl.outcome o ho]
  exact ⟨h', by simp [handle?, hx', handle?_eq_some.2 hb'], hfin, hl.outcome o ho, hcode,
    hcode ▸ hne⟩

/-! ## Who waits -/

/-- The call `i` on the member `m` waits up to a bound at some time of the run `as`. -/
def StopWaited (env : Environment) (as : List Action) (m i : Nat) : Prop :=
  ∃ bs w k d, bs <+: as ∧ run env {} bs = some w ∧ w.calls[i]? = some k ∧ k.member = m ∧
    k.stage = .bounded d

/-- **A stop waits exactly if it turns the flag.** -/
theorem stopWaited_iff (hw : run env {} as = some w) :
    StopWaited env as m i ↔ ∃ past v, Turned env as m i past v := by
  constructor
  · rintro ⟨bs, u, k, d, hpre, hu, hk, rfl, hs⟩
    obtain ⟨past, v, ht, -⟩ := (callStory_of_run hu hk).bounded d hs
    exact ⟨past, v, ht.mono hpre⟩
  · rintro ⟨past, v, ht⟩
    obtain ⟨rest, hrest⟩ := ht.asked.took.rest hw
    obtain ⟨u, ha, -⟩ := run_cons.1 hrest
    obtain ⟨-, k, hk, hm, hs⟩ := ht.next ha
    exact ⟨past ++ [.proceed i], u, k, _, ht.asked.took.1,
      run_concat.2 ⟨v, ht.asked.took.2, ha⟩, hk, hm, hs⟩

/-- **One stop waits at most**, of all on a member. -/
theorem StopWaited.unique (hw : run env {} as = some w) (hi : StopWaited env as m i)
    (hj : StopWaited env as m j) : i = j := by
  obtain ⟨past, v, ht⟩ := (stopWaited_iff hw).1 hi
  obtain ⟨past', v', ht'⟩ := (stopWaited_iff hw).1 hj
  exact (ht.unique ht').1

/-! ## Those that do not wait -/

/-- What becomes of the call `k` at the place `i` on the member `m`, a stop or an activation that
    does not turn the flag in the run `as`, which leads to `w`. -/
structure PassesBy (env : Environment) (as : List Action) (w : World) (m i : Nat) (k : Call) :
    Prop where
  /-- its steps leave the flag and the run state as they are -/
  keeps : ∀ s past v v' y, Stepped env as m i s past v → World.step env v (.proceed i) = some v' →
    v.members[m]? = some y →
      ∃ y', v'.members[m]? = some y' ∧ y'.cancel = y.cancel ∧ y'.state = y.state
  /-- it is over for a reason: the run was not running, or the flag was set, or an activation
      sought a handle that nobody held -/
  reason : ∀ b, k.stage = .returned b → k.kind = .stop ∨ b = true →
    (∃ past v y, Stepped env as m i .reading past v ∧ v.members[m]? = some y ∧
      y.state ≠ .running) ∨
    (∃ past v y, Stepped env as m i .asking past v ∧ v.members[m]? = some y ∧ y.cancel = true) ∨
    (k.kind = .activate ∧ ∃ past v, Stepped env as m i .seeking past v ∧ v.isHeld m = false)
  /-- while it is on its way it can go on until it returns, at once; only if it turns the flag
      it comes to wait -/
  returns : 0 < k.stage.ahead → ∃ n w' k', run env w (List.replicate n (.proceed i)) = some w' ∧
    w'.now = w.now ∧ w'.calls[i]? = some k' ∧
      ((∃ b, k'.stage = .returned b) ∨ ∃ d, k'.stage = .bounded d)
  /-- no time passes before it has returned -/
  atOnce : ∀ rest w' k', 0 < k.stage.ahead → playOn env i w rest = some w' →
    w'.calls[i]? = some k' → ¬ StopWaited env (as ++ rest) m i → 0 < k'.stage.ahead →
      w'.now = w.now

theorem passesBy_of_run (hw : run env {} as = some w) (hx : w.members[m]? = some x)
    (hb : x.body = .handle h) (hk : w.calls[i]? = some k) (hm : k.member = m)
    (hkind : k.kind ≠ .wait) (hn : ¬ StopWaited env as m i) : PassesBy env as w m i k := by
  have hturn : ∀ past v, ¬ Turned env as m i past v :=
    fun past v ht => hn ((stopWaited_iff hw).2 ⟨past, v, ht⟩)
  subst hm
  refine ⟨fun s past v v' y hs ha hy => ?_, fun b hr hb => ?_, fun ha => ?_,
    fun rest w' k' _ hplay hk' hn' ha' => ?_⟩
  · obtain ⟨y', hy', hst, hc⟩ := member_of_proceed hs ha hy
    exact ⟨y', hy', hc (hturn past v), hst⟩
  · have hO := isOf_of_run hw hk
    have hb : b = true := by
      rcases hb with hstop | hb
      · simpa [hr, CallStage.isOf, hstop] using hO
      · exact hb
    cases (callStory_of_run hw hk).answered hkind (.inr (hb ▸ hr)) with
    | turned ht => exact absurd ht (hturn _ _)
    | idle hs hy hne => exact .inl ⟨_, _, _, hs, hy, hne⟩
    | forestalled hs hy hc => exact .inr (.inl ⟨_, _, _, hs, hy, hc⟩)
    | lost hs hheld =>
      refine .inr (.inr ⟨?_, _, _, hs, hheld⟩)
      -- only an activation seeks the handle
      obtain ⟨q, hq, hqm, hqs⟩ := hs.call
      have hqO := isOf_of_run hs.took.2 hq
      obtain ⟨rest, hrest⟩ := hs.took.rest hw
      obtain ⟨k', hk', hk'kind, -⟩ := call_of_run hrest hq
      obtain rfl := Option.some.inj (hk.symm.trans hk')
      rw [hk'kind]
      simpa [hqs, CallStage.isOf] using hqO
  · obtain ⟨n, w', k', hw', hnow, hk', hend⟩ := exists_answer env hk hx hb ha hkind
    exact ⟨n, w', k', hw', hnow, hk', hend.imp_right And.right⟩
  · have hrun := run_append_eq_some.2 ⟨w, hw, run_of_playBy hplay⟩
    obtain ⟨k₁, hk₁, -, hnow⟩ := at_once_of_play hw hk hx hb hplay
      fun past v ht => hn' ((stopWaited_iff hrun).2 ⟨past, v, ht⟩)
    obtain rfl := Option.some.inj (hk'.symm.trans hk₁)
    exact hnow ha'

/-! ## The one that waits -/

/-- The call that turned the flag in `v` goes on in `u`, in the run `rest` from there. -/
def GoesOn (env : Environment) (i : Nat) (v : World) (rest : List Action) (u : World) : Prop :=
  ∃ bs, bs ++ [.proceed i] <+: rest ∧ run env v (.proceed i :: bs) = some u

/-- What becomes of the call at the place `i` that turned the flag of the member `m` in `v`, in
    the run `rest` from there, which leads to `w`. -/
structure LeavesOnTime (env : Environment) (m i : Nat) (v : World) (rest : List Action)
    (w : World) : Prop where
  /-- it goes on when the run is finished, or at the bound if this comes first -/
  onTime : ∀ u, GoesOn env i v rest u → u.now = stopEnd env v (.proceed i :: rest) m
  /-- until then it waits, and not longer -/
  inTime : ∀ k d, w.calls[i]? = some k → k.stage = .bounded d →
    w.now ≤ stopEnd env v (.proceed i :: rest) m
  /-- it warns if it has given up at the bound, and only then -/
  warns : ∀ u u' k d g, GoesOn env i v rest u → u.calls[i]? = some k → k.stage = .bounded d →
    u.handle? m = some g → World.step env u (.proceed i) = some u' →
    finishTime env m v (.proceed i :: rest) ≠ some (v.stopBound env) →
      u'.log = u.log ++ if u.now = v.stopBound env
        then [.stopTimedOut g.command env.settings.stopTimeout] else []
  /-- it can always return -/
  returns : ∀ k d, w.calls[i]? = some k → k.stage = .bounded d →
    ∃ bs w' k', playOn env i w bs = some w' ∧ (∀ b ∈ bs, b = .proceed i ∨ ∃ ms, b = .pass ms) ∧
      w'.calls[i]? = some k' ∧ k'.stage = .returned true

theorem leavesOnTime_of_play (ht : Turned env as m i past v)
    (hplay : playOn env i v (.proceed i :: rest) = some w) : LeavesOnTime env m i v rest w := by
  have hw := run_of_playBy hplay
  obtain ⟨u₀, ha₀, -⟩ := run_cons.1 hw
  obtain ⟨x₀, h₀, hx₀, hb₀⟩ := ht.exists_handle ha₀
  obtain ⟨k₀, hk₀, hm₀, hT⟩ := stopTimed_of_play ht hplay
  refine ⟨fun u hu => ?_, fun k d hk hs => ?_, fun u u' k d g hu hk hs hg ha htie => ?_,
    fun k d hk hs => ?_⟩
  · obtain ⟨bs, hpre, hu⟩ := hu
    obtain ⟨k, x, h, cs, hS, heq⟩ := exists_stopStep ht hplay hpre hu
    rw [heq]
    exact hS.now_eq
  · obtain rfl := Option.some.inj (hk.symm.trans hk₀)
    rw [hs] at hT
    exact hT.now_le
  · obtain ⟨bs, hpre, hu⟩ := hu
    obtain ⟨k', x, h, cs, hS, heq⟩ := exists_stopStep ht hplay hpre hu
    obtain rfl := Option.some.inj (hk.symm.trans hS.call)
    obtain rfl : h = g := by
      simpa [handle?, hS.body.1, handle?_eq_some.2 hS.body.2] using hg
    rw [heq] at htie
    rw [log_of_leave hk hs (hS.member ▸ hS.body.1) hS.body.2 ha]
    by_cases hnow : u.now = v.stopBound env
    · rw [if_neg fun hfin => (hS.finished_iff hs htie).1 hfin hnow, if_pos hnow]
    · rw [if_pos ((hS.finished_iff hs htie).2 hnow), if_neg hnow]
  · obtain rfl := Option.some.inj (hk.symm.trans hk₀)
    obtain ⟨x, hx, hl⟩ := later_of_run ht.asked.took.2 hw hx₀
    obtain ⟨h, hb, -⟩ := hl.handle h₀ hb₀
    exact exists_returned env hk hs (hm₀ ▸ hx) hb

/-! ## All together -/

/-- **What a stop, an activation and a wait for the end promise.**  Of all calls on a handle one
    waits up to a bound at most, the one that turns the flag; the others pass by, and this one
    leaves on time.  A wait for the end of a run that was running comes back only when this is
    finished, with an outcome whose code is shown from then on. -/
theorem calls_return_as_promised (hE : ∀ spec, env.ReportsWords spec)
    (hw : run env {} as = some w) (hx : w.members[m]? = some x) (hb : x.body = .handle h) :
    (∀ i j, StopWaited env as m i → StopWaited env as m j → i = j) ∧
    (∀ i, StopWaited env as m i ↔ ∃ past v, Turned env as m i past v) ∧
    (∀ i k, w.calls[i]? = some k → k.member = m → k.kind ≠ .wait → ¬ StopWaited env as m i →
      PassesBy env as w m i k) ∧
    (∀ i past v rest w', Turned env as m i past v → playOn env i v (.proceed i :: rest) = some w' →
      LeavesOnTime env m i v rest w') ∧
    (∀ past u y g k b, Took env as past (.call .wait m) u → u.members[m]? = some y →
      y.body = .handle g → g.status.state = .running → w.calls[u.calls.length]? = some k →
      k.stage = .returned b → ∃ o, ∀ bs w', run env w bs = some w' → Concluded w' m o) := by
  refine ⟨fun i j => StopWaited.unique hw, fun i => stopWaited_iff hw,
    fun i k hk hm hkind => passesBy_of_run hw hx hb hk hm hkind,
    fun i past v rest w' => leavesOnTime_of_play, fun past u y g k b hc hy hg hrun hk hr => ?_⟩
  obtain ⟨k', hk', hkind, rfl⟩ := hc.exists_call hw
  obtain rfl := Option.some.inj (hk.symm.trans hk')
  obtain ⟨x', hx', hfin⟩ : ∃ x', w.members[k.member]? = some x' ∧ x'.state = .finished := by
    cases (callStory_of_run hw hk).awaited hkind b hr with
    | idle hs hz hn => exact finished_of_idle hw hc hy hg hrun hs hz hn
    | ended hs hz hf => exact finished_of_idle hw hc hy hg hrun hs hz (by rw [hf]; nofun)
  obtain rfl := Option.some.inj (hx.symm.trans hx')
  exact exists_concluded hE hw hx hb (by simpa [Member.state, hb] using hfin)

end World

/-- A host on which no child writes or ends, and a stop waits 20 ms at most. -/
def Environment.impatient : Environment :=
  { Environment.silent with settings := { stopTimeout := 20 } }

namespace World

theorem impatient_reportsWords (spec : LaunchSpec) : Environment.impatient.ReportsWords spec where
  launched := by
    rintro now p t s hp hs
    cases hp
    cases hs
  unread := by
    rintro now later t s hs
    cases hs

/-- A run whose end is waited for, and for which two are about to ask. -/
def rivalsBegun : List Action :=
  List.flatten [[.create ["sleep"] .storing, .start 0 true], List.replicate 5 (.runner 0 .proceed),
    [.call .wait 0, .call .stop 0, .call .stop 0, .proceed 0, .proceed 1, .proceed 2, .proceed 1,
      .proceed 2]]

/-- The second of them comes too late.  After 5 ms the run comes to its end, and those who wait
    go on. -/
def rivalsEnded : List Action :=
  List.flatten [[.proceed 2, .pass 5, .runner 0 .cancel, .runner 0 .proceed, .pump 0 .start,
      .pump 0 (.read .out), .pump 0 (.read .err)], List.replicate 8 (.runner 0 .proceed),
    [.proceed 1, .proceed 0]]

/-- Both, and between them the first turns the flag. -/
def rivalStops : List Action := rivalsBegun ++ .proceed 1 :: rivalsEnded

/-- The world in which it does. -/
def rivalsAt : World := (run .impatient {} rivalsBegun).getD {}

/-- The first of the two waits, the second passes by, and the wait comes back to a finished
    run.  The first leaves when the run is finished, after 5 ms and without a warning; if nothing
    happens, it leaves at its bound with one. -/
theorem calls_return_as_promised_rivalStops :
    ∃ w x h k v u u' t t', run .impatient {} rivalStops = some w ∧ w.members[0]? = some x ∧
      x.body = .handle h ∧ (∀ spec, Environment.impatient.ReportsWords spec) ∧
      StopWaited .impatient rivalStops 0 1 ∧ w.calls[2]? = some k ∧
      PassesBy .impatient rivalStops w 0 2 k ∧ (∃ o, Concluded w 0 o) ∧
      Turned .impatient rivalStops 0 1 rivalsBegun rivalsAt ∧
      playOn .impatient 1 rivalsAt (.proceed 1 :: rivalsEnded) = some v ∧
      LeavesOnTime .impatient 0 1 rivalsAt rivalsEnded v ∧
      (GoesOn .impatient 1 rivalsAt rivalsEnded u ∧ step .impatient u (.proceed 1) = some u' ∧
        u.now = 5 ∧ u'.log = u.log) ∧
      GoesOn .impatient 1 rivalsAt [.pass 20, .proceed 1] t ∧
        step .impatient t (.proceed 1) = some t' ∧ t.now = 20 ∧
        t'.log = t.log ++ [.stopTimedOut ["sleep"] 20] := by
  have hturn : Turned .impatient rivalStops 0 1 rivalsBegun rivalsAt :=
    ⟨⟨⟨⟨_, rfl⟩, rfl⟩, _, rfl, rfl, rfl⟩, _, rfl, rfl⟩
  have hwait : Took .impatient rivalStops (rivalStops.take 7) (.call .wait 0) _ := ⟨⟨_, rfl⟩, rfl⟩
  obtain ⟨hunique, hwaits, hpass, hleave, hend⟩ :=
    @calls_return_as_promised .impatient _ rivalStops 0 _ _ impatient_reportsWords rfl rfl rfl
  have hone := (hwaits 1).2 ⟨_, _, hturn⟩
  have htwo : ¬ StopWaited .impatient rivalStops 0 2 := fun htwo => by
    have := hunique 1 2 hone htwo
    omega
  obtain ⟨o, ho⟩ := hend _ _ _ _ _ _ hwait rfl rfl rfl rfl rfl
  -- the run itself, in which the first leaves with the end of the run
  have hplay : playOn .impatient 1 rivalsAt (.proceed 1 :: rivalsEnded) = some _ := rfl
  have hfin := hleave 1 _ _ rivalsEnded _ hturn hplay
  have hgoes : GoesOn .impatient 1 rivalsAt rivalsEnded _ := ⟨rivalsEnded.take 15, ⟨_, rfl⟩, rfl⟩
  have hstop : stopEnd .impatient rivalsAt (.proceed 1 :: rivalsEnded) 0 = 5 := rfl
  have hnow := (hfin.onTime _ hgoes).trans hstop
  have hquiet := hfin.warns _ _ _ _ _ hgoes rfl rfl rfl rfl (by decide)
  -- one in which nothing happens up to the bound
  have hlate := hleave 1 _ _ [.pass 20, .proceed 1] _ hturn rfl
  have hstays : GoesOn .impatient 1 rivalsAt [.pass 20, .proceed 1] _ :=
    ⟨[.pass 20], ⟨_, rfl⟩, rfl⟩
  have hbound : stopEnd .impatient rivalsAt [.proceed 1, .pass 20, .proceed 1] 0 = 20 := rfl
  have hnow' := (hlate.onTime _ hstays).trans hbound
  have hwarns := hlate.warns _ _ _ _ _ hstays rfl rfl rfl rfl (by decide)
  exact ⟨_, _, _, _, _, _, _, _, _, rfl, rfl, rfl, impatient_reportsWords, hone, rfl,
    hpass 2 _ rfl rfl nofun htwo, ⟨o, ho [] _ rfl⟩, hturn, hplay, hfin,
    ⟨hgoes, rfl, hnow, hquiet⟩, hstays, rfl, hnow', hwarns⟩

end World

end Supervisor
