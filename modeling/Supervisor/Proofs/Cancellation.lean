/-
  Nothing is killed unasked.

  * `FoundRunning env as i m`: the call `i`, a stop of the handle `m` or one by
    its stop control, has found the run running;
  * `Cause env past w m a`: the action `a` may cancel the handle `m`, because of
    such a stop, or because of a sweep if the handle was not started exempt;
  * `cause_of_step`: no other action does, and `cause_of_cancelled`: whoever is
    cancelled was so by one of them;
  * `wasKilled_of_run`: a runner that has not fallen has the outcome killed from
    being cancelled while it waited, or from a status that is neither an exit nor
    a signal;
  * `never_killed_unasked` puts these together.
-/
import Supervisor.Proofs.Later
import Supervisor.Proofs.Ledger

namespace Supervisor

/-! ## Calls whose stop is over -/

/-- The call has its stop behind it. -/
def Call.isSpent (k : Call) : Bool :=
  match k.stage with
  | .disabling | .returned _ | .abandoned => true
  | _ => false

theorem Call.isSpent_leave (k : Call) : k.leave.isSpent = true := by
  unfold leave
  split <;> rfl

/-- A stop that does not find the run running is over. -/
theorem Call.Move.stage_of_reading {bound now : Nat} {held : Bool} {x x' : Member} {h : Handle}
    {k : Call} {s : CallStage} (hm : k.Move bound now held x h s x') (hs : k.stage = .reading)
    (hn : h.status.state ≠ .running) : s = k.leave.stage := by
  cases hm with
  | running _ hr => exact absurd hr hn
  | idle _ _ => rfl
  | _ => simp_all

theorem Call.Shift.isSpent {env : Environment} {w : World} {i : Nat} {k k' : Call} {a : Action}
    (hs : k.Shift env w i a k') (hk : k.isSpent = true) : k'.isSpent = true := by
  cases hs with
  | same => exact hk
  | abandon => rfl
  | proceed hx hb hm =>
    cases hm with
    | disable _ => rfl
    | _ => simp_all [Call.isSpent]

/-! ## Runs that end as killed -/

/-- The outcome that a runner has come to, and is still to record. -/
def Stage.outcome? : Stage → Option Outcome
  | ended o | draining o | telling o | noting o _ | closing o | leaving o | disabling o
  | detaching o | recording o | forgetting o | publishing o => some o
  | _ => none

/-- The run of the handle ends as killed, without its runner having fallen. -/
def Runner.EndsKilled (h : Handle) (r : Runner) : Prop :=
  r.fell = false ∧ (r.stage.outcome? = some .killed ∨ h.status.outcome = some .killed)

/-- A calm step keeps an outcome; a launch that failed is not a kill. -/
theorem Stage.Calm.killed_back {b : Bool} {s t : Stage} (hc : Calm b s t)
    (ho : t.outcome? = some .killed) : s.outcome? = some .killed := by
  cases hc with
  | enlist _ => cases ho
  | exempt _ => cases ho
  | fail f => cases ho
  | failed f => cases ho
  | _ => exact ho

/-- **A run comes to end as killed by being cancelled, or by an odd status.** -/
theorem Runner.Move.endsKilled_back {v : View} {x x' : Member} {h h' : Handle} {r r' : Runner}
    {s : RunnerStep} {c' : Coordinator} (hm : r.Move v x h s x' c') (hb' : x'.body = .handle h')
    (hr' : h'.runner = some r') (hk : r'.EndsKilled h') :
    r.EndsKilled h ∨ (s = .cancel ∧ x.cancel = true) ∨
      (s = .exit ∧ ∃ c, r.child = some c ∧ c.status? v.now = some .neither) := by
  obtain ⟨hf, ho⟩ := hk
  cases hm with
  | calm k r₁ hc _ _ _ hfell =>
    cases hb'
    cases hr'
    exact Or.inl ⟨hfell ▸ hf, ho.imp hc.killed_back id⟩
  | fall k _ _ => cases hb'; cases hr'; cases hf
  | register n hs _ =>
    cases hb'
    cases hr'
    refine Or.inl ?_
    split at ho
    · next hset =>
      simp only [hset, if_true] at hf
      exact ⟨hf, ho.imp nofun id⟩
    · next hset =>
      simp only [hset] at hf
      exact ⟨hf, ho⟩
  | launch p hs _ =>
    cases hb'
    cases hr'
    exact Or.inl ⟨hf, ho.imp nofun id⟩
  | exit c st hs hch hst =>
    cases hb'
    cases hr'
    rcases ho with ho | ho
    · cases st with
      | neither => exact Or.inr (Or.inr ⟨rfl, c, hch, hst⟩)
      | _ => cases ho
    · exact Or.inl ⟨hf, Or.inr ho⟩
  | cancel hs hc => exact Or.inr (Or.inl ⟨rfl, hc⟩)
  | leave o hs =>
    cases hb'
    cases hr'
    refine Or.inl ⟨hf, ho.imp (fun ho => ?_) id⟩
    rw [hs]
    cases hctl : r.controlled <;> simpa [Runner.goto, hctl, Stage.outcome?] using ho
  | disable o hs => cases hb'; cases hr'; exact Or.inl ⟨hf, by rw [hs]; exact ho⟩
  | detach o hs => cases hb'; cases hr'; exact Or.inl ⟨hf, by rw [hs]; exact ho⟩
  | record o hs =>
    cases hb'
    cases hr'
    refine Or.inl ⟨hf, ?_⟩
    rw [hs]
    rcases ho with ho | ho
    · exact Or.inl ho
    · cases hout : h.status.outcome with
      | none => exact Or.inl (by simpa [RunStatus.storeOutcome, hout, Stage.outcome?] using ho)
      | some o' => exact Or.inr (by simpa [RunStatus.storeOutcome, hout] using ho)
  | forget o hs => cases hb'; cases hr'; exact Or.inl ⟨hf, by rw [hs]; exact ho⟩
  | publish o hs =>
    cases hb'
    cases hr'
    refine Or.inl ⟨hf, Or.inr ?_⟩
    rcases ho with ho | ho
    · cases ho
    · exact (h.status.advance_outcome _).symm.trans ho

section
variable {env : Environment} {w : World} {m : Nat} {x x' : Member} {a : Action} {h' : Handle}
  {r' : Runner}

/-- The runner of the member comes to end as killed in the action. -/
def Member.IsKilledBy (w : World) (m : Nat) (x : Member) (a : Action) : Prop :=
  (∃ h, x.body = .handle h) ∧ a = .runner m .cancel ∧ x.cancel = true ∨
    a = .runner m .exit ∧ ∃ h r c, x.body = .handle h ∧ h.runner = some r ∧ r.child = some c ∧
      c.status? w.now = some .neither

theorem Turn.endsKilled_back {c' : Coordinator} (ht : Turn env w m x a x' c') (hS : x.Sound)
    (hb' : x'.body = .handle h') (hr' : h'.runner = some r') (hk : r'.EndsKilled h') :
    (∃ h r, x.body = .handle h ∧ h.runner = some r ∧ r.EndsKilled h) ∨ x.IsKilledBy w m a := by
  cases ht with
  | guest g' _ => cases hb'
  | register n hb _ => rw [Member.enrol_body, hb] at hb'; cases hb'
  | configure _ hb _ => cases hb'; exact Or.inl ⟨_, r', hb, hr', hk⟩
  | createControl _ hb _ => cases hb'; exact Or.inl ⟨_, r', hb, hr', hk⟩
  | @start h hb hs =>
    cases hb'
    cases hr'
    obtain ⟨-, ho | ho⟩ := hk
    · cases ho
    · rw [RunStatus.advance_outcome, ((hS h hb).idle ((hS h hb).runner_eq_none hs)).2] at ho
      cases ho
  | copies _ hb => cases hb'; exact Or.inl ⟨_, r', hb, hr', hk⟩
  | runner hb hr hm =>
    rcases hm.endsKilled_back hb' hr' hk with hk | ⟨rfl, hc⟩ | ⟨rfl, c, hch, hst⟩
    · exact Or.inl ⟨_, _, hb, hr, hk⟩
    · exact Or.inr (Or.inl ⟨⟨_, hb⟩, rfl, hc⟩)
    · exact Or.inr (Or.inr ⟨rfl, _, _, c, hb, hr, hch, hst⟩)
  | pump n hb hr _ _ => cases hb'; cases hr'; exact Or.inl ⟨_, _, hb, hr, hk⟩

theorem Shift.endsKilled_back (hs : Shift env w m x a x') (hS : x.Sound)
    (hb' : x'.body = .handle h') (hr' : h'.runner = some r') (hk : r'.EndsKilled h') :
    (∃ h r, x.body = .handle h ∧ h.runner = some r ∧ r.EndsKilled h) ∨ x.IsKilledBy w m a := by
  cases hs with
  | same => exact Or.inl ⟨h', r', hb', hr', hk⟩
  | turn ht => exact ht.endsKilled_back hS hb' hr' hk
  | call _ _ hb hm =>
    cases hm with
    | disable _ => cases hb'; exact Or.inl ⟨_, r', hb, hr', hk⟩
    | _ => exact Or.inl ⟨h', r', hb', hr', hk⟩
  | cancel _ _ _ _ => exact Or.inl ⟨h', r', hb', hr', hk⟩

end

namespace World

variable {env : Environment} {w w' : World} {as : List Action} {a : Action} {m : Nat}
  {x x' : Member} {h : Handle} {r : Runner}

/-! ## Causes -/

/-- The call `i` on the handle `m`, of its own or by the stop control, has found
    the run running. -/
def FoundRunning (env : Environment) (as : List Action) (i m : Nat) : Prop :=
  ∃ past v k x h, Took env as past (.proceed i) v ∧ v.calls[i]? = some k ∧ k.member = m ∧
    k.kind ≠ .wait ∧ k.stage = .reading ∧ v.members[m]? = some x ∧ x.body = .handle h ∧
    h.status.state = .running

/-- The handle at the place was started, and is not exempt from sweeps. -/
def Mortal (w : World) (m : Nat) : Prop :=
  ∃ x h r, w.members[m]? = some x ∧ x.body = .handle h ∧ h.runner = some r ∧
    r.spec.options.survivor = false

/-- What cancels the handle at the place `m` in the world `w`, which the actions
    `past` have led to. -/
inductive Cause (env : Environment) (past : List Action) (w : World) (m : Nat) :
    Action → Prop where
  /-- a stop that has found the run running -/
  | stop {i : Nat} {k : Call} : w.calls[i]? = some k → k.member = m → k.kind ≠ .wait →
      k.stage = .asking → FoundRunning env past i m → Cause env past w m (.proceed i)
  /-- a sweep that has taken out the entry of the handle -/
  | sweep {k i : Nat} {s : Sweep} {j : Join} : w.sweeps[k]? = some s → s.joins[i]? = some j →
      j.entry.member = m → w.Mortal m → Cause env past w m (.sweepStep k (.cancel i))
  /-- the flag of a sweep, which the registration of the runner has seen -/
  | refused {id : Nat} {x : Member} : w.members[m]? = some x → x.registration = .refused id →
      w.sweeps ≠ [] → w.Mortal m → Cause env past w m (.runner m .proceed)

theorem FoundRunning.mono {bs : List Action} {i : Nat} (hf : FoundRunning env as i m)
    (hab : as <+: bs) : FoundRunning env bs i m := by
  obtain ⟨past, v, k, x, h, ht, hrest⟩ := hf
  exact ⟨past, v, k, x, h, ht.mono hab, hrest⟩

/-! ## Calls -/

/-- A call that has come as far as its stop is no waiting one, and asks for the
    end only of a run that it has found running. -/
structure CallSound (env : Environment) (as : List Action) (i : Nat) (k : Call) : Prop where
  stops : k.stage = .seeking ∨ k.stage = .reading → k.kind ≠ .wait
  found : k.stage = .asking → k.kind ≠ .wait ∧ FoundRunning env as i k.member

/-- A call that is not before its stop, nor in it, is sound. -/
theorem CallSound.of_ne {i : Nat} {k : Call} (hs : k.stage ≠ .seeking) (hr : k.stage ≠ .reading)
    (ha : k.stage ≠ .asking) : CallSound env as i k :=
  ⟨fun h => h.elim (absurd · hs) (absurd · hr), (absurd · ha)⟩

theorem CallSound.leave {i : Nat} (k : Call) : CallSound env as i k.leave := by
  unfold Call.leave
  split
  · exact .of_ne nofun nofun nofun
  · exact .of_ne nofun nofun nofun

/-- **Calls are sound after every run.** -/
theorem callSound_of_run (hw : run env {} as = some w) {i : Nat} {k : Call}
    (hk : w.calls[i]? = some k) : CallSound env as i k := by
  refine run_induction (P := fun as w => ∀ (i : Nat) (k : Call), w.calls[i]? = some k →
    CallSound env as i k) ?_ ?_ hw i k hk
  · intro i k hk
    simp at hk
  · intro as a w w' hw ih ha i k' hk'
    rcases (effect_of_step ha).call_back hk' with ⟨k, hk, hsh⟩ | ⟨-, -, hs⟩
    · have hS := ih i k hk
      cases hsh with
      | same =>
        refine ⟨hS.stops, fun hs => ?_⟩
        obtain ⟨hkind, hfound⟩ := hS.found hs
        exact ⟨hkind, hfound.mono (List.prefix_append _ _)⟩
      | abandon => exact .of_ne nofun nofun nofun
      | proceed hx hb hm =>
        cases hm with
        | enabled _ hkind _ => exact ⟨fun _ => by simp [hkind], nofun⟩
        | begin _ hkind => exact ⟨fun _ => by simp [hkind], nofun⟩
        | found hs _ => exact ⟨fun _ => hS.stops (Or.inl hs), nofun⟩
        | running hs hrun =>
          have hkind := hS.stops (Or.inr hs)
          refine ⟨nofun, fun _ => ⟨hkind, ?_⟩⟩
          exact ⟨as, w, k, _, _, Took.last _ hw, hk, rfl, hkind, hs, hx, hb, hrun⟩
        | idle _ _ => exact .leave k
        | asked _ _ => exact .leave k
        | finished _ _ _ => exact .leave k
        | timeout _ _ _ _ => exact .leave k
        | _ => exact .of_ne nofun nofun nofun
    · exact .of_ne (by rw [hs]; nofun) (by rw [hs]; nofun) (by rw [hs]; nofun)

/-! ## Who is cancelled, and why -/

/-- Only those who are not exempt have a registration that has begun. -/
theorem mortal_of_registration (hw : run env {} as = some w) (hx : w.members[m]? = some x)
    (hb : x.body = .handle h) (hreg : x.registration ≠ .idle) : w.Mortal m := by
  cases hr : h.runner with
  | none => exact absurd ((sound_of_run hw hx h hb).idle hr).1 hreg
  | some r => exact ⟨x, h, r, hx, hb, hr, not_survivor_of_registration hw hx hb hr hreg⟩

/-- **Only a cause cancels a handle.** -/
theorem cause_of_step (hw : run env {} as = some w) (ha : step env w a = some w')
    (hx : w.members[m]? = some x) (hb : x.body = .handle h) (hc : x.cancel = false)
    (hx' : w'.members[m]? = some x') (hc' : x'.cancel = true) : Cause env as w m a := by
  obtain ⟨y, hy, hs⟩ := (effect_of_step ha).shift hx
  rw [hx'] at hy
  cases hy
  have hsame : x'.cancel ≠ x.cancel := by rw [hc, hc']; nofun
  cases hs with
  | same => exact absurd rfl hsame
  | turn ht =>
    cases ht with
    | register n hg _ => rw [hg] at hb; cases hb
    | runner hb' hr hm =>
      cases hm with
      | register n _ hn =>
        have hmove := Registration.move_of_step hn
        have hcancels : n.cancels = true := by
          have : (x.cancel || n.cancels) = true := hc'
          rwa [hc, Bool.false_or] at this
        rw [hcancels] at hmove
        generalize hg : x.registration = g at hmove
        generalize n.registration = g', n.coordinator = c' at hmove
        cases hmove with
        | cancel id =>
          have hL := ledger_of_run hw
          have hup := hL.refused m id (by rw [getElem?_registrations hx, hg])
          exact .refused hx hg (hL.raised.1 hup)
            (mortal_of_registration hw hx hb (by rw [hg]; nofun))
      | _ => exact absurd rfl hsame
    | _ => exact absurd rfl hsame
  | call hk hm hb' hmove =>
    cases hmove with
    | ask hs _ =>
      subst hm
      obtain ⟨hkind, hfound⟩ := (callSound_of_run hw hk).found hs
      exact .stop hk rfl hkind hs hfound
    | _ => exact absurd rfl hsame
  | cancel hs hj hm hd =>
    subst hm
    obtain ⟨y, hy, hent⟩ := exists_member_of_join hw hs hj
    rw [hx] at hy
    cases hy
    refine .sweep hs hj rfl (mortal_of_registration hw hx hb fun hidle => ?_)
    rw [hidle] at hent
    cases hent.id?

/-- A run that a stop has found running is begun for good. -/
theorem FoundRunning.started {i : Nat} (hf : FoundRunning env as i m)
    (hw : run env {} as = some w) :
    ∃ x h r, w.members[m]? = some x ∧ x.body = .handle h ∧ h.runner = some r := by
  obtain ⟨past, v, k, y, h₀, ht, -, -, -, -, hy, hb₀, hst⟩ := hf
  obtain ⟨rest, hrest⟩ := ht.rest hw
  obtain ⟨x, hx, hl⟩ := later_of_run ht.2 hrest hy
  obtain ⟨h, hb, hl⟩ := hl.handle h₀ hb₀
  refine ⟨x, h, ?_⟩
  cases hr : h.runner with
  | some r => exact ⟨r, hx, hb, rfl⟩
  | none =>
    have hle := hl.state
    rw [hst, ((sound_of_run hw hx h hb).idle hr).2] at hle
    exact absurd hle (by decide)

/-- Causes are about handles that were started. -/
theorem Cause.started (hc : Cause env as w m a) (hw : run env {} as = some w) :
    ∃ x h r, w.members[m]? = some x ∧ x.body = .handle h ∧ h.runner = some r := by
  cases hc with
  | stop _ _ _ _ hf => exact hf.started hw
  | sweep _ _ _ hm =>
    obtain ⟨x, h, r, hx, hb, hr, -⟩ := hm
    exact ⟨x, h, r, hx, hb, hr⟩
  | refused _ _ _ hm =>
    obtain ⟨x, h, r, hx, hb, hr, -⟩ := hm
    exact ⟨x, h, r, hx, hb, hr⟩

/-- **Whoever is cancelled was cancelled by a cause.** -/
theorem cause_of_cancelled (hw : run env {} as = some w) (hx : w.members[m]? = some x)
    (hb : x.body = .handle h) (hc : x.cancel = true) :
    ∃ past a v, Took env as past a v ∧ Cause env past v m a := by
  refine run_induction (P := fun as w => ∀ (x : Member) (h : Handle), w.members[m]? = some x →
    x.body = .handle h → x.cancel = true →
      ∃ past a v, Took env as past a v ∧ Cause env past v m a) ?_ ?_ hw x h hx hb hc
  · intro x h hx
    simp at hx
  · intro as a w w' hw ih ha x' h' hx' hb' hc'
    rcases (effect_of_step ha).shift_back hx' with ⟨x, hx, hs⟩ | ⟨-, hnew⟩
    · obtain ⟨h, hb⟩ := hs.handle_back hb'
      cases hc : x.cancel with
      | true =>
        obtain ⟨past, b, v, ht, hcause⟩ := ih x h hx hb hc
        exact ⟨past, b, v, ht.concat, hcause⟩
      | false => exact ⟨as, a, w, Took.last a hw, cause_of_step hw ha hx hb hc hx' hc'⟩
    · rw [hnew.cancel] at hc'
      cases hc'

/-- Before the start nobody is cancelled. -/
theorem not_cancelled_of_notStarted (hw : run env {} as = some w) (hx : w.members[m]? = some x)
    (hb : x.body = .handle h) (hs : h.status.state = .notStarted) : x.cancel = false := by
  by_contra hc
  rw [Bool.not_eq_false] at hc
  obtain ⟨past, b, v, ht, hcause⟩ := cause_of_cancelled hw hx hb hc
  obtain ⟨x₀, h₀, r₀, hx₀, hb₀, hr₀⟩ := hcause.started ht.2
  obtain ⟨r, hr, -⟩ := runner_later ht hw hx₀ hb₀ hr₀ hx hb
  rw [(sound_of_run hw hx h hb).runner_eq_none hs] at hr
  cases hr

/-- One who is exempt is cancelled only by a stop that found it running. -/
theorem not_cancelled_of_survivor (hw : run env {} as = some w) (hx : w.members[m]? = some x)
    (hb : x.body = .handle h) {r : Runner} (hr : h.runner = some r)
    (hsv : r.spec.options.survivor = true) (hn : ∀ i, ¬ FoundRunning env as i m) :
    x.cancel = false := by
  by_contra hc
  rw [Bool.not_eq_false] at hc
  obtain ⟨past, b, v, ht, hcause⟩ := cause_of_cancelled hw hx hb hc
  have hmortal : ¬ v.Mortal m := by
    rintro ⟨x₀, h₀, r₀, hx₀, hb₀, hr₀, hsv₀⟩
    obtain ⟨r₁, hr₁, hl⟩ := runner_later ht hw hx₀ hb₀ hr₀ hx hb
    rw [hr] at hr₁
    cases hr₁
    rw [hl.spec, hsv₀] at hsv
    cases hsv
  cases hcause with
  | stop _ _ _ _ hf => exact hn _ (hf.mono ht.earlier)
  | sweep _ _ _ hm => exact hmortal hm
  | refused _ _ _ hm => exact hmortal hm

/-! ## Who is killed -/

/-- Waiting for the child of the handle `m` has reported neither an exit nor a
    signal. -/
def OddExit (env : Environment) (as : List Action) (m : Nat) : Prop :=
  ∃ past v x h r c, Took env as past (.runner m .exit) v ∧ v.members[m]? = some x ∧
    x.body = .handle h ∧ h.runner = some r ∧ r.child = some c ∧ c.status? v.now = some .neither

/-- The runner of the handle `m` has stopped waiting because it was cancelled. -/
def WasKilled (env : Environment) (as : List Action) (m : Nat) : Prop :=
  ∃ past v x h, Took env as past (.runner m .cancel) v ∧ v.members[m]? = some x ∧
    x.body = .handle h ∧ x.cancel = true

theorem OddExit.concat (ho : OddExit env as m) : OddExit env (as ++ [a]) m := by
  obtain ⟨past, v, x, h, r, c, ht, hrest⟩ := ho
  exact ⟨past, v, x, h, r, c, ht.concat, hrest⟩

theorem WasKilled.concat (hk : WasKilled env as m) : WasKilled env (as ++ [a]) m := by
  obtain ⟨past, v, x, h, ht, hrest⟩ := hk
  exact ⟨past, v, x, h, ht.concat, hrest⟩

/-- **A runner that ends as killed was cancelled while it waited**, or was told
    an odd status. -/
theorem wasKilled_of_run (hw : run env {} as = some w) (hx : w.members[m]? = some x)
    (hb : x.body = .handle h) (hr : h.runner = some r) (hk : r.EndsKilled h) :
    WasKilled env as m ∨ OddExit env as m := by
  refine run_induction (P := fun as w => ∀ x h r, w.members[m]? = some x → x.body = .handle h →
    h.runner = some r → r.EndsKilled h → WasKilled env as m ∨ OddExit env as m)
    ?_ ?_ hw x h r hx hb hr hk
  · intro x h r hx
    simp at hx
  · intro as a w w' hw ih ha x' h' r' hx' hb' hr' hk'
    rcases (effect_of_step ha).shift_back hx' with ⟨x, hx, hs⟩ | ⟨-, hnew⟩
    · rcases hs.endsKilled_back (sound_of_run hw hx) hb' hr' hk' with
        ⟨h, r, hb, hr, hk⟩ | ⟨⟨h, hb⟩, rfl, hc⟩ | ⟨rfl, h, r, c, hb, hr, hch, hst⟩
      · exact (ih x h r hx hb hr hk).imp WasKilled.concat OddExit.concat
      · exact Or.inl ⟨as, w, x, h, Took.last _ hw, hx, hb, hc⟩
      · exact Or.inr ⟨as, w, x, h, r, c, Took.last _ hw, hx, hb, hr, hch, hst⟩
    · rw [(hnew.handle h' hb').2.2.2] at hr'
      cases hr'

/-- Whoever was killed is cancelled. -/
theorem WasKilled.cancelled (hk : WasKilled env as m) (hw : run env {} as = some w)
    (hx : w.members[m]? = some x) : x.cancel = true := by
  obtain ⟨past, v, y, hd, ht, hy, -, hc⟩ := hk
  obtain ⟨rest, hrest⟩ := ht.rest hw
  obtain ⟨y', hy', hl⟩ := later_of_run ht.2 hrest hy
  rw [hx] at hy'
  cases hy'
  exact hl.cancel hc

/-- Whoever was killed stopped waiting for a cause that lay before. -/
theorem WasKilled.cause (hk : WasKilled env as m) :
    ∃ past v, Took env as past (.runner m .cancel) v ∧
      ∃ before a u, Took env past before a u ∧ Cause env before u m a := by
  obtain ⟨past, v, y, hd, ht, hy, hb, hc⟩ := hk
  exact ⟨past, v, ht, cause_of_cancelled ht.2 hy hb hc⟩


/-! ## Stops before the start -/

/-- **A stop that did not find the run running is spent for good.** -/
theorem isSpent_of_reading {i : Nat} {past : List Action} {v : World} {k : Call}
    (hw : run env {} as = some w) (ht : Took env as past (.proceed i) v)
    (hk : v.calls[i]? = some k) (hs : k.stage = .reading) (hx : v.members[k.member]? = some x)
    (hb : x.body = .handle h) (hn : h.status.state ≠ .running) :
    ∃ k', w.calls[i]? = some k' ∧ k'.isSpent = true := by
  obtain ⟨rest, hrest⟩ := ht.rest hw
  obtain ⟨v', ha, hrest⟩ := run_cons.1 hrest
  refine run_induction (P := fun _ w => ∃ k', w.calls[i]? = some k' ∧ k'.isSpent = true)
    ?_ ?_ hrest
  · obtain ⟨k₁, x₁, h₁, s, x', log, hk₁, hx₁, hb₁, hm, rfl⟩ := exists_move_of_proceed ha
    rw [hk] at hk₁
    cases hk₁
    rw [hx] at hx₁
    cases hx₁
    rw [hb] at hb₁
    cases hb₁
    obtain ⟨hlt, -⟩ := List.getElem?_eq_some_iff.1 hk
    refine ⟨k.leave, ?_, k.isSpent_leave⟩
    rw [hm.stage_of_reading hs hn, Call.goto_leave]
    simp [hlt]
  · rintro bs a u u' - ⟨k₁, hk₁, hsp⟩ ha
    obtain ⟨k₂, hk₂, hsh⟩ := (effect_of_step ha).call_shift hk₁
    exact ⟨k₂, hk₂, hsh.isSpent hsp⟩

/-- **Nothing is killed unasked, and those who are exempt are safe from sweeps.**
    A handle that is not started is not cancelled; one that is cancelled stays
    so; and what cancels it is a cause.  So a runner that does not fall, and is
    told of an exit or a signal by its child, records a kill only if it stopped
    waiting for a cause that lay before; one who is exempt does not, unless a
    stop has found it running; and a stop before the start is none. -/
theorem never_killed_unasked (hw : run env {} as = some w) (hx : w.members[m]? = some x)
    (hb : x.body = .handle h) :
    (h.status.state = .notStarted → x.cancel = false) ∧
    (x.cancel = true → ∀ bs w', run env w bs = some w' →
      ∃ x', w'.members[m]? = some x' ∧ x'.cancel = true) ∧
    (∀ a w' x', step env w a = some w' → w'.members[m]? = some x' → x.cancel = false →
      x'.cancel = true → Cause env as w m a) ∧
    (∀ r, h.runner = some r → r.fell = false → ¬ OddExit env as m →
      h.status.outcome = some .killed →
      ∃ past v, Took env as past (.runner m .cancel) v ∧
        ∃ before a u, Took env past before a u ∧ Cause env before u m a) ∧
    (∀ r, h.runner = some r → r.spec.options.survivor = true →
      (∀ i, ¬ FoundRunning env as i m) →
      x.cancel = false ∧
        (r.fell = false → ¬ OddExit env as m → h.status.outcome ≠ some .killed)) ∧
    (∀ past i v k y hd, Took env as past (.proceed i) v → v.calls[i]? = some k →
      k.member = m → k.stage = .reading → v.members[m]? = some y → y.body = .handle hd →
      hd.status.state = .notStarted →
      (∃ k', w.calls[i]? = some k' ∧ k'.isSpent = true) ∧
        ∀ n, ¬ Cause env as w n (.proceed i)) := by
  have hkilled : ∀ r, h.runner = some r → r.fell = false → ¬ OddExit env as m →
      h.status.outcome = some .killed → WasKilled env as m := fun r hr hf hodd ho =>
    (wasKilled_of_run hw hx hb hr ⟨hf, Or.inr ho⟩).resolve_right hodd
  refine ⟨not_cancelled_of_notStarted hw hx hb, fun hc bs w' hbs => ?_, ?_, ?_, ?_, ?_⟩
  · obtain ⟨x', hx', hl⟩ := later_of_run hw hbs hx
    exact ⟨x', hx', hl.cancel hc⟩
  · intro a w' x' ha hx' hc hc'
    exact cause_of_step hw ha hx hb hc hx' hc'
  · intro r hr hf hodd ho
    exact (hkilled r hr hf hodd ho).cause
  · intro r hr hsv hn
    have hc := not_cancelled_of_survivor hw hx hb hr hsv hn
    refine ⟨hc, fun hf hodd ho => ?_⟩
    rw [(hkilled r hr hf hodd ho).cancelled hw hx] at hc
    cases hc
  · rintro past i v k y hd ht hk rfl hs hy hbd hst
    obtain ⟨k', hk', hsp⟩ := isSpent_of_reading hw ht hk hs hy hbd (by rw [hst]; nofun)
    refine ⟨⟨k', hk', hsp⟩, fun n hcause => ?_⟩
    cases hcause with
    | stop hk₁ _ _ hs₁ _ =>
      rw [hk'] at hk₁
      cases hk₁
      simp [Call.isSpent, hs₁] at hsp

/-- Two children are launched, the first of them exempt, and a sweep cancels the
    other. -/
def sweptPair : List Action :=
  [.create ["a"] .storing, .create ["b"] .storing, .configure 0 (.survivor true), .start 0 true,
    .start 1 true, .runner 0 .proceed, .runner 0 .proceed] ++
    List.replicate 5 (.runner 1 .proceed) ++
    [.sweep, .sweepStep 0 .drain, .sweepStep 0 (.cancel 0), .runner 1 .cancel]

/-- The first one is left alone. -/
theorem never_killed_unasked_sweptPair :
    ∃ w x h r, run .silent {} sweptPair = some w ∧ w.members[0]? = some x ∧
      x.body = .handle h ∧ h.runner = some r ∧ r.spec.options.survivor = true ∧
      r.child.isSome ∧ w.sweeps ≠ [] ∧ x.cancel = false ∧
      (r.fell = false → ¬ OddExit .silent sweptPair 0 → h.status.outcome ≠ some .killed) := by
  have hnone : ∀ i, ¬ FoundRunning .silent sweptPair i 0 := by
    rintro i ⟨past, v, k, x, h, ⟨hp, -⟩, -⟩
    have hmem := hp.subset (List.mem_append_right _ (List.mem_singleton_self (Action.proceed i)))
    simp [sweptPair] at hmem
  refine ⟨_, _, _, _, rfl, rfl, rfl, rfl, rfl, rfl, ?swept, ?safe⟩
  case swept => nofun
  case safe =>
    exact (@never_killed_unasked .silent _ sweptPair 0 _ _ rfl rfl rfl).2.2.2.2.1 _ rfl rfl hnone

end World

end Supervisor
