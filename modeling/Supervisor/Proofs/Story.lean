/-
  What is recorded of a run, and what is told at its end.

  * `World.writesBy`: what the sink of a handle received in the actions of a run that
    are picked out, such as those of its pump (`pumped`) and of its runner (`said`);
  * `World.Did`: a moment at which a runner took a step; a runner comes through
    each of its stages once (`Did.unique`);
  * `World.Standing`: what has happened to a run, stage by stage; each action
    keeps it (`chronicle_of_run`);
  * `outcome_is_told`: the outcome that is recorded and the last line that the
    sink received.
-/
import Supervisor.Proofs.Acts
import Supervisor.Proofs.Later

namespace Supervisor

/-! ## What a sink received -/

namespace Action

/-- An event of the pump of the handle at a place. -/
def isOfPump (m : Nat) : Action → Bool
  | pump n _ => n = m
  | _ => false

/-- A step of the runner of the handle at a place. -/
def isOfRunner (m : Nat) : Action → Bool
  | runner n _ => n = m
  | _ => false

end Action

namespace World

variable {env : Environment} {w w' : World} {as bs : List Action} {a : Action} {m : Nat}
  {x x' : Member} {h h' : Handle} {r r' : Runner}

/-- All that the sink of the handle at a place has received. -/
def writesAt (w : World) (m : Nat) : List Write := ((w.handle? m).map (·.sink.writes)).getD []

/-- What the sink of the handle `m` received in those actions of a run that `who`
    picks out. -/
def writesBy (env : Environment) (m : Nat) (who : Action → Bool) :
    World → List Action → List Write
  | _, [] => []
  | w, a :: as =>
    match step env w a with
    | none => []
    | some w' =>
      (if who a then (w'.writesAt m).drop (w.writesAt m).length else []) ++ writesBy env m who w' as

theorem writesBy_concat {who : Action → Bool} {w₀ : World} (hw : run env w₀ as = some w)
    (ha : step env w a = some w') :
    writesBy env m who w₀ (as ++ [a]) = writesBy env m who w₀ as ++
      if who a then (w'.writesAt m).drop (w.writesAt m).length else [] := by
  induction as generalizing w₀ with
  | nil => cases hw; simp [writesBy, ha]
  | cons b as ih =>
    obtain ⟨v, hv, hw⟩ := run_cons.1 hw
    simp only [List.cons_append, writesBy, hv]
    rw [ih hw, List.append_assoc]

/-- What the sink of a handle received from its pump. -/
def pumped (env : Environment) (m : Nat) (as : List Action) : List Write :=
  writesBy env m (Action.isOfPump m) {} as

/-- What the sink of a handle received from its runner. -/
def said (env : Environment) (m : Nat) (as : List Action) : List Write :=
  writesBy env m (Action.isOfRunner m) {} as

theorem writesAt_eq (hx : w.members[m]? = some x) (hb : x.body = .handle h) :
    w.writesAt m = h.sink.writes := by
  simp [writesAt, handle?, hx, Member.handle?, hb]

/-- Only the pump and the runner write. -/
theorem writes_of_others {who : Action → Bool} (hw : run env {} as = some w)
    (ha : step env w a = some w') (hx : w.members[m]? = some x) (hb : x.body = .handle h)
    (hx' : w'.members[m]? = some x') (hb' : x'.body = .handle h') {new : List Write}
    (hs : h'.sink.writes = h.sink.writes ++ new) :
    writesBy env m who {} (as ++ [a]) = writesBy env m who {} as ++ if who a then new else [] := by
  rw [writesBy_concat hw ha, writesAt_eq hx hb, writesAt_eq hx' hb', hs, List.drop_left]

/-! ## Moments of a runner -/

/-- In the world `v` of the run `as`, the runner `r` of the member `x` at the place
    `m` took a step. -/
structure Did (env : Environment) (as : List Action) (m : Nat) (s : RunnerStep) (v : World)
    (x : Member) (r : Runner) : Prop where
  took : ∃ past, Took env as past (.runner m s) v
  member : v.members[m]? = some x
  runner : ∃ h, x.body = .handle h ∧ h.runner = some r

theorem Did.mono {s : RunnerStep} {v : World} (hd : Did env as m s v x r) (hab : as <+: bs) :
    Did env bs m s v x r := by
  obtain ⟨past, ht⟩ := hd.took
  exact ⟨⟨past, ht.mono hab⟩, hd.member, hd.runner⟩

theorem rank_le_of_run (hw : run env {} as = some w) (hw' : run env w bs = some w')
    (hx : w.members[m]? = some x) (hb : x.body = .handle h) (hr : h.runner = some r)
    (hx' : w'.members[m]? = some x') (hb' : x'.body = .handle h') (hr' : h'.runner = some r') :
    r.stage.rank ≤ r'.stage.rank := by
  suffices hs : ∃ x' h' r', w'.members[m]? = some x' ∧ x'.body = .handle h' ∧
      h'.runner = some r' ∧ r.stage.rank ≤ r'.stage.rank by
    obtain ⟨y, k, q, hy, hk, hq, hle⟩ := hs
    rw [hx'] at hy
    cases hy
    rw [hb'] at hk
    cases hk
    rw [hr'] at hq
    cases hq
    exact hle
  refine run_induction (P := fun _ w' => ∃ x' h' r', w'.members[m]? = some x' ∧
    x'.body = .handle h' ∧ h'.runner = some r' ∧ r.stage.rank ≤ r'.stage.rank) ?_ ?_ hw'
  · exact ⟨x, h, r, hx, hb, hr, Nat.le_refl _⟩
  · rintro cs a u u' hu ⟨y, k, q, hy, hk, hq, hle⟩ ha
    have hS := sound_of_run (run_append_eq_some.2 ⟨w, hw, hu⟩) hy
    obtain ⟨y', k', q', hy', hk', hadv⟩ := advance_of_step ha hS hy hk hq
    exact ⟨y', _, q', hy', hk', rfl, Nat.le_trans hle hadv.rank_le⟩

/-- A runner that has taken a step is at a later stage from then on. -/
theorem Did.rank_lt {s : RunnerStep} {u v : World} {past past' : List Action}
    (hp : past ++ [Action.runner m s] <+: past') (ht : run env {} past = some u)
    (ht' : run env {} past' = some v) (hx : u.members[m]? = some x) (hb : x.body = .handle h)
    (hr : h.runner = some r) (hs : r.stage ≠ .registering) (hx' : v.members[m]? = some x')
    (hb' : x'.body = .handle h') (hr' : h'.runner = some r') : r.stage.rank < r'.stage.rank := by
  obtain ⟨rest, rfl⟩ := hp
  obtain ⟨u', hu', hrest⟩ := run_append_eq_some.1 ht'
  obtain ⟨u₀, hu₀, ha⟩ := run_concat.1 hu'
  rw [ht] at hu₀
  cases hu₀
  obtain ⟨n, -, hmem, -, hact⟩ := hasActed_of_step ha hx hb hr
  obtain ⟨k, q, hact, hk⟩ := hact.act
  obtain ⟨hlt, -⟩ := List.getElem?_eq_some_iff.1 hx
  have hn : u'.members[m]? = some n.member := by rw [hmem]; simp [hlt]
  exact Nat.lt_of_lt_of_le (hact.rank_lt hs) (rank_le_of_run hu' hrest hn hk rfl hx' hb' hr')

/-- **A runner comes through each of its stages once**, that of the registration
    apart. -/
theorem Did.unique {s s' : RunnerStep} {u v : World} (hd : Did env as m s u x r)
    (hd' : Did env as m s' v x' r') (hr : r.stage.rank = r'.stage.rank)
    (hs : r.stage ≠ .registering) : u = v ∧ x = x' ∧ r = r' := by
  obtain ⟨⟨past, ht⟩, hx, k, hk, hq⟩ := hd
  obtain ⟨⟨past', ht'⟩, hx', k', hk', hq'⟩ := hd'
  have hs' : r'.stage ≠ .registering := fun h => by
    rw [h] at hr
    exact hs (by cases hst : r.stage <;> simp_all [Stage.rank])
  -- Of two moments one would come first, and leave the runner at a later stage.
  have hpast : past = past' := by
    rcases ht.cases_past ht' with heq | hp | hp
    · exact heq
    · have := Did.rank_lt hp ht.2 ht'.2 hx hk hq hs hx' hk' hq'
      omega
    · have := Did.rank_lt hp ht'.2 ht.2 hx' hk' hq' hs' hx hk hq
      omega
  subst hpast
  obtain rfl : u = v := Option.some.inj (ht.2.symm.trans ht'.2)
  rw [hx] at hx'
  cases hx'
  rw [hk] at hk'
  cases hk'
  rw [hq] at hq'
  cases hq'
  exact ⟨rfl, rfl, rfl⟩

end World

/-! ## What has happened to a run -/

/-- A call on a sink: on which stream, and with what. -/
def Write.call (w : Write) : Stream × Bytes := (w.stream, w.data)

/-- A child is the one that was launched in the world `v` as the process `p`, which
    may come to another end if nobody reads what it writes. -/
structure Child.IsOf (env : Environment) (spec : LaunchSpec) (v : World) (p : Process)
    (c : Child) : Prop where
  pid : c.pid = v.nextPid
  launched : c.launched = v.now
  exit : c.exit = p.exit ∨ ∃ t, c.exit = env.exitUnread spec v.now t

/-- What a runner may make of its child at a time, when it stops waiting. -/
inductive Member.Verdict (x : Member) (c : Child) (now : Nat) : Outcome → Prop where
  | own (st : WaitStatus) : c.status? now = some st → Verdict x c now (.ofStatus st)
  | killed : x.cancel = true → Verdict x c now .killed

/-- The output of a run is over: there is none, or its pump has ended. -/
def Runner.IsDrained (r : Runner) : Prop := ∀ p, r.pump = some p → p.isEnded = true

namespace World

section
variable (env : Environment) (as : List Action) (m : Nat)

/-- The run of a handle was started, when its sink was `k`. -/
def StartedWith (k : Sink) : Prop :=
  ∃ past v x h, Took env as past (.start m true) v ∧ v.members[m]? = some x ∧
    x.body = .handle h ∧ h.status.state = .notStarted ∧ h.sink = k

/-- A runner came to its launch in the world `v`. -/
def LaunchedAt (spec : LaunchSpec) (v : World) : Prop :=
  ∃ x r, Did env as m .proceed v x r ∧ r.stage = .launching ∧ r.spec = spec

/-- The launch failed. -/
def Refused (spec : LaunchSpec) (f : Fault) : Prop :=
  ∃ v, LaunchedAt env as m spec v ∧ env.launch spec v.now = .error f

/-- The child was launched, and is still to be reaped. -/
def Awaits (spec : LaunchSpec) (c : Child) : Prop :=
  ∃ v p, LaunchedAt env as m spec v ∧ env.launch spec v.now = .ok p ∧ c.IsOf env spec v p ∧
    c.reaped = false

/-- A runner stopped waiting for its child `c` in the world `u`, where its member was
    `y`. -/
def Waited (u : World) (y : Member) (c : Child) : Prop :=
  ∃ s q, Did env as m s u y q ∧ q.stage = .waiting ∧ q.child = some c ∧ c.reaped = false

/-- A runner stopped waiting for its child, and made the outcome `o` of it. -/
def Stopped (spec : LaunchSpec) (o : Outcome) : Prop :=
  ∃ u y c, Waited env as m u y c ∧ Awaits env as m spec c ∧ y.Verdict c u.now o

/-- A runner decided what to tell of an outcome. -/
def Resolved (spec : LaunchSpec) (o : Outcome) (line : Option String) : Prop :=
  ∃ u y q, Did env as m .proceed u y q ∧ q.stage = .telling o ∧ q.spec = spec ∧
    q.lastNotice u.coordinator.shuttingDown o = line

/-- What came to the outcome `o`, and was told of it. -/
inductive Tale (r : Runner) : Outcome → Prop where
  | refused (f : Fault) : r.pump = none → Refused env as m r.spec f →
      (said env m as).map Write.call = [lineCall (r.spec.failureLine f)] → Tale r .launchFailed
  | ended (o : Outcome) (line : Option String) : r.IsDrained → Stopped env as m r.spec o →
      Resolved env as m r.spec o line → (said env m as).map Write.call = line.toList.map lineCall →
      Tale r o

/-- What has happened to the run of the handle `h`, by the stage of its runner. -/
def Standing (h : Handle) (r : Runner) : Stage → Prop
  | .created | .registering | .launching => r.pump = none ∧ said env m as = []
  | .failing f => r.pump = none ∧ said env m as = [] ∧ Refused env as m r.spec f
  | .waiting => said env m as = [] ∧ ∃ c, r.child = some c ∧ Awaits env as m r.spec c
  | .ended o | .draining o => said env m as = [] ∧ Stopped env as m r.spec o
  | .telling o => said env m as = [] ∧ r.IsDrained ∧ Stopped env as m r.spec o
  | .noting o line => said env m as = [] ∧ r.IsDrained ∧ Stopped env as m r.spec o ∧
      Resolved env as m r.spec o (some line)
  | .closing o | .leaving o | .disabling o | .detaching o | .recording o => Tale env as m r o
  | .forgetting o | .publishing o => h.status.outcome = some o ∧ Tale env as m r o
  | .gone => ∃ o, h.status.outcome = some o ∧ Tale env as m r o

/-- The writes of a run are those of its pump and then those of its runner, and
    what has happened to it fits its stage. -/
structure Chronicle (h : Handle) (r : Runner) : Prop where
  writes : ∃ k, StartedWith env as m k ∧
    h.sink.writes = k.writes ++ pumped env m as ++ said env m as
  silent : r.pump = none → pumped env m as = []
  standing : Standing env as m h r r.stage

end

variable {env : Environment} {w w' : World} {as bs : List Action} {a : Action} {m : Nat}
  {x x' : Member} {h h' : Handle} {r r' : Runner} {spec : LaunchSpec} {o : Outcome}

theorem StartedWith.concat {k : Sink} (hs : StartedWith env as m k) :
    StartedWith env (as ++ [a]) m k := by
  obtain ⟨past, v, x, h, ht, hrest⟩ := hs
  exact ⟨past, v, x, h, ht.concat, hrest⟩

theorem Did.concat {s : RunnerStep} {v : World} (hd : Did env as m s v x r) :
    Did env (as ++ [a]) m s v x r :=
  hd.mono (List.prefix_append _ _)

theorem LaunchedAt.concat {v : World} (hl : LaunchedAt env as m spec v) :
    LaunchedAt env (as ++ [a]) m spec v := by
  obtain ⟨x, r, hd, hrest⟩ := hl
  exact ⟨x, r, hd.concat, hrest⟩

theorem Refused.concat {f : Fault} (hr : Refused env as m spec f) :
    Refused env (as ++ [a]) m spec f := by
  obtain ⟨v, hl, hf⟩ := hr
  exact ⟨v, hl.concat, hf⟩

theorem Awaits.concat {c : Child} (ha : Awaits env as m spec c) :
    Awaits env (as ++ [a]) m spec c := by
  obtain ⟨v, p, hl, hrest⟩ := ha
  exact ⟨v, p, hl.concat, hrest⟩

theorem Stopped.concat (hs : Stopped env as m spec o) : Stopped env (as ++ [a]) m spec o := by
  obtain ⟨u, y, c, ⟨s, q, hd, hrest⟩, ha, hv⟩ := hs
  exact ⟨u, y, c, ⟨s, q, hd.concat, hrest⟩, ha.concat, hv⟩

theorem Resolved.concat {line : Option String} (hr : Resolved env as m spec o line) :
    Resolved env (as ++ [a]) m spec o line := by
  obtain ⟨u, y, q, hd, hrest⟩ := hr
  exact ⟨u, y, q, hd.concat, hrest⟩

theorem Tale.concat (ht : Tale env as m r o) (hsaid : said env m (as ++ [a]) = said env m as)
    (hs : r'.spec = r.spec) (hp : r'.pump = r.pump) : Tale env (as ++ [a]) m r' o := by
  cases ht with
  | refused f hn hf hc =>
    refine .refused f (hp.trans hn) (by rw [hs]; exact hf.concat) ?_
    rw [hsaid, hs]
    exact hc
  | ended o line hd hst hres hc =>
    exact .ended o line (by rw [Runner.IsDrained, hp]; exact hd) (by rw [hs]; exact hst.concat)
      (by rw [hs]; exact hres.concat) (by rw [hsaid, hc])

theorem Tale.isDrained (ht : Tale env as m r o) : r.IsDrained := by
  cases ht with
  | refused f hn _ _ => exact fun p hp => by rw [hn] at hp; cases hp
  | ended o line hd _ _ _ => exact hd

/-- Before its pump has ended a runner says nothing. -/
theorem Standing.said_eq_nil {t : Stage} (hs : Standing env as m h r t) {p : Pump}
    (hp : r.pump = some p) (he : p.isEnded = false) : said env m as = [] := by
  have hdrained : ¬ r.IsDrained := fun hd => by rw [hd p hp] at he; cases he
  cases t with
  | created => exact hs.2
  | registering => exact hs.2
  | launching => exact hs.2
  | failing f => exact hs.2.1
  | waiting => exact hs.1
  | ended o => exact hs.1
  | draining o => exact hs.1
  | telling o => exact hs.1
  | noting o line => exact hs.1
  | forgetting o => exact absurd hs.2.isDrained hdrained
  | publishing o => exact absurd hs.2.isDrained hdrained
  | gone => obtain ⟨o, -, ht⟩ := hs; exact absurd ht.isDrained hdrained
  | _ => exact absurd (Tale.isDrained hs) hdrained

/-! ## What every action keeps -/

/-- **A step of a runner** adds what it does to what has happened. -/
theorem Standing.act {s : RunnerStep} (hst : Standing env as m h r r.stage)
    (hact : Runner.Act (w.view env m) x h r s h' r')
    (hd : Did env (as ++ [Action.runner m s]) m s w x r) (hS : r.Sound x.registration h)
    (hf : r'.fell = false)
    (hquiet : h'.sink = h.sink → said env m (as ++ [Action.runner m s]) = said env m as)
    (hline : ∀ l, h'.sink = h.sink.notice w.now l →
      (said env m (as ++ [Action.runner m s])).map Write.call =
        (said env m as).map Write.call ++ [lineCall l]) :
    Standing env (as ++ [Action.runner m s]) m h' r' r'.stage := by
  cases hact with
  | begin hs =>
    rw [hs] at hst
    simp only [Runner.goto]
    split
    · exact ⟨hst.1, (hquiet rfl).trans hst.2⟩
    · exact ⟨hst.1, (hquiet rfl).trans hst.2⟩
  | register n hs _ =>
    rw [hs] at hst
    split
    · exact ⟨hst.1, (hquiet rfl).trans hst.2⟩
    · rw [hs]; exact ⟨hst.1, (hquiet rfl).trans hst.2⟩
  | launch p hs hp =>
    rw [hs] at hst
    refine ⟨(hquiet rfl).trans hst.2, _, rfl, w, p, ⟨x, r, hd, hs, rfl⟩, hp, ?_, rfl⟩
    exact ⟨rfl, rfl, Or.inl rfl⟩
  | refuse f hs hfail =>
    rw [hs] at hst
    exact ⟨hst.1, (hquiet rfl).trans hst.2, w, ⟨x, r, hd, hs, rfl⟩, hfail⟩
  | exit c st hs hc hstat =>
    rw [hs] at hst
    obtain ⟨hsaid, c₀, hc₀, hA⟩ := hst
    rw [hc] at hc₀
    cases hc₀
    obtain ⟨-, -, -, -, -, hre⟩ := id hA
    exact ⟨(hquiet rfl).trans hsaid, w, x, c, ⟨.exit, r, hd, hs, hc, hre⟩, hA.concat,
      .own st hstat⟩
  | cancel hs hcancel =>
    rw [hs] at hst
    obtain ⟨hsaid, c, hc, hA⟩ := hst
    obtain ⟨-, -, -, -, -, hre⟩ := id hA
    exact ⟨(hquiet rfl).trans hsaid, w, x, c, ⟨.cancel, r, hd, hs, hc, hre⟩, hA.concat,
      .killed hcancel⟩
  | drain o hs =>
    rw [hs] at hst
    exact ⟨(hquiet rfl).trans hst.1, hst.2.concat⟩
  | drained o p hs hp he =>
    rw [hs] at hst
    refine ⟨(hquiet rfl).trans hst.1, fun q hq => ?_, hst.2.concat⟩
    rw [show r.pump = some q from hq] at hp
    cases hp
    exact he
  | resolve o line hs hl =>
    rw [hs] at hst
    exact ⟨(hquiet rfl).trans hst.1, hst.2.1, hst.2.2.concat, w, x, r, hd, hs, rfl, hl⟩
  | silent o hs hl =>
    rw [hs] at hst
    refine Tale.ended o none hst.2.1 hst.2.2.concat ⟨w, x, r, hd, hs, rfl, hl⟩ ?_
    rw [hquiet rfl, hst.1]
    rfl
  | tellFailure f hs _ =>
    rw [hs] at hst
    refine Tale.refused f hst.1 hst.2.2.concat ?_
    rw [hline _ rfl, hst.2.1, Runner.launchNotice_eq]
    rfl
  | tellEnd o line hs _ =>
    rw [hs] at hst
    refine Tale.ended o (some line) hst.2.1 hst.2.2.1.concat hst.2.2.2.concat ?_
    rw [hline _ rfl, hst.1]
    rfl
  | fall line _ _ => cases hf
  | close o hs => rw [hs] at hst; exact Tale.concat hst (hquiet rfl) rfl rfl
  | leave o hs =>
    rw [hs] at hst
    simp only [Runner.goto]
    split
    · exact Tale.concat hst (hquiet rfl) rfl rfl
    · exact Tale.concat hst (hquiet rfl) rfl rfl
  | disable o hs => rw [hs] at hst; exact Tale.concat hst (hquiet rfl) rfl rfl
  | detach o hs => rw [hs] at hst; exact Tale.concat hst (hquiet rfl) rfl rfl
  | record o hs =>
    have hnone : h.status.outcome = none := by
      have := hS.recorded
      rw [hs] at this
      simpa [Stage.hasRecorded] using this
    rw [hs] at hst
    refine ⟨?_, Tale.concat hst (hquiet rfl) rfl rfl⟩
    simp [RunStatus.storeOutcome, hnone]
  | forget o hs =>
    rw [hs] at hst
    exact ⟨hst.1, hst.2.concat (hquiet rfl) rfl rfl⟩
  | publish o hs =>
    rw [hs] at hst
    exact ⟨o, (h.status.advance_outcome _).trans hst.1, hst.2.concat (hquiet rfl) rfl rfl⟩

/-- **An event of the pump** comes before the runner has said anything. -/
theorem Standing.pump {t : Stage} {p p' : Pump} {c' : Option Child}
    (hst : Standing env as m h r t) (hp : r.pump = some p) (he : p.isEnded = false)
    (hsaid : said env m (as ++ [a]) = said env m as) (k : Sink)
    (hc : c' = r.child ∨ ∃ t, c' = r.child.map fun c =>
      { c with exit := env.exitUnread r.spec c.launched t }) :
    Standing env (as ++ [a]) m { h with sink := k } { r with pump := some p', child := c' } t := by
  have hdrained : ¬ r.IsDrained := fun hd => by rw [hd p hp] at he; cases he
  have hpump : r.pump ≠ none := by rw [hp]; nofun
  cases t with
  | waiting =>
    obtain ⟨hs, c, hch, v, q, hl, hq, hof, hre⟩ := hst
    refine ⟨hsaid.trans hs, ?_⟩
    rcases hc with rfl | ⟨t, rfl⟩
    · exact ⟨c, hch, v, q, hl.concat, hq, hof, hre⟩
    · refine ⟨{ c with exit := env.exitUnread r.spec c.launched t }, by rw [hch]; rfl, v, q,
        hl.concat, hq, ?_, hre⟩
      exact ⟨hof.pid, hof.launched, Or.inr ⟨t, by rw [hof.launched]⟩⟩
  | ended o => exact ⟨hsaid.trans hst.1, hst.2.concat⟩
  | draining o => exact ⟨hsaid.trans hst.1, hst.2.concat⟩
  | created => exact absurd hst.1 hpump
  | registering => exact absurd hst.1 hpump
  | launching => exact absurd hst.1 hpump
  | failing f => exact absurd hst.1 hpump
  | telling o => exact absurd hst.2.1 hdrained
  | noting o line => exact absurd hst.2.1 hdrained
  | forgetting o => exact absurd hst.2.isDrained hdrained
  | publishing o => exact absurd hst.2.isDrained hdrained
  | gone => obtain ⟨o, -, ht⟩ := hst; exact absurd ht.isDrained hdrained
  | _ => exact absurd (Tale.isDrained hst) hdrained

/-- Whatever else happens leaves a run as it is. -/
theorem Standing.idle {t : Stage} (hst : Standing env as m h r t)
    (hsaid : said env m (as ++ [a]) = said env m as) (ho : h'.status = h.status) :
    Standing env (as ++ [a]) m h' r t := by
  cases t with
  | created => exact ⟨hst.1, hsaid.trans hst.2⟩
  | registering => exact ⟨hst.1, hsaid.trans hst.2⟩
  | launching => exact ⟨hst.1, hsaid.trans hst.2⟩
  | failing f => exact ⟨hst.1, hsaid.trans hst.2.1, hst.2.2.concat⟩
  | waiting =>
    obtain ⟨hs, c, hc, hA⟩ := hst
    exact ⟨hsaid.trans hs, c, hc, hA.concat⟩
  | ended o => exact ⟨hsaid.trans hst.1, hst.2.concat⟩
  | draining o => exact ⟨hsaid.trans hst.1, hst.2.concat⟩
  | telling o => exact ⟨hsaid.trans hst.1, hst.2.1, hst.2.2.concat⟩
  | noting o line => exact ⟨hsaid.trans hst.1, hst.2.1, hst.2.2.1.concat, hst.2.2.2.concat⟩
  | forgetting o => exact ⟨by rw [ho]; exact hst.1, hst.2.concat hsaid rfl rfl⟩
  | publishing o => exact ⟨by rw [ho]; exact hst.1, hst.2.concat hsaid rfl rfl⟩
  | gone =>
    obtain ⟨o, hout, ht⟩ := hst
    exact ⟨o, by rw [ho]; exact hout, ht.concat hsaid rfl rfl⟩
  | _ => exact Tale.concat hst hsaid rfl rfl

/-- An event of a pump may add to what the sink received. -/
theorem exists_writes_of_turn {now : Nat} {p p' : Pump} {k k' : Sink} {e : PumpEvent}
    (ht : Pump.Turn now p k e p' k') : ∃ new, k'.writes = k.writes ++ new := by
  cases ht with
  | fail s f _ _ _ _ _ _ => exact ⟨_, Sink.writes_write _ _ _ _⟩
  | failFatal s f _ _ _ _ _ _ => exact ⟨_, Sink.writes_write _ _ _ _⟩
  | take s _ _ _ _ _ => exact ⟨_, Sink.writes_write _ _ _ _⟩
  | takeFatal s _ _ _ _ _ => exact ⟨_, Sink.writes_write _ _ _ _⟩
  | _ => exact ⟨[], by simp⟩

theorem Chronicle.act {s : RunnerStep} (hC : Chronicle env as m h r)
    (hw : run env {} as = some w) (ha : step env w (.runner m s) = some w')
    (hx : w.members[m]? = some x) (hb : x.body = .handle h) (hr : h.runner = some r)
    (hS : r.Sound x.registration h) (hact : Runner.Act (w.view env m) x h r s h' r')
    (hx' : w'.members[m]? = some x') (hb' : x'.body = .handle { h' with runner := some r' })
    (hf : r'.fell = false) : Chronicle env (as ++ [Action.runner m s]) m h' r' := by
  have hwrites : ∀ who new, h'.sink.writes = h.sink.writes ++ new →
      writesBy env m who {} (as ++ [Action.runner m s]) =
        writesBy env m who {} as ++ if who (.runner m s) then new else [] := fun who new hs =>
    writes_of_others hw ha hx hb hx' hb' hs
  have hpumped : pumped env m (as ++ [Action.runner m s]) = pumped env m as := by
    rw [pumped, writesBy_concat hw ha]
    simp [Action.isOfPump, pumped]
  have hsaid : ∀ new, h'.sink.writes = h.sink.writes ++ new →
      said env m (as ++ [Action.runner m s]) = said env m as ++ new := fun new hs => by
    rw [said, hwrites _ _ hs]
    simp [Action.isOfRunner, said]
  have hquiet : h'.sink = h.sink →
      said env m (as ++ [Action.runner m s]) = said env m as := fun hs => by
    rw [hsaid [] (by rw [hs, List.append_nil]), List.append_nil]
  obtain ⟨k, hk, hwr⟩ := hC.writes
  have hline : ∀ l, h'.sink = h.sink.notice w.now l →
      h'.sink.writes = h.sink.writes ++ [⟨w.now, .err, Sink.lineBytes l, h.sink.verdict .err⟩] :=
    fun l hl => by rw [hl]; exact Sink.writes_write _ _ _ _
  refine ⟨⟨k, hk.concat, ?_⟩, fun hp => ?_, hC.standing.act hact ?_ hS hf hquiet fun l hl => ?_⟩
  · rcases hact.sink with hs | ⟨l, hl⟩
    · rw [hquiet hs, hpumped, hs, hwr]
    · rw [hsaid _ (hline l hl), hpumped, hline l hl, hwr, List.append_assoc]
  · rw [hpumped, hC.silent (hact.pump_eq_none hp)]
  · exact ⟨⟨as, Took.last _ hw⟩, hx, h, hb, hr⟩
  · rw [hsaid _ (hline l hl), List.map_append, Sink.lineBytes_eq]
    rfl

theorem Chronicle.pump {e : PumpEvent} {p p' : Pump} {k' : Sink} (hC : Chronicle env as m h r)
    (hw : run env {} as = some w) (ha : step env w (.pump m e) = some w')
    (hx : w.members[m]? = some x) (hb : x.body = .handle h) (hp : r.pump = some p)
    (ht : Pump.Turn w.now p h.sink e p' k') (hx' : w'.members[m]? = some x')
    (hb' : x'.body = .handle { h with
      sink := k'
      runner := some { r with pump := some p', child := r.childAfter (w.view env m) p' } }) :
    Chronicle env (as ++ [Action.pump m e]) m { h with sink := k' }
      { r with pump := some p', child := r.childAfter (w.view env m) p' } := by
  obtain ⟨new, hnew⟩ := exists_writes_of_turn ht
  have hsaid : said env m (as ++ [Action.pump m e]) = said env m as := by
    rw [said, writesBy_concat hw ha]
    simp [Action.isOfRunner, said]
  have hpumped : pumped env m (as ++ [Action.pump m e]) = pumped env m as ++ new := by
    rw [pumped, writes_of_others hw ha hx hb hx' hb' hnew]
    simp [Action.isOfPump, pumped]
  have hnil := hC.standing.said_eq_nil hp ht.not_ended
  obtain ⟨k, hk, hwr⟩ := hC.writes
  refine ⟨⟨k, hk.concat, ?_⟩, nofun, hC.standing.pump hp ht.not_ended hsaid k' ?_⟩
  · rw [hsaid, hpumped, hnil, List.append_nil, hnew, hwr, hnil, List.append_nil, List.append_assoc]
  · unfold Runner.childAfter
    split
    · exact Or.inr ⟨w.now, rfl⟩
    · exact Or.inl rfl

theorem Chronicle.idle (hC : Chronicle env as m h r) (hw : run env {} as = some w)
    (ha : step env w a = some w') (hx : w.members[m]? = some x) (hb : x.body = .handle h)
    (hx' : w'.members[m]? = some x') (hb' : x'.body = .handle { h' with runner := some r })
    (hs : h'.sink = h.sink) (ho : h'.status = h.status) : Chronicle env (as ++ [a]) m h' r := by
  have hsame : ∀ who, writesBy env m who {} (as ++ [a]) = writesBy env m who {} as := fun who => by
    have hnone : h'.sink.writes = h.sink.writes ++ [] := by rw [hs, List.append_nil]
    rw [writes_of_others hw ha hx hb hx' hb' hnone]
    simp
  obtain ⟨k, hk, hwr⟩ := hC.writes
  refine ⟨⟨k, hk.concat, ?_⟩, fun hp => ?_, hC.standing.idle (hsame _) ho⟩
  · rw [hs, hwr]
    simp only [pumped, said, hsame]
  · rw [pumped, hsame]
    exact hC.silent hp

/-- A run that has not begun now had not begun before. -/
theorem runner_none_back (hw : run env {} as = some w) (ha : step env w a = some w')
    (hn : ∀ x h, w'.members[m]? = some x → x.body = .handle h → h.runner = none)
    (hx : w.members[m]? = some x) (hb : x.body = .handle h) : h.runner = none := by
  cases hr : h.runner with
  | none => rfl
  | some r =>
    obtain ⟨x', h', r', hx', hb', -⟩ := advance_of_step ha (sound_of_run hw hx) hx hb hr
    exact absurd (hn x' _ hx' hb') nofun

/-- Before the start neither the pump nor the runner of a handle has written. -/
theorem writesBy_eq_nil (hw : run env {} as = some w)
    (hn : ∀ x h, w.members[m]? = some x → x.body = .handle h → h.runner = none) :
    pumped env m as = [] ∧ said env m as = [] := by
  refine run_induction (P := fun as w =>
    (∀ x h, w.members[m]? = some x → x.body = .handle h → h.runner = none) →
      pumped env m as = [] ∧ said env m as = []) (fun _ => ⟨rfl, rfl⟩) ?_ hw hn
  intro as a w w' hw ih ha hn
  have hn₀ : ∀ x h, w.members[m]? = some x → x.body = .handle h → h.runner = none := fun x h =>
    runner_none_back hw ha hn
  obtain ⟨hp, hs⟩ := ih hn₀
  -- A pump or a runner that went on would be there still.
  have hothers : a.isOfPump m = false ∧ a.isOfRunner m = false := by
    cases a with
    | pump n e =>
      refine ⟨decide_eq_false fun hnm => ?_, rfl⟩
      subst hnm
      simp only [step, pumpStep, Option.bind_eq_bind, Option.bind_eq_some_iff] at ha
      obtain ⟨x, hx, h, hb, r, hr, -⟩ := ha
      rw [hn₀ x h hx (handle?_eq_some.1 hb)] at hr
      cases hr
    | runner n s =>
      refine ⟨rfl, decide_eq_false fun hnm => ?_⟩
      subst hnm
      simp only [step, runnerStep, Option.bind_eq_bind, Option.bind_eq_some_iff] at ha
      obtain ⟨x, hx, h, hb, r, hr, -⟩ := ha
      rw [hn₀ x h hx (handle?_eq_some.1 hb)] at hr
      cases hr
    | _ => exact ⟨rfl, rfl⟩
  rw [pumped, said, writesBy_concat hw ha, writesBy_concat hw ha, hothers.1, hothers.2]
  simp only [Bool.false_eq_true, if_false, List.append_nil]
  exact ⟨hp, hs⟩

/-- A run begins with its start. -/
theorem start_of_runner (hs : Shift env w m x a x') (hb : x.body = .handle h)
    (hn : h.runner = none) (hb' : x'.body = .handle h') (hr' : h'.runner = some r') :
    a = .start m true ∧ h.status.state = .notStarted ∧
      h' = { h with status := h.status.advance .running, runner := some r' } ∧
      r' = { spec := h.spec, controlled := h.control.isSome } := by
  have hsame : ∀ k, x'.body = .handle k → k.runner = h.runner → False := fun k hk hrun => by
    rw [hb'] at hk
    cases hk
    rw [hr', hn] at hrun
    cases hrun
  cases hs with
  | same => exact (hsame h hb rfl).elim
  | turn ht =>
    cases ht with
    | start hk hst =>
      rw [hk] at hb
      cases hb
      cases hb'
      cases hr'
      exact ⟨rfl, hst, rfl, rfl⟩
    | guest _ _ => cases hb'
    | register _ hg _ => rw [hg] at hb; cases hb
    | configure _ hk _ => rw [hk] at hb; cases hb; exact (hsame _ rfl rfl).elim
    | createControl _ hk _ => rw [hk] at hb; cases hb; exact (hsame _ rfl rfl).elim
    | copies _ hk => rw [hk] at hb; cases hb; exact (hsame _ rfl rfl).elim
    | runner hk hr _ => rw [hk] at hb; cases hb; rw [hn] at hr; cases hr
    | pump _ hk hr _ _ => rw [hk] at hb; cases hb; rw [hn] at hr; cases hr
  | call _ _ hk hm =>
    cases hm with
    | disable _ => rw [hk] at hb; cases hb; exact (hsame _ rfl rfl).elim
    | _ => exact (hsame h hb rfl).elim
  | cancel _ _ _ _ => exact (hsame h hb rfl).elim

theorem Chronicle.start (hw : run env {} as = some w) (ha : step env w a = some w')
    (hx : w.members[m]? = some x) (hb : x.body = .handle h) (hn : h.runner = none)
    (hs : Shift env w m x a x') (hb' : x'.body = .handle h') (hr' : h'.runner = some r') :
    Chronicle env (as ++ [a]) m h' r' := by
  obtain ⟨rfl, hst, rfl, rfl⟩ := start_of_runner hs hb hn hb' hr'
  obtain ⟨hp, hsd⟩ := writesBy_eq_nil (m := m) hw fun y k hy hk => by
    rw [hx] at hy
    cases hy
    rw [hb] at hk
    cases hk
    exact hn
  have hsame : pumped env m (as ++ [Action.start m true]) = [] ∧
      said env m (as ++ [Action.start m true]) = [] := by
    rw [pumped, said, writesBy_concat hw ha, writesBy_concat hw ha, ← pumped, ← said, hp, hsd]
    exact ⟨rfl, rfl⟩
  refine ⟨⟨h.sink, ⟨as, w, x, h, Took.last _ hw, hx, hb, hst, rfl⟩, ?_⟩, fun _ => hsame.1, ?_⟩
  · rw [hsame.1, hsame.2, List.append_nil, List.append_nil]
  · exact ⟨rfl, hsame.2⟩

/-- **What has happened to a run fits its stage**, after every run whose sink did not
    bring the runner down. -/
theorem chronicle_of_run (hw : run env {} as = some w) (hx : w.members[m]? = some x)
    (hb : x.body = .handle h) (hr : h.runner = some r) (hf : r.fell = false) :
    Chronicle env as m h r := by
  refine run_induction (P := fun as w => ∀ x h r, w.members[m]? = some x → x.body = .handle h →
    h.runner = some r → r.fell = false → Chronicle env as m h r) ?_ ?_ hw x h r hx hb hr hf
  · intro x h r hx
    simp at hx
  · intro as a w w' hw ih ha x' h' r' hx' hb' hr' hf'
    rcases (effect_of_step ha).shift_back hx' with ⟨x, hx, hs⟩ | ⟨-, hnew⟩
    · obtain ⟨h, hb⟩ := hs.handle_back hb'
      have hS := sound_of_run hw hx
      cases hr : h.runner with
      | none => exact .start hw ha hx hb hr hs hb' hr'
      | some r =>
        have hf : r.fell = false := by
          obtain ⟨k, hk, hl⟩ := (hs.later hS).handle h hb
          rw [hb'] at hk
          cases hk
          obtain ⟨q, hq, hl⟩ := hl.runner r hr
          rw [hr'] at hq
          cases hq
          cases hfell : r.fell with
          | false => rfl
          | true => rw [hl.fell hfell] at hf'; cases hf'
        have hC := ih x h r hx hb hr hf
        obtain ⟨y, k, q, hy, hk, hadv⟩ := advance_of_step ha hS hx hb hr
        rw [hx'] at hy
        cases hy
        rw [hb'] at hk
        cases hk
        cases hr'
        cases hadv with
        | act hact =>
          have hC' := hC.act hw ha hx hb hr ((hS h hb).run r hr) hact hx' hb' hf'
          exact ⟨hC'.writes, hC'.silent, hC'.standing⟩
        | pump hp ht =>
          have hC' := hC.pump hw ha hx hb hp ht hx' hb'
          exact ⟨hC'.writes, hC'.silent, hC'.standing⟩
        | idle hsink ho =>
          have hC' := hC.idle hw ha hx hb hx' hb' hsink ho
          exact ⟨hC'.writes, hC'.silent, hC'.standing⟩
    · rw [(hnew.handle h' hb').2.2.2] at hr'
      cases hr'

/-! ## The story of a run -/

/-- Texts that are the same begin with the same. -/
theorem head?_eq_of_append_eq {a b c d : String} (h : a ++ b = c ++ d) (ha : a.toList ≠ [])
    (hc : c.toList ≠ []) : a.toList.head? = c.toList.head? := by
  have hl := congrArg (fun s : String => s.toList.head?) h
  simp only [String.toList_append, List.head?_append] at hl
  cases hla : a.toList with
  | nil => exact absurd hla ha
  | cons y ys =>
    cases hlc : c.toList with
    | nil => exact absurd hlc hc
    | cons z zs => simpa [hla, hlc] using hl

theorem process_ne_failureLine (spec : LaunchSpec) (f : Fault) (t : String) :
    "process " ++ t ≠ spec.failureLine f := by
  intro h
  unfold LaunchSpec.failureLine at h
  simp only [String.append_assoc] at h
  exact absurd (head?_eq_of_append_eq h (by decide) (by decide)) (by decide)

theorem text_ne_killed (ho : o.isForced = false) : o.text ≠ "killed" := by
  intro h
  have hk : o.text = "killed" ++ "" := h
  cases o with
  | exited code => exact absurd (head?_eq_of_append_eq hk (by decide) (by decide)) (by decide)
  | signaled signal => exact absurd (head?_eq_of_append_eq hk (by decide) (by decide)) (by decide)
  | killed => cases ho
  | launchFailed => exact absurd h (by decide)

theorem process_text_ne_killed (ho : o.isForced = false) :
    "process " ++ o.text ≠ "process killed" := by
  intro h
  have hk : "process " ++ o.text = "process " ++ "killed" := h
  exact text_ne_killed ho ((String.append_right_inj _).1 hk)

/-- What the last line of a run that was launched says. -/
theorem lastNotice_cases (r : Runner) (b : Bool) (o : Outcome) :
    (r.lastNotice b o = some "process killed" ↔ o.isForced = true ∧ b = false) ∧
      (o.isForced = false →
        (r.lastNotice b o = some ("process " ++ o.text) ↔ r.spec.options.showExitCode = true)) ∧
      ∀ l, r.lastNotice b o = some l → l = "process killed" ∨ l = "process " ++ o.text := by
  unfold Runner.lastNotice
  cases ho : o.isForced with
  | true =>
    refine ⟨?_, nofun, fun l hl => ?_⟩
    · cases b <;> simp
    · cases b with
      | true => simp at hl
      | false => exact Or.inl (by simpa using hl.symm)
  | false =>
    have hne := process_text_ne_killed ho
    cases hshow : r.spec.options.showExitCode with
    | true =>
      refine ⟨⟨fun hl => absurd (Option.some.inj hl) hne, nofun⟩, fun _ => ?_,
        fun l hl => Or.inr ?_⟩
      · simp
      · simpa using hl.symm
    | false => exact ⟨by simp, fun _ => by simp, fun l hl => by simp at hl⟩

/-- What a runner made of its child, by whether it was cancelled and whether the
    child had ended. -/
theorem verdict_cases {y : Member} {c : Child} {now : Nat} (hv : y.Verdict c now o) :
    (y.cancel = false → ∃ st, c.status? now = some st ∧ o = .ofStatus st) ∧
      (y.cancel = true → c.status? now = none → o = .killed) ∧
      (y.cancel = true → ∀ st, c.status? now = some st → o = .killed ∨ o = .ofStatus st) := by
  cases hv with
  | own st hst =>
    refine ⟨fun _ => ⟨st, hst, rfl⟩, fun _ hn => ?_, fun _ st' hst' => Or.inr ?_⟩
    · rw [hst] at hn; cases hn
    · rw [hst] at hst'; cases hst'; rfl
  | killed hc =>
    refine ⟨fun hn => ?_, fun _ _ => rfl, fun _ _ _ => Or.inl rfl⟩
    rw [hc] at hn; cases hn

theorem Stopped.ne_launchFailed (hs : Stopped env as m spec o) : o ≠ .launchFailed := by
  obtain ⟨u, y, c, -, -, hv⟩ := hs
  cases hv with
  | own st _ => cases st <;> nofun
  | killed _ => nofun

/-- **The outcome that is recorded and the last line tell the same.**  Of a run that has
    ended, and whose runner was not brought down by its sink: the outcome is a failed
    launch if and only if the launch failed, and otherwise it is what the runner
    saw when it stopped waiting.  The sink received what the pump wrote, then the bytes of at
    most one line, which is the last: the failure of the launch and nothing else, the
    kill unless a sweep was going on when the runner looked, or the outcome of a child
    that ended by itself, if that was asked for. -/
theorem outcome_is_told (hw : run env {} as = some w) (hx : w.members[m]? = some x)
    (hb : x.body = .handle h) (hr : h.runner = some r) (hs : h.status.state = .finished)
    (hf : r.fell = false) :
    ∃ o line k v, h.status.outcome = some o ∧ LaunchedAt env as m r.spec v ∧
      (o = .launchFailed ↔ ∃ f, env.launch r.spec v.now = .error f) ∧
      (∀ p, env.launch r.spec v.now = .ok p → ∃ u y c, Waited env as m u y c ∧
        c.IsOf env r.spec v p ∧
        (y.cancel = false → ∃ st, c.status? u.now = some st ∧ o = .ofStatus st) ∧
        (y.cancel = true → c.status? u.now = none → o = .killed) ∧
        (y.cancel = true → ∀ st, c.status? u.now = some st → o = .killed ∨ o = .ofStatus st)) ∧
      StartedWith env as m k ∧
      h.sink.writes = k.writes ++ pumped env m as ++ said env m as ∧
      (said env m as).map Write.call = line.toList.map lineCall ∧
      (∀ f, env.launch r.spec v.now = .error f →
        line = some (r.spec.failureLine f) ∧ pumped env m as = []) ∧
      ((∃ f, line = some (r.spec.failureLine f)) ↔ o = .launchFailed) ∧
      (line = some "process killed" ↔ o.isForced = true ∧ ∃ u y q, Did env as m .proceed u y q ∧
        q.stage = .telling o ∧ u.coordinator.shuttingDown = false) ∧
      (o.isForced = false ∧ line = some ("process " ++ o.text) ↔
        ((∃ code, o = .exited code) ∨ ∃ signal, o = .signaled signal) ∧
          r.spec.options.showExitCode = true) ∧
      ∀ l, line = some l →
        (∃ f, l = r.spec.failureLine f) ∨ l = "process killed" ∨ l = "process " ++ o.text := by
  have hC := chronicle_of_run hw hx hb hr hf
  obtain ⟨k, hk, hwrites⟩ := hC.writes
  have hgone : r.stage = .gone := ((sound_of_run hw hx h hb).run r hr).finished_iff.1 hs
  have hstand := hC.standing
  rw [hgone] at hstand
  obtain ⟨o, hout, htale⟩ := hstand
  cases htale with
  | refused f hp hfail hsaid =>
    obtain ⟨v, hl, hlf⟩ := hfail
    refine ⟨.launchFailed, some (r.spec.failureLine f), k, v, hout, hl,
      ⟨fun _ => ⟨f, hlf⟩, fun _ => rfl⟩, fun p hok => ?_, hk, hwrites, hsaid,
      fun f' hlf' => ⟨?_, hC.silent hp⟩,
      ⟨fun _ => rfl, fun _ => ⟨f, rfl⟩⟩, ⟨fun hline => ?_, fun hforced => ?_⟩,
      ⟨fun hline => ?_, fun hown => ?_⟩, fun l hline => ?_⟩
    · rw [hlf] at hok; cases hok
    · rw [hlf] at hlf'; cases hlf'; rfl
    · exact absurd (Option.some.inj hline).symm (process_ne_failureLine r.spec f "killed")
    · cases hforced.1
    · exact absurd (Option.some.inj hline.2).symm (process_ne_failureLine r.spec f _)
    · rcases hown.1 with ⟨c, hc⟩ | ⟨c, hc⟩ <;> cases hc
    · exact Or.inl ⟨f, (Option.some.inj hline).symm⟩
  | ended o line hd hstop hres hsaid =>
    have hne := hstop.ne_launchFailed
    obtain ⟨u, y, c, hwait, ⟨v, p, hl, hp, hof, -⟩, hv⟩ := hstop
    obtain ⟨u', y', q, hdid, hq, hspec, hnote⟩ := hres
    obtain ⟨hkilled, hown, hlines⟩ := lastNotice_cases q u'.coordinator.shuttingDown o
    rw [hnote] at hkilled hown hlines
    have hnotFailed : ∀ f, line ≠ some (r.spec.failureLine f) := fun f hl => by
      rcases hlines _ hl with hl | hl
      · exact process_ne_failureLine r.spec f "killed" hl.symm
      · exact process_ne_failureLine r.spec f _ hl.symm
    have hok : ∀ f, env.launch r.spec v.now ≠ .error f := fun f hlf => by rw [hp] at hlf; cases hlf
    refine ⟨o, line, k, v, hout, hl, ⟨fun ho => absurd ho hne, fun ⟨f, hlf⟩ => absurd hlf (hok f)⟩,
      fun p' hp' => ⟨u, y, c, hwait, ?_, verdict_cases hv⟩, hk, hwrites, hsaid,
      fun f hlf => absurd hlf (hok f),
      ⟨fun ⟨f, hl⟩ => absurd hl (hnotFailed f), fun ho => absurd ho hne⟩,
      ⟨fun hl => ?_, fun ⟨hforced, u₁, y₁, q₁, hdid₁, hq₁, hdown⟩ => ?_⟩,
      ⟨fun ⟨hforced, hl⟩ => ⟨?_, ?_⟩, fun ⟨hends, hshow⟩ => ?_⟩, fun l hl => Or.inr (hlines l hl)⟩
    · rw [hp] at hp'; cases hp'; exact hof
    · exact ⟨(hkilled.1 hl).1, u', y', q, hdid, hq, (hkilled.1 hl).2⟩
    · obtain ⟨rfl, -, -⟩ := hdid.unique hdid₁ (by rw [hq, hq₁]) (by rw [hq]; nofun)
      exact hkilled.2 ⟨hforced, hdown⟩
    · cases o with
      | exited code => exact Or.inl ⟨code, rfl⟩
      | signaled signal => exact Or.inr ⟨signal, rfl⟩
      | killed => cases hforced
      | launchFailed => exact absurd rfl hne
    · rw [← hspec]; exact (hown hforced).1 hl
    · have hforced : o.isForced = false := by rcases hends with ⟨c, rfl⟩ | ⟨c, rfl⟩ <;> rfl
      exact ⟨hforced, (hown hforced).2 (by rw [hspec]; exact hshow)⟩

end World

/-- A host on which every child writes two bytes after 1 ms, and exits with code 3
    after 2. -/
def Environment.talking : Environment where
  launch := fun _ now => .ok {
    output := ⟨{ arrivals := [⟨now + 1, .data [104, 105], none⟩], ownHold := some (now + 2) },
      { arrivals := [], ownHold := some (now + 2) }⟩
    exit := some (now + 2, .exited 3) }
  exitUnread := fun _ _ _ => none

namespace World

/-- A run that is to tell its outcome, and is cancelled when its child has exited: the
    runner sees the exit first. -/
def lateStop : List Action :=
  [.create ["a"] .storing, .configure 0 (.showExitCode true), .start 0 true] ++
    List.replicate 5 (.runner 0 .proceed) ++
    [.pump 0 .start, .pass 1, .pump 0 (.read .out), .pass 1, .pump 0 (.read .out), .call .stop 0,
      .proceed 0, .proceed 0, .proceed 0, .runner 0 .exit, .pump 0 (.read .err)] ++
    List.replicate 9 (.runner 0 .proceed)

/-- The bytes of "process exited with code 3", and a newline. -/
def exitLine : Bytes :=
  [112, 114, 111, 99, 101, 115, 115, 32, 101, 120, 105, 116, 101, 100, 32, 119, 105, 116, 104, 32,
    99, 111, 100, 101, 32, 51, 10]

/-- The exit is what is recorded, and what is told behind the output. -/
theorem outcome_is_told_lateStop :
    ∃ w x h r, run .talking {} lateStop = some w ∧ w.members[0]? = some x ∧ x.cancel = true ∧
      x.body = .handle h ∧ h.runner = some r ∧ h.status.outcome = some (.exited 3) ∧
      (said .talking 0 lateStop).map Write.call = [(.err, exitLine)] ∧
      h.sink.writes.map Write.call = [(.out, [104, 105]), (.err, exitLine)] := by
  have hrun : run .talking {} lateStop = some _ := rfl
  obtain ⟨o, line, k, v, hout, -, -, -, -, -, hsaid, -, -, -, hown, -⟩ :=
    outcome_is_told (m := 0) hrun rfl rfl rfl rfl rfl
  cases hout
  have hline := (hown.2 ⟨Or.inl ⟨3, rfl⟩, rfl⟩).2
  refine ⟨_, _, _, _, hrun, rfl, rfl, rfl, rfl, rfl, ?_, rfl⟩
  rw [hsaid, hline]
  rfl

end World

end Supervisor
