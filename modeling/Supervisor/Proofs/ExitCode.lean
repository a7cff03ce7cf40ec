/-
  What the exit code of the program tells.

  * `WaitStatus.ofWord_cases`: what the words that waiting for a child yields stand for;
  * `Program.Follows`: what is known, whatever happens, of the command that the program has
    started, and of its call that waits for it (`follows_of_run`);
  * `Program.Fate`: what can have become of the command, with the outcome that is recorded and
    the code for it (`fate_of_recorded`);
  * `Program.Ends`: a run of the program is over, as the wait has returned or a
    survivor was left behind; `supervise_ends` says that the program comes to such ends only;
  * `never_reports_false_success`: the code is 0 for a command that exited with 0,
    and for nothing else.
-/
import Supervisor.Program
import Supervisor.Proofs.Story
import Supervisor.Proofs.Teardown
import Supervisor.Proofs.Unlogged

namespace Supervisor

/-! ## Statuses and codes -/

/-- A number of 32 bits. -/
def IsInt32 (i : Int) : Prop := -2147483648 ≤ i ∧ i ≤ 2147483647

/-- A status that a host can report: that of some word of 32 bits. -/
def WaitStatus.IsReported (s : WaitStatus) : Prop := ∃ word, IsInt32 word ∧ .ofWord word = s

/-- All statuses of what is launched come from words of 32 bits. -/
structure Environment.ReportsWords (env : Environment) (spec : LaunchSpec) : Prop where
  launched : ∀ now p t s, env.launch spec now = .ok p → p.exit = some (t, s) → s.IsReported
  unread : ∀ now later t s, env.exitUnread spec now later = some (t, s) → s.IsReported

/-- **The words stand for an exit, whose code is the second byte, for the death by a signal
    up to 126, which the low seven bits give, or for neither.** -/
theorem WaitStatus.ofWord_cases (word : Int) :
    (word % 128 = 0 ∧ ofWord word = .exited (word / 256 % 256).toNat) ∨
      ((1 ≤ word % 128 ∧ word % 128 ≤ 126) ∧ ofWord word = .signaled (word % 128).toNat) ∨
      (word % 128 = 127 ∧ ofWord word = .neither) := by
  have hcode : (word % 65536).toNat / 256 = (word / 256 % 256).toNat := by omega
  have hsignal : (word % 65536).toNat % 128 = (word % 128).toNat := by omega
  simp only [ofWord, hcode, hsignal]
  split
  · exact Or.inl ⟨by omega, rfl⟩
  · split
    · exact Or.inr (Or.inr ⟨by omega, rfl⟩)
    · exact Or.inr (Or.inl ⟨by omega, rfl⟩)

/-- The numbers from which the code of an outcome is computed, and at last the code, without any
    regard to their sizes. -/
def Outcome.numbers : Outcome → List Int
  | exited n => [n]
  | signaled n => [n, 128 + n]
  | killed => [killedCode]
  | launchFailed => [launchFailedCode]

namespace World

section
variable (env : Environment) (as : List Action) (m : Nat) (spec : LaunchSpec)

/-- A runner found its child to have ended by itself, with the status `s`. -/
def Reported (s : WaitStatus) : Prop :=
  ∃ u y k, Waited env as m u y k ∧ Awaits env as m spec k ∧ k.status? u.now = some s

/-- A runner was asked to end its child, and did. -/
def Obeyed : Prop := ∃ u y k, Waited env as m u y k ∧ Awaits env as m spec k ∧ y.cancel = true

end

variable {env : Environment} {w : World} {as : List Action} {m : Nat} {x : Member} {h : Handle}
  {r : Runner} {spec : LaunchSpec} {o : Outcome}

theorem Reported.launched {s : WaitStatus} (hr : Reported env as m spec s) :
    ∃ now p, env.launch spec now = .ok p := by
  obtain ⟨-, -, -, -, ⟨v, p, -, hp, -⟩, -⟩ := hr
  exact ⟨v.now, p, hp⟩

theorem Obeyed.launched (ho : Obeyed env as m spec) : ∃ now p, env.launch spec now = .ok p := by
  obtain ⟨-, -, -, -, ⟨v, p, -, hp, -⟩, -⟩ := ho
  exact ⟨v.now, p, hp⟩

theorem isReported_of_awaits {k : Child} {now : Nat} {s : WaitStatus} (hE : env.ReportsWords spec)
    (hk : Awaits env as m spec k) (hs : k.status? now = some s) : s.IsReported := by
  obtain ⟨v, p, -, hp, hof, hre⟩ := hk
  obtain ⟨t, ht⟩ : ∃ t, k.exit = some (t, s) := by
    unfold Child.status? at hs
    rw [hre] at hs
    cases he : k.exit with
    | none => simp [he] at hs
    | some e =>
      obtain ⟨t, s'⟩ := e
      simp only [he, Bool.false_eq_true, if_false, Option.ite_none_right_eq_some,
        Option.some.injEq] at hs
      exact ⟨t, by rw [hs.2]⟩
  rcases hof.exit with he | ⟨later, he⟩
  · exact hE.launched v.now p t s hp (by rw [← he, ht])
  · exact hE.unread v.now later t s (by rw [← he, ht])

/-- The outcome that a handle has recorded is that of a tale. -/
theorem tale_of_recorded (hw : run env {} as = some w) (hx : w.members[m]? = some x)
    (hb : x.body = .handle h) (hr : h.runner = some r) (hf : r.fell = false)
    (ho : h.status.outcome = some o) : Tale env as m r o := by
  have hst := (chronicle_of_run hw hx hb hr hf).standing
  have hrec := ((sound_of_run hw hx h hb).run r hr).recorded
  rw [ho, Option.isSome_some] at hrec
  cases hs : r.stage with
  | forgetting o' =>
    rw [hs] at hst
    rw [hst.1] at ho
    cases ho
    exact hst.2
  | publishing o' =>
    rw [hs] at hst
    rw [hst.1] at ho
    cases ho
    exact hst.2
  | gone =>
    rw [hs] at hst
    obtain ⟨o', ho', ht⟩ := hst
    rw [ho'] at ho
    cases ho
    exact ht
  | _ => rw [hs] at hrec; cases hrec

end World

/-! ## The command, and the wait for it -/

namespace Runner

variable {v : View} {x : Member} {h h' : Handle} {r r' : Runner} {s : RunnerStep}

/-- A step of a runner keeps its launch and the policy of the sink, and only the sink can
    bring it down. -/
theorem Act.keeps (ha : Act v x h r s h' r') (hk : h.sink.verdict .err ≠ .fatal) :
    r'.spec = r.spec ∧ r'.fell = r.fell ∧ h'.sink.policy = h.sink.policy := by
  cases ha with
  | fall line _ hv => exact absurd hv hk
  | register n _ _ => split <;> exact ⟨rfl, rfl, rfl⟩
  | _ => exact ⟨rfl, rfl, rfl⟩

end Runner

namespace Program

open World (Refused Reported Obeyed)

variable {env : Environment} {c : CommandLine} {w w' : World} {as : List Action} {a : Action}
  {o : Outcome}

/-- The actions that start the command and wait for it. -/
def setup (c : CommandLine) : List Action :=
  [Action.create c.command .storing] ++ (changes c).map (Action.configure 0) ++
    [Action.start 0 true, .call .wait 0]

/-- What is launched for a command line. -/
def specOf (c : CommandLine) : LaunchSpec where
  command := c.command
  options := { survivor := c.survivor, showExitCode := c.showExitCode, workingDir := c.cwd }

/-- The outcome that is recorded of the command. -/
def recorded (w : World) : Option Outcome := (w.handle? 0).bind (·.status.outcome)

/-- The run of the command is over. -/
def IsFinished (w : World) : Prop := ∃ h, w.handle? 0 = some h ∧ h.status.state = .finished

/-- The call that waits for the command has returned. -/
def HasReturned (w : World) : Prop := ∃ k b, w.calls[0]? = some k ∧ k.stage = .returned b

/-- The call that waits for the command is still on. -/
def IsWaiting (w : World) : Prop := ∃ k, w.calls[0]? = some k ∧ k.isReturned = false

/-- The run of the command, whose sink is there to store. -/
structure Runs (c : CommandLine) (w : World) (x : Member) (h : Handle) (r : Runner) : Prop where
  member : w.members[0]? = some x
  body : x.body = .handle h
  runner : h.runner = some r
  spec : r.spec = specOf c
  fell : r.fell = false
  policy : h.sink.policy = Sink.storing.policy

/-- How far the call has come that waits for the command, in the world `w` after the
    actions `as`. -/
inductive Waits (as : List Action) (w : World) : CallStage → Prop where
  | entered : Waits as w .entered
  | waiting : Waits as w .waiting
  | returned (b : Bool) : IsFinished w → Waits as w (.returned b)
  | abandoned : .abandon 0 ∈ as → Waits as w .abandoned

/-- What is known after the actions `as` that come after the start of the command. -/
structure Follows (c : CommandLine) (as : List Action) (w : World) : Prop where
  run : ∃ x h r, Runs c w x h r
  wait : ∃ k, w.calls[0]? = some k ∧ k.member = 0 ∧ k.kind = .wait ∧ Waits as w k.stage

theorem run_setup (hc : c.command ≠ []) : World.run env {} (setup c) = some (started env c) := by
  obtain ⟨config, level, survivor, shown, sink, cwd, command⟩ := c
  cases command with
  | nil => exact absurd rfl hc
  | cons program args => cases cwd <;> rfl

/-- The handle of the command when it has just been started. -/
def begun (c : CommandLine) : Handle where
  command := c.command
  sink := .storing
  options := (specOf c).options
  status := { state := .running, version := 1 }
  runner := some { spec := specOf c }

/-- The world in which the command is started and waited for. -/
theorem started_eq (env : Environment) (hc : c.command ≠ []) : started env c =
    { members := [{ label := programOf c.command, body := .handle (begun c) }]
      calls := [{ member := 0, kind := .wait }]
      behind := [.runnerSpawned c.command] } := by
  obtain ⟨config, level, survivor, shown, sink, cwd, command⟩ := c
  cases command with
  | nil => exact absurd rfl hc
  | cons program args => cases cwd <;> rfl

theorem follows_started (env : Environment) (hc : c.command ≠ []) :
    Follows c [] (started env c) := by
  rw [started_eq env hc]
  exact ⟨⟨_, _, _, rfl, rfl, rfl, rfl, rfl, rfl⟩, _, rfl, rfl, rfl, .entered⟩

theorem Runs.step {x : Member} {h : Handle} {r : Runner} (hR : Runs c w x h r) (hS : x.Sound)
    (ha : World.step env w a = some w') : ∃ x' h' r', Runs c w' x' h' r' := by
  obtain ⟨x', h', r', hx', hb', hadv⟩ := World.advance_of_step ha hS hR.member hR.body hR.runner
  have hk : h.sink.verdict .err ≠ .fatal := by rw [Sink.verdict, hR.policy]; nofun
  cases hadv with
  | act hact =>
    obtain ⟨hs, hf, hp⟩ := hact.keeps hk
    exact ⟨x', _, r', hx', hb', rfl, hs.trans hR.spec, hf.trans hR.fell, hp.trans hR.policy⟩
  | pump _ ht => exact ⟨x', _, _, hx', hb', rfl, hR.spec, hR.fell, ht.policy.trans hR.policy⟩
  | idle hs _ => exact ⟨x', _, r, hx', hb', rfl, hR.spec, hR.fell, by rw [hs]; exact hR.policy⟩

theorem isFinished_iff {x : Member} {h : Handle} (hx : w.members[0]? = some x)
    (hb : x.body = .handle h) : IsFinished w ↔ h.status.state = .finished := by
  simp [IsFinished, World.handle?, hx, World.handle?_eq_some.2 hb]

/-- The end of the run is for good. -/
theorem IsFinished.step {x : Member} {h : Handle} {r : Runner} (hf : IsFinished w)
    (hR : Runs c w x h r) (hS : x.Sound) (ha : World.step env w a = some w') : IsFinished w' := by
  obtain ⟨x', hx', hs⟩ := (World.effect_of_step ha).shift hR.member
  obtain ⟨h', hb', hl⟩ := (hs.later hS).handle h hR.body
  have hle := hl.state
  rw [(isFinished_iff hR.member hR.body).1 hf] at hle
  exact (isFinished_iff hx' hb').2 (RunState.eq_finished_of_le hle)

/-- **The call that waits returns when the run is over**, and goes nowhere else. -/
theorem Waits.step {x : Member} {h : Handle} {r : Runner} {k k' : Call}
    (hW : Waits as w k.stage) (hR : Runs c w x h r) (hS : x.Sound) (hm : k.member = 0)
    (hkind : k.kind = .wait) (ha : World.step env w a = some w') (hs : k.Shift env w 0 a k') :
    Waits (as ++ [a]) w' k'.stage := by
  have hkeep : IsFinished w → IsFinished w' := fun hf => hf.step hR hS ha
  cases hs with
  | same =>
    generalize k.stage = t at hW ⊢
    cases hW with
    | entered => exact .entered
    | waiting => exact .waiting
    | returned b hf => exact .returned b (hkeep hf)
    | abandoned hmem => exact .abandoned (List.mem_append_left _ hmem)
  | abandon => exact .abandoned (List.mem_append_right _ List.mem_cons_self)
  | @proceed y y' g s hy hb hmv =>
    rw [hm, hR.member] at hy
    cases hy
    rw [hR.body] at hb
    cases hb
    cases hmv with
    | wait _ _ _ => exact .waiting
    | pointless _ _ hne =>
      have hst := ((hS h hR.body).run r hR.runner).state
      refine .returned true (hkeep ((isFinished_iff hR.member hR.body).2 ?_))
      split at hst
      · exact hst
      · exact absurd hst hne
    | ended _ hf => exact .returned true (hkeep ((isFinished_iff hR.member hR.body).2 hf))
    | disabled _ hact _ => rw [hkind] at hact; cases hact
    | enabled _ hact _ => rw [hkind] at hact; cases hact
    | begin _ hstop => rw [hkind] at hstop; cases hstop
    | found hst _ => rw [hst] at hW; cases hW
    | lost hst _ => rw [hst] at hW; cases hW
    | running hst _ => rw [hst] at hW; cases hW
    | idle hst _ => rw [hst] at hW; cases hW
    | asked hst _ => rw [hst] at hW; cases hW
    | ask hst _ => rw [hst] at hW; cases hW
    | finished d hst _ => rw [hst] at hW; cases hW
    | timeout d hst _ _ => rw [hst] at hW; cases hW
    | disable hst => rw [hst] at hW; cases hW

/-- **What is known of the command and of the wait for it stays known.** -/
theorem follows_of_run (hc : c.command ≠ []) (hw : World.run env (started env c) as = some w) :
    Follows c as w := by
  refine World.run_induction (P := fun as w => Follows c as w) (follows_started env hc) ?_ hw
  intro as a w w' hw hF ha
  obtain ⟨⟨x, h, r, hR⟩, k, hk, hm, hkind, hW⟩ := hF
  have hS := World.sound_of_run
    (World.run_append_eq_some.2 ⟨_, run_setup hc, hw⟩) hR.member
  obtain ⟨k', hk', hs⟩ := (World.effect_of_step ha).call_shift hk
  refine ⟨hR.step hS ha, k', hk', ?_, ?_, hW.step hR hS hm hkind ha hs⟩
  · cases hs <;> exact hm
  · cases hs <;> exact hkind

/-! ## What has become of the command -/

/-- What can have become of the command, the outcome that is recorded of it, and the code. -/
inductive Fate (env : Environment) (as : List Action) (spec : LaunchSpec) :
    Outcome → Int → Prop where
  /-- it could not be launched -/
  | refused (f : Fault) : Refused env as 0 spec f → Fate env as spec .launchFailed 1
  /-- it was killed, as somebody had asked for its end -/
  | killed : Obeyed env as 0 spec → Fate env as spec .killed 1
  /-- its status was neither an exit nor the death by a signal -/
  | neither (word : Int) : IsInt32 word → word % 128 = 127 →
      Reported env as 0 spec (.ofWord word) → Fate env as spec .killed 1
  /-- it exited by itself -/
  | exited (word : Int) : IsInt32 word → word % 128 = 0 → Reported env as 0 spec (.ofWord word) →
      Fate env as spec (.exited (word / 256 % 256)) (word / 256 % 256)
  /-- it died by a signal that the runner did not send -/
  | signaled (word : Int) : IsInt32 word → 1 ≤ word % 128 ∧ word % 128 ≤ 126 →
      Reported env as 0 spec (.ofWord word) →
      Fate env as spec (.signaled (word % 128)) (128 + word % 128)

section
variable {spec : LaunchSpec} {code : Int}

/-- The code of a death by a signal does not come round. -/
theorem exitCode_signaled {n : Int} (h : 1 ≤ n ∧ n ≤ 126) :
    Outcome.exitCode (.signaled n) = 128 + n := by
  rw [Outcome.exitCode, Int.bmod_eq_of_le (by omega) (by omega)]

theorem codeOf_signaled {n : Int} (h : 1 ≤ n ∧ n ≤ 126) :
    codeOf (some (.signaled n)) = 128 + n := by
  simp only [codeOf, exitCode_signaled h]
  rw [if_pos (by omega)]

theorem fate_of_tale {r : Runner} (hE : env.ReportsWords r.spec)
    (ht : World.Tale env as 0 r o) : Fate env as r.spec o (codeOf (some o)) := by
  cases ht with
  | refused f _ hf _ => exact .refused f hf
  | ended o line _ hstop _ _ =>
    obtain ⟨u, y, k, hwait, hk, hv⟩ := hstop
    cases hv with
    | killed hcancel => exact .killed ⟨u, y, k, hwait, hk, hcancel⟩
    | own st hst =>
      have hrep : Reported env as 0 r.spec st := ⟨u, y, k, hwait, hk, hst⟩
      obtain ⟨word, hword, rfl⟩ := World.isReported_of_awaits hE hk hst
      rcases WaitStatus.ofWord_cases word with ⟨hlow, hw⟩ | ⟨hlow, hw⟩ | ⟨hlow, hw⟩
      · have ho : Outcome.ofStatus (.ofWord word) = .exited (word / 256 % 256) := by
          rw [hw, Outcome.ofStatus, Int.toNat_of_nonneg (by omega)]
        rw [ho]
        exact .exited word hword hlow hrep
      · have ho : Outcome.ofStatus (.ofWord word) = .signaled (word % 128) := by
          rw [hw, Outcome.ofStatus, Int.toNat_of_nonneg (by omega)]
        rw [ho, codeOf_signaled hlow]
        exact .signaled word hword hlow hrep
      · rw [hw]
        exact .neither word hword hlow hrep

theorem Fate.bounds (hf : Fate env as spec o code) : 0 ≤ code ∧ code ≤ 255 := by
  cases hf <;> omega

theorem Fate.eq_zero_iff (hf : Fate env as spec o code) : code = 0 ↔ o = .exited 0 := by
  cases hf with
  | exited word _ _ _ => simp
  | signaled word _ hlow _ =>
    refine ⟨fun h => ?_, nofun⟩
    omega
  | _ => exact ⟨nofun, nofun⟩

/-- On the way to the code of an outcome there is no overflow. -/
theorem Fate.numbers (hf : Fate env as spec o code) :
    (∀ i ∈ o.numbers, IsInt32 i) ∧ o.numbers.getLast? = some o.exitCode := by
  cases hf with
  | exited word _ _ _ =>
    refine ⟨?_, rfl⟩
    simp only [Outcome.numbers, List.mem_singleton, forall_eq, IsInt32]
    omega
  | signaled word _ hlow _ =>
    refine ⟨?_, by rw [exitCode_signaled hlow]; rfl⟩
    simp only [Outcome.numbers, List.forall_mem_cons, List.mem_singleton, forall_eq, IsInt32]
    omega
  | _ => exact ⟨by simp [Outcome.numbers, IsInt32, killedCode, launchFailedCode], rfl⟩

end

theorem recorded_eq {x : Member} {h : Handle} (hx : w.members[0]? = some x)
    (hb : x.body = .handle h) : recorded w = h.status.outcome := by
  simp [recorded, World.handle?, hx, World.handle?_eq_some.2 hb]

/-- **What is recorded of the command is what has become of it.** -/
theorem fate_of_recorded (hE : env.ReportsWords (specOf c)) (hc : c.command ≠ [])
    (hw : World.run env (started env c) as = some w) (ho : recorded w = some o) :
    Fate env (setup c ++ as) (specOf c) o (codeOf (some o)) := by
  obtain ⟨⟨x, h, r, hR⟩, -⟩ := follows_of_run hc hw
  have hrun := World.run_append_eq_some.2 ⟨_, run_setup hc, hw⟩
  rw [recorded_eq hR.member hR.body] at ho
  rw [← hR.spec] at hE ⊢
  exact fate_of_tale hE (World.tale_of_recorded hrun hR.member hR.body hR.runner hR.fell ho)

/-- When the wait has returned there is an outcome. -/
theorem exists_recorded (hc : c.command ≠ []) (hw : World.run env (started env c) as = some w)
    (hret : HasReturned w) : ∃ o, recorded w = some o := by
  obtain ⟨⟨x, h, r, hR⟩, k, hk, -, -, hW⟩ := follows_of_run hc hw
  obtain ⟨k', b, hk', hst⟩ := hret
  rw [hk] at hk'
  cases hk'
  rw [hst] at hW
  cases hW with
  | returned b hf =>
    have hrun := World.run_append_eq_some.2 ⟨_, run_setup hc, hw⟩
    have htorn := World.tornDown_of_finished hrun hR.member hR.body
      ((isFinished_iff hR.member hR.body).1 hf)
    rw [recorded_eq hR.member hR.body]
    exact Option.isSome_iff_exists.1 htorn.outcome

/-- While nothing can happen and the wait is still on, nothing is recorded: a runner that has
    recorded an outcome goes on until the wait can return. -/
theorem recorded_eq_none (hc : c.command ≠ []) (hw : World.run env (started env c) as = some w)
    (hwait : IsWaiting w) (hnext : w.next env = none) : recorded w = none := by
  obtain ⟨⟨x, h, r, hR⟩, k, hk, hm, hkind, hW⟩ := follows_of_run hc hw
  obtain ⟨k', hk', hon⟩ := hwait
  rw [hk] at hk'
  cases hk'
  have hnone : ∀ a ∈ w.instant, World.step env w a = none := by
    simpa [World.next] using hnext
  have hready : w.isReadyAt env 0 = false := by
    simp only [World.isReadyAt, hR.member, Option.any_some, List.any_eq_false]
    exact fun a ha => by simp [hnone a (World.mem_instant hR.member ha)]
  have hstuck := (World.quiet_of_not_isReadyAt hR.member hR.body hR.runner hready).1 .proceed
  have hS := (World.sound_of_run (World.run_append_eq_some.2 ⟨_, run_setup hc, hw⟩)
    hR.member h hR.body).run r hR.runner
  have hrec := hS.recorded
  rw [recorded_eq hR.member hR.body]
  cases ho : h.status.outcome with
  | none => rfl
  | some o =>
    rw [ho, Option.isSome_some] at hrec
    cases hs : r.stage with
    | forgetting o' => simp [Runner.step, Runner.proceed, hs] at hstuck
    | publishing o' => simp [Runner.step, Runner.proceed, hs] at hstuck
    | gone =>
      have hf := hS.finished_iff.2 hs
      have hcall := hnone _ (World.mem_instant_of_call hk hon)
      have hx : w.members[k.member]? = some x := by rw [hm]; exact hR.member
      have hh := World.handle?_eq_some.2 hR.body
      generalize hst : k.stage = t at hW
      cases hW with
      | entered => simp [World.step, World.callStep, hk, hx, hh, Call.step, hst, hkind] at hcall
      | waiting => simp [World.step, World.callStep, hk, hx, hh, Call.step, hst, hf] at hcall
      | returned b _ => simp [Call.isReturned, hst] at hon
      | abandoned _ => simp [Call.isReturned, hst] at hon
    | _ => rw [hs] at hrec; cases hrec

/-! ## The ends of a run -/

/-- A run of the program is over in the world `w` after the actions `as`: the outcome
    that it takes note of, and its code. -/
inductive Ends (env : Environment) (c : CommandLine) (as : List Action) (w : World) :
    Option Outcome → Int → Prop where
  /-- the wait for the command has returned -/
  | waited : World.run env (started env c) as = some w → HasReturned w →
      Ends env c as w (recorded w) (codeOf (recorded w))
  /-- a survivor was left behind by an interrupt while it was waited for -/
  | left : World.run env (started env c) as = some w → c.survivor = true → IsWaiting w →
      Ends env c as w none interruptedCode

/-- The program comes to an end: the wait for the command is over, or there is an interrupt
    and the command is a survivor. -/
def Completes (env : Environment) (c : CommandLine) (interrupt : Option Interrupt) : Prop :=
  isOver (supervise env c interrupt (started env c)).2 = true ∨
    (interrupt.isSome = true ∧ c.survivor = true)

theorem conclude_fst (w : World) : (conclude w).1 = .ok (codeOf (recorded w)) := rfl

theorem isOver_conclude (w : World) : isOver (conclude w).2 = isOver w := rfl

/-- In a world that the host comes to after the start, the wait has returned if it is over, and
    is still on if it is not. -/
theorem exists_run_of_reaches (hc : c.command ≠ []) (hr : World.Reaches env (started env c) as w) :
    ∃ v, World.run env (started env c) as = some v ∧ recorded v = recorded w ∧
      (isOver w = true → HasReturned v) ∧ (isOver w = false → IsWaiting v) := by
  obtain ⟨⟨v, hv, hlog⟩, huncalled⟩ := hr
  obtain ⟨-, k, hk, -, -, hW⟩ := follows_of_run hc hv
  have hcalls : v.unlogged.calls = w.unlogged.calls := by rw [hlog]
  have hmembers : v.unlogged.members = w.unlogged.members := by rw [hlog]
  -- The call that waits is the only one there is.
  have hone : w.calls = [k] := by
    have hlen := World.length_calls_of_run hv huncalled
    rw [started_eq env hc] at hlen
    obtain ⟨k', hk'⟩ := List.length_eq_one_iff.1 hlen
    rw [hk'] at hk
    cases hk
    exact hcalls.symm.trans hk'
  have hover : isOver w = k.isReturned := by
    simp [isOver, Session.areReturned, hone]
  refine ⟨v, hv, ?_, fun h => ?_, fun h => ?_⟩
  · exact congrArg (fun ms : List Member => (ms[0]?.bind (·.handle?)).bind (·.status.outcome))
      hmembers
  · rw [hover] at h
    generalize hst : k.stage = t at hW
    cases hW with
    | entered => simp [Call.isReturned, hst] at h
    | waiting => simp [Call.isReturned, hst] at h
    | returned b _ => exact ⟨k, b, hk, hst⟩
    | abandoned hmem => exact absurd (huncalled _ hmem) nofun
  · exact ⟨k, hk, by rw [← hover, h]⟩

theorem ends_of_isOver (hc : c.command ≠ []) (hr : World.Reaches env (started env c) as w)
    (ho : isOver w = true) : ∃ as v o code, Ends env c as v o code ∧ (conclude w).1 = .ok code := by
  obtain ⟨v, hv, hrec, hret, -⟩ := exists_run_of_reaches hc hr
  exact ⟨as, v, _, _, .waited hv (hret ho), by rw [conclude_fst, hrec]⟩

/-- An exit hook leads to a world that the host comes to. -/
theorem exists_reaches_sweep (hr : World.Reaches env (started env c) as w) :
    ∃ bs, World.Reaches env (started env c) bs (sweep env w) := by
  unfold sweep
  have hquiet : ∀ b ∈ Action.takeHooks :: List.replicate w.coordinator.hooksPending .sweep,
      b.isOfCaller = false := fun b hb => by
    rcases List.mem_cons.1 hb with rfl | hb
    · rfl
    · rw [List.eq_of_mem_replicate hb]
      rfl
  obtain ⟨bs, hr⟩ := (hr.note _).actAll hquiet
  obtain ⟨cs, hr⟩ := hr.await isOver
  exact ⟨_, hr⟩

/-- **The program comes to such ends only.** -/
theorem supervise_ends (hc : c.command ≠ []) {interrupt : Option Interrupt}
    (hdone : Completes env c interrupt) : ∃ as w o code, Ends env c as w o code ∧
      (supervise env c interrupt (started env c)).1 = .ok code := by
  have hr := World.Reaches.refl env (started env c)
  unfold Completes at hdone
  cases interrupt with
  | none =>
    obtain ⟨as, hr⟩ := hr.await isOver
    simp only [supervise, isOver_conclude, Option.isSome_none, Bool.false_eq_true, false_and,
      or_false] at hdone
    exact ends_of_isOver hc hr hdone
  | some i =>
    obtain ⟨as, hr⟩ := hr.await fun w => isOver w || Session.hasOutput 0 .out i.output w
    simp only [supervise, Option.isSome_some, true_and] at hdone ⊢
    generalize Session.await env _ (started env c) = w₁ at hr hdone ⊢
    cases hover : isOver w₁ with
    | true => simpa only [hover, if_true] using ends_of_isOver hc hr hover
    | false =>
      simp only [hover, Bool.false_eq_true, if_false] at hdone ⊢
      obtain ⟨bs, hr⟩ := hr.awaitUntil (w₁.now + i.delay) isOver
      generalize w₁.awaitUntil env _ isOver = w₂ at hr hdone ⊢
      cases hover₂ : isOver w₂ with
      | true => simpa only [hover₂, if_true] using ends_of_isOver hc hr hover₂
      | false =>
        simp only [hover₂, Bool.false_eq_true, if_false] at hdone ⊢
        cases hs : c.survivor with
        | true =>
          obtain ⟨v, hv, -, -, hwait⟩ := exists_run_of_reaches hc hr
          exact ⟨_, v, _, _, .left hv hs (hwait hover₂), by rw [if_pos rfl]⟩
        | false =>
          simp only [hs, Bool.false_eq_true, if_false, or_false, isOver_conclude] at hdone ⊢
          obtain ⟨cs, hr⟩ := exists_reaches_sweep hr
          exact ends_of_isOver hc hr hdone

theorem result_run {here : Host.Trail} {settings : Settings} (hc : c.command ≠ [])
    (hload : Settings.loadOrDefault (here.contentAt (Host.Octets.ofString c.config)) = .ok settings)
    (interrupt : Option Interrupt) : (run here c interrupt).result =
      (supervise (Host.environmentOf here settings true) c interrupt
        (started (Host.environmentOf here settings true) c)).1 := by
  unfold run
  extract_lets logName
  split
  · next e he => rw [hload] at he; cases he
  · next s hs =>
    rw [hload] at hs
    cases hs
    split
    · next e he => rw [Handle.create, if_neg hc] at he; cases he
    · rfl

/-- **The exit code of the program never reports a false success.**  Whatever happens after the
    start of a command, in whatever order, on a host whose statuses are words of 32 bits: when
    the program ends, its code is one byte, and is 0 if and only if the outcome that it notes is an
    exit with code 0.  That outcome is the recorded one, the code is the one for what has become of
    the command, and no number on the way to it leaves the 32 bits.  A survivor that is left
    behind has no outcome, and code 1.  The program comes to such ends only. -/
theorem never_reports_false_success (hE : env.ReportsWords (specOf c)) (hc : c.command ≠ []) :
    (∀ as w o code, Ends env c as w o code →
      (0 ≤ code ∧ code ≤ 255) ∧ (code = 0 ↔ o = some (.exited 0)) ∧
      ((∃ o', o = some o' ∧ recorded w = some o' ∧ code = codeOf (some o') ∧
          Fate env (setup c ++ as) (specOf c) o' code ∧ (∀ i ∈ o'.numbers, IsInt32 i) ∧
          o'.numbers.getLast? = some o'.exitCode) ∨
        (o = none ∧ c.survivor = true ∧ code = 1 ∧ (w.next env = none → recorded w = none)))) ∧
    (∀ interrupt, Completes env c interrupt → ∃ as w o code, Ends env c as w o code ∧
      (supervise env c interrupt (started env c)).1 = .ok code) ∧
    (∀ here settings interrupt, env = Host.environmentOf here settings true →
      Settings.loadOrDefault (here.contentAt (Host.Octets.ofString c.config)) = .ok settings →
      (run here c interrupt).result = (supervise env c interrupt (started env c)).1) := by
  refine ⟨fun as w o code hend => ?_, fun interrupt => supervise_ends hc,
    fun here settings interrupt henv hload => ?_⟩
  · cases hend with
    | waited hw hret =>
      obtain ⟨o, ho⟩ := exists_recorded hc hw hret
      have hfate := fate_of_recorded hE hc hw ho
      rw [ho]
      refine ⟨hfate.bounds, hfate.eq_zero_iff.trans ?_,
        Or.inl ⟨o, rfl, rfl, rfl, hfate, hfate.numbers⟩⟩
      exact Option.some_inj.symm
    | left hw hs hwait =>
      exact ⟨by decide, by decide, Or.inr ⟨rfl, hs, rfl, recorded_eq_none hc hw hwait⟩⟩
  · subst henv
    exact result_run hc hload interrupt

/-- A host on which every program crashes after a millisecond, and leaves a core. -/
def crashing : Environment where
  launch := fun _ now => .ok {
    output := .both { arrivals := [], ownHold := some (now + 1) }
    exit := some (now + 1, .ofWord 139) }
  exitUnread := fun _ _ _ => none

theorem crashing_reportsWords (spec : LaunchSpec) : crashing.ReportsWords spec where
  launched := by
    intro now p t s hp he
    cases hp
    cases he
    exact ⟨139, ⟨by decide, by decide⟩, rfl⟩
  unread := nofun

/-- What happens to a program that crashes, while it is waited for. -/
def crash : List Action :=
  [Action.proceed 0] ++ List.replicate 5 (Action.runner 0 .proceed) ++
    [Action.pump 0 .start, .pass 1, .runner 0 .exit, .runner 0 .proceed, .pump 0 (.read .out),
      .pump 0 (.read .err)] ++ List.replicate 7 (Action.runner 0 .proceed) ++ [Action.proceed 0]

/-- A directory with nothing in it. -/
def bare : Host.Trail := [("", .directory [])]

theorem bare_reportsWords : (Host.environmentOf bare {} true).ReportsWords
    { command := ["true"], options := { workingDir := some "nowhere" } } where
  launched := fun _ _ _ _ hp => by cases hp
  unread := fun _ _ _ _ he => by cases he

/-- A crash by the signal 11 gives the code 139, and a directory that is not there
    gives 1. -/
theorem never_reports_false_success_badEnds :
    (∃ w, World.run crashing (started crashing { command := ["a"] }) crash = some w ∧
      recorded w = some (.signaled 11) ∧
      Fate crashing (setup { command := ["a"] } ++ crash) ⟨["a"], {}⟩ (.signaled 11) 139) ∧
    ∃ as w, Ends (Host.environmentOf bare {} true) { cwd := some "nowhere", command := ["true"] }
        as w (some .launchFailed) 1 ∧
      (run bare { cwd := some "nowhere", command := ["true"] } none).result = .ok 1 := by
  constructor
  · have hrun : World.run crashing (started crashing { command := ["a"] }) crash = some _ := rfl
    obtain ⟨hends, -, -⟩ := never_reports_false_success (c := { command := ["a"] })
      (crashing_reportsWords _) (by decide)
    obtain ⟨-, -, ⟨o, ho, -, -, hfate, -, -⟩ | ⟨hnone, -⟩⟩ :=
      hends crash _ _ _ (.waited hrun ⟨_, _, rfl, rfl⟩)
    · cases ho
      exact ⟨_, hrun, rfl, hfate⟩
    · cases hnone
  · obtain ⟨hends, hcomes, hresult⟩ := never_reports_false_success
      (c := { cwd := some "nowhere", command := ["true"] }) bare_reportsWords (by decide)
    obtain ⟨as, w, o, code, hend, hcode⟩ := hcomes none (Or.inl rfl)
    have hrun := (hresult bare {} none rfl rfl).trans hcode
    have hnever : ¬ ∃ now p, (Host.environmentOf bare {} true).launch
        (specOf { cwd := some "nowhere", command := ["true"] }) now = .ok p := by
      rintro ⟨now, p, hp⟩
      cases hp
    obtain ⟨-, -, ⟨o', rfl, -, -, hfate, -, -⟩ | ⟨-, hs, -⟩⟩ := hends as w o code hend
    · cases hfate with
      | refused f _ => exact ⟨as, w, hend, hrun⟩
      | killed hk => exact absurd hk.launched hnever
      | neither word _ _ hk => exact absurd hk.launched hnever
      | exited word _ _ hk => exact absurd hk.launched hnever
      | signaled word _ _ hk => exact absurd hk.launched hnever
    · cases hs

end Program

end Supervisor
