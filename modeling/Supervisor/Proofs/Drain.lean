/-
  Output survives a natural exit, and the run ends in time.

  * `Source.IsPlain`: a stream that is written to until it ends; `Source.written t` are
    the bytes that arrive before `t`, and all of them are heard (`IsPlain.heard`);
  * `Process.finish`: when the run of a process is to end that exits by itself;
  * `Pump.Drains`: a pump that is to end at a deadline, on the clock, since the
    launch (`Drains.turn`, `Drains.obey`, `Drains.pass`);
  * `Runner.Timed`: where a run stands on the clock, stage by stage; each action keeps it
    (`Timed.advance`), and so does time that passes (`Timed.pass`);
  * `output_survives_exit`: before the end is published all output is offered, and it
    is published when it is to be.
-/
import Supervisor.Proofs.Prompt
import Supervisor.Proofs.PumpRun
import Supervisor.Proofs.Story

namespace Supervisor

open Offer (outputs failures)

/-! ## Streams that are written to -/

namespace Source

/-- The bytes that arrive before a time. -/
def written (t : Nat) (s : Source) : Bytes :=
  (s.arrivals.filter (·.time < t)).flatMap (·.payload.bytes)

/-- A stream that is written to until it ends: one write after the other, each of which
    can be read. -/
structure IsPlain (s : Source) : Prop where
  ordered : s.arrivals.Pairwise (·.time ≤ ·.time)
  goesOn : ∀ a ∈ s.arrivals, a.payload.ends = false
  inTime : ∀ a ∈ s.arrivals, s.ending.all (a.time ≤ ·) = true

variable {s : Source} {t u : Nat} {as : List Arrival}

theorem filter_eq_nil_of_ordered {a : Arrival} (hle : ∀ b ∈ as, a.time ≤ b.time)
    (ha : ¬ a.time < t) : as.filter (·.time < t) = [] := by
  refine List.filter_eq_nil_iff.2 fun b hb => ?_
  have := hle b hb
  simp only [decide_eq_true_eq]
  omega

theorem meet_of_ordered (ho : as.Pairwise (·.time ≤ ·.time))
    (hg : ∀ a ∈ as, a.payload.ends = false) :
    meet (some t) as = (as.filter (·.time < t)).map (·.payload) := by
  induction as with
  | nil => rfl
  | cons a as ih =>
    obtain ⟨hle, ho⟩ := List.pairwise_cons.1 ho
    by_cases hlt : a.time < t
    · have hends := hg a List.mem_cons_self
      simp [meet, isBefore, hlt, hends, ih ho fun b hb => hg b (List.mem_cons_of_mem _ hb)]
    · simp [meet, isBefore, hlt, filter_eq_nil_of_ordered hle hlt]

theorem IsPlain.met (hs : s.IsPlain) (t : Nat) :
    Source.met (some t) (some s) = (s.arrivals.filter (·.time < t)).map (·.payload) :=
  meet_of_ordered hs.ordered hs.goesOn

/-- **All that is written to such a stream is heard.** -/
theorem IsPlain.heard (hs : s.IsPlain) (t : Nat) :
    Source.heard (some t) (some s) = s.written t := by
  rw [Source.heard, hs.met, written, List.flatMap_map]

theorem IsPlain.failure? (hs : s.IsPlain) (t : Nat) :
    Source.failure? (some t) (some s) = none := by
  rw [Source.failure?, hs.met, List.findSome?_map, List.findSome?_eq_none_iff]
  intro a ha
  exact Payload.fault?_of_not_ends (hs.goesOn a (List.mem_filter.1 ha).1)

theorem closingAfter_of_goesOn {e : Option Nat} (hg : ∀ a ∈ as, a.payload.ends = false)
    (ht : ∀ a ∈ as, e.all (a.time ≤ ·) = true) : closingAfter e as = e := by
  induction as with
  | nil => rfl
  | cons a as ih =>
    rw [closingAfter, hg a List.mem_cons_self,
      ih (fun b hb => hg b (List.mem_cons_of_mem _ hb)) fun b hb => ht b (List.mem_cons_of_mem _ hb)]
    exact later_eq_right (ht a List.mem_cons_self)

theorem IsPlain.closing (hs : s.IsPlain) : s.closing = s.ending :=
  closingAfter_of_goesOn hs.goesOn hs.inTime

/-- What is written later comes behind what was written before. -/
theorem filter_prefix_of_ordered (ho : as.Pairwise (·.time ≤ ·.time)) (htu : t ≤ u) :
    as.filter (·.time < t) <+: as.filter (·.time < u) := by
  induction as with
  | nil => exact List.prefix_rfl
  | cons a as ih =>
    obtain ⟨hle, ho⟩ := List.pairwise_cons.1 ho
    by_cases hlt : a.time < t
    · have hlt' : a.time < u := Nat.lt_of_lt_of_le hlt htu
      simpa [hlt, hlt'] using ih ho
    · simp [hlt, filter_eq_nil_of_ordered hle hlt]

theorem IsPlain.written_mono (hs : s.IsPlain) (htu : t ≤ u) : s.written t <+: s.written u := by
  obtain ⟨rest, hrest⟩ := filter_prefix_of_ordered hs.ordered htu
  rw [written, written, ← hrest, List.flatMap_append]
  exact List.prefix_append _ _

end Source

/-- When the run of a process is to end that exits by itself at `T`: when its streams have
    ended, but not before `T` and not after the grace period. -/
def Process.finish (p : Process) (T grace : Nat) : Nat :=
  match Source.later p.output.out.ending p.output.err.ending with
  | some e => min (T + grace) (max T e)
  | none => T + grace

namespace Process

variable {p : Process} {T grace start now : Nat}

theorem exit_le_finish (p : Process) (T grace : Nat) : T ≤ p.finish T grace := by
  unfold finish
  split <;> omega

theorem le_finish {s : Stream} (hst : start ≤ T) (hd : now ≤ T + grace)
    (hs : (Source.later (some start) (p.output.get s).ending).all (now ≤ ·) = true) :
    now ≤ p.finish T grace := by
  unfold finish
  cases hout : p.output.out.ending with
  | none => simpa using hd
  | some e =>
    cases herr : p.output.err.ending with
    | none => simpa using hd
    | some e' =>
      cases s with
      | out => simp [PerStream.get, hout] at hs ⊢; omega
      | err => simp [PerStream.get, herr] at hs ⊢; omega

theorem finish_le (start : Nat) (hT : T ≤ now)
    (h : T + grace ≤ now ∨
      ∀ s, (Source.later (some start) (p.output.get s).ending).any (· ≤ now) = true) :
    p.finish T grace ≤ now := by
  have hd : p.finish T grace ≤ T + grace := by
    unfold finish
    split <;> omega
  rcases h with h | h
  · omega
  · have hout := h .out
    have herr := h .err
    unfold finish
    cases ho : p.output.out.ending with
    | none => simp [PerStream.get, ho] at hout
    | some e =>
      cases he : p.output.err.ending with
      | none => simp [PerStream.get, he] at herr
      | some e' =>
        simp [PerStream.get, ho] at hout
        simp [PerStream.get, he] at herr
        simp
        omega

end Process

/-! ## What a sink received -/

/-- Since it was `k₀` the sink has received the bytes of each stream, and then perhaps a
    line. -/
structure Sink.Received (k₀ k : Sink) (bytes : Stream → Bytes) (line : Option String) : Prop where
  policy : k.policy = k₀.policy
  history : ∃ chunks : List (Stream × Bytes),
    k.history = k₀.history ++ chunks ++ line.toList.map lineCall ∧
      ∀ s, ((chunks.filter (·.1 = s)).map (·.2)).flatten = bytes s

/-- Offers without notices are output. -/
theorem Offer.outputs_of_failures {os : List Offer} (hf : ∀ s, failures s os = []) (s : Stream) :
    ((os.map Offer.call).filter (·.1 = s)).map (·.2) = outputs s os := by
  induction os with
  | nil => rfl
  | cons o os ih =>
    cases o with
    | notice t f =>
      have := hf t
      simp [failures, Offer.failure?] at this
    | output t bs =>
      have ih := ih fun s => by
        have := hf s
        simpa [failures, Offer.failure?] using this
      by_cases hts : t = s
      · simpa [Offer.call, outputs, Offer.output?, hts] using ih
      · simpa [Offer.call, outputs, Offer.output?, hts] using ih

namespace Pump

/-! ## A pump since the launch -/

/-- A pump that began at `start` with the streams `src` and the sink `k₀`, and is to end at
    `d`. -/
structure Drains (d start : Nat) (src : PerStream Source) (k₀ : Sink) (now : Nat) (p : Pump)
    (k : Sink) : Prop where
  balance : ∃ os, Balance (some d) (src.map some) k₀ p k os
  timely : Timely (some d) ((src.map some).map (closingFrom start)) now p
  heeds : p.Heeds
  isOpen : p.isEnded = false → ∃ s cur, p.sources.get s = some cur

section
variable {d start now : Nat} {src : PerStream Source} {k₀ k k' : Sink} {p p' : Pump}
  {e : PumpEvent}

theorem Drains.begin (k : Sink) (size : Nat) (hd : start < d) :
    Drains d start src k start { bufferSize := size, sources := src.map some } k where
  balance := ⟨[], .begin _ _ _ _ rfl rfl⟩
  timely := by
    have hearly : (some d).all (start ≤ ·) = true := decide_eq_true (Nat.le_of_lt hd)
    refine Timely.begin (p := { bufferSize := size, sources := src.map some }) rfl rfl rfl hearly
      fun h => ?_
    rw [Option.some.injEq] at h
    omega
  heeds := ⟨nofun, Or.inl rfl⟩
  isOpen := fun _ => ⟨.out, src.out, rfl⟩

/-- **A turn keeps a pump on its way**, if the sink does not bring it down. -/
theorem Drains.turn (hD : Drains d start src k₀ now p k) (h : Turn now p k e p' k')
    (hk : ∀ s n, k₀.policy s n ≠ .fatal) : Drains d start src k₀ now p' k' := by
  obtain ⟨os, hB⟩ := hD.balance
  obtain ⟨new, hnew⟩ := h.balance (src.map some) k₀
  have hverdict : ∀ s, k.verdict s ≠ .fatal := fun s => by
    rw [Sink.verdict, hB.policy]
    exact hk s _
  exact ⟨⟨os ++ new, hnew _ os hB (hD.timely.isBefore_of_read h)⟩, hD.timely.turn h hverdict,
    (h.heeds hD.heeds).1, h.exists_isOpen⟩

/-- So does the order to finish. -/
theorem Drains.obey (hD : Drains d start src k₀ now p k) (grace : Nat) (hd : d = now + grace)
    (ho : p.order.deadline = none) (hc : p.order.closed = false) :
    Drains d start src k₀ now (p.obey now (.drain grace)) k ∧
      (p.obey now (.drain grace)).order.deadline = some d := by
  have hdue : (p.obey now (.drain grace)).order.deadline = some d := by
    simp [Pump.obey, DrainOrder.give, ho, hc, hd]
  obtain ⟨os, hB⟩ := hD.balance
  exact ⟨⟨⟨os, hB.same rfl rfl rfl⟩, hD.timely.congr rfl rfl rfl (Or.inr hdue), hD.heeds.obey _ _,
    hD.isOpen⟩, hdue⟩

/-- And time that passes up to the next thing that the pump waits for. -/
theorem Drains.pass {now' : Nat} (hD : Drains d start src k₀ now p k) (hle : now ≤ now')
    (hd : p.isEnded = false → now' ≤ d)
    (hnext : p.isEnded = false → ∀ s cur, p.sources.get s = some cur →
      cur.nextTime.all (now' ≤ ·) = true)
    (htie : ∀ s, d ∉ (src.get s).moments) : Drains d start src k₀ now' p k := by
  obtain ⟨os, hB⟩ := hD.balance
  refine ⟨⟨os, hB⟩, hD.timely.pass hle (fun he => by simpa using hd he) fun he s cur hcur => ?_,
    hD.heeds, hD.isOpen⟩
  refine ⟨hnext he s cur hcur, fun t ht hmem => ?_⟩
  cases ht
  obtain ⟨s₀, hs₀, hsub⟩ := hB.moments s cur hcur
  rw [PerStream.get_map, Option.some.injEq] at hs₀
  subst hs₀
  exact htie s (hsub hmem)

theorem closing_of_isPlain (hs : ∀ s, (src.get s).IsPlain) (s : Stream) :
    ((src.map some).map (closingFrom start)).get s =
      Source.later (some start) (src.get s).ending := by
  rw [PerStream.get_map, PerStream.get_map, closingFrom, (hs s).closing]

/-- While it goes on it is not late. -/
theorem Drains.le_finish {pr : Process} {T grace : Nat}
    (hD : Drains (T + grace) start pr.output k₀ now p k) (hs : ∀ s, (pr.output.get s).IsPlain)
    (hst : start ≤ T) (he : p.isEnded = false) : now ≤ pr.finish T grace := by
  have hR := hD.timely.running he
  obtain ⟨s, cur, hcur⟩ := hD.isOpen he
  refine Process.le_finish (s := s) hst (by simpa using hR.early) ?_
  rw [← closing_of_isPlain hs, hR.closing s cur hcur]
  cases cur.closing with
  | none => rfl
  | some t => simp

/-- Once it has ended it is not early. -/
theorem Drains.finish_le {pr : Process} {T grace : Nat}
    (hD : Drains (T + grace) start pr.output k₀ now p k) (hs : ∀ s, (pr.output.get s).IsPlain)
    (hT : T ≤ now) (he : p.isEnded = true) : pr.finish T grace ≤ now := by
  refine Process.finish_le start hT ((hD.timely.stopped he).due.imp (fun h => by simpa using h)
    fun h s => ?_)
  rw [← closing_of_isPlain hs]
  exact h s

/-- Once it has ended the sink has received all that was written in time. -/
theorem Drains.received (hD : Drains d start src k₀ now p k) (hs : ∀ s, (src.get s).IsPlain)
    (he : p.isEnded = true) : k₀.Received k (fun s => (src.get s).written d) none := by
  obtain ⟨os, hB⟩ := hD.balance
  have hmet := (hD.timely.stopped he).met
  have hfail : ∀ s, failures s os = [] := fun s => by
    have hf := hB.failure s
    rw [PerStream.get_map, (hs s).failure?, Option.toList_none] at hf
    exact (List.append_eq_nil_iff.1 hf).1
  refine ⟨hB.policy, os.map Offer.call, by rw [hB.history]; simp, fun s => ?_⟩
  have hheard := hB.heard s
  rw [Source.heard_eq_nil (hmet s), List.append_nil, PerStream.get_map, (hs s).heard] at hheard
  rw [Offer.outputs_of_failures hfail, hheard]

end

end Pump

/-! ## A run since the launch -/

/-- The process `p`, which was launched at `start` with the sink `k`, writes to its streams
    and exits by itself at `T`.  The sink does not bring anybody down, and nothing falls
    on the end of the grace period. -/
structure Process.ExitsAlone (env : Environment) (start T : Nat) (p : Process) (k : Sink) :
    Prop where
  plain : ∀ s, (p.output.get s).IsPlain
  exit : p.exit.map (·.1) = some T
  start_le : start ≤ T
  grace : 0 < env.settings.gracePeriod
  bears : ∀ s n, k.policy s n ≠ .fatal
  noTie : ∀ s, T + env.settings.gracePeriod ∉ (p.output.get s).moments

namespace Runner

section
variable (env : Environment) (start T : Nat) (pr : Process) (k₀ : Sink)

/-- The pump of a run is on its way, and was ordered to finish at `due`, or is still to
    be. -/
def Pumps (h : Handle) (r : Runner) (now : Nat) (due : Option Nat) : Prop :=
  ∃ p, r.pump = some p ∧ p.order.deadline = due ∧ p.order.closed = false ∧
    p.Drains (T + env.settings.gracePeriod) start pr.output k₀ now h.sink

/-- The output of a run is over, and the sink has received it. -/
def Drained (h : Handle) (r : Runner) (line : Option String) : Prop :=
  r.IsDrained ∧
    k₀.Received h.sink (fun s => (pr.output.get s).written (T + env.settings.gracePeriod)) line

/-- Where a run stands on the clock, by the stage of its runner. -/
def Timed (h : Handle) (r : Runner) (now : Nat) : Stage → Prop
  | .created | .registering | .launching | .failing _ => False
  | .waiting => now ≤ T ∧
      (∃ c, r.child = some c ∧ c.exit.map (·.1) = some T ∧ c.reaped = false) ∧
      Pumps env start T pr k₀ h r now none
  | .ended _ => now = T ∧ Pumps env start T pr k₀ h r now none
  | .draining _ => T ≤ now ∧ now ≤ pr.finish T env.settings.gracePeriod ∧
      Pumps env start T pr k₀ h r now (some (T + env.settings.gracePeriod))
  | .telling _ | .noting _ _ => now = pr.finish T env.settings.gracePeriod ∧
      Drained env T pr k₀ h r none
  | .closing _ | .leaving _ | .disabling _ | .detaching _ | .recording _ | .forgetting _
  | .publishing _ => now = pr.finish T env.settings.gracePeriod ∧
      ∃ line, Drained env T pr k₀ h r line
  | .gone => pr.finish T env.settings.gracePeriod ≤ now ∧ ∃ line, Drained env T pr k₀ h r line

end

variable {env : Environment} {start T now : Nat} {pr : Process} {k₀ : Sink} {h h' : Handle}
  {r r' : Runner} {v : View} {x : Member} {s : RunnerStep}

theorem Pumps.congr {due : Option Nat} (hP : Pumps env start T pr k₀ h r now due)
    (hp : r'.pump = r.pump) (hs : h'.sink = h.sink) : Pumps env start T pr k₀ h' r' now due := by
  obtain ⟨p, hpump, hrest⟩ := hP
  exact ⟨p, hp.trans hpump, by rw [hs]; exact hrest⟩

theorem Drained.congr {line : Option String} (hD : Drained env T pr k₀ h r line)
    (hp : r'.pump = r.pump) (hs : h'.sink = h.sink) : Drained env T pr k₀ h' r' line := by
  obtain ⟨hd, hrec⟩ := hD
  exact ⟨fun p hp' => hd p (hp ▸ hp'), by rw [hs]; exact hrec⟩

theorem Timed.congr {st : Stage} (hT : Timed env start T pr k₀ h r now st)
    (hr : r'.pump = r.pump) (hc : r'.child = r.child) (hs : h'.sink = h.sink) :
    Timed env start T pr k₀ h' r' now st := by
  cases st with
  | created | registering | launching | failing f => exact hT
  | waiting => exact ⟨hT.1, by rw [hc]; exact hT.2.1, hT.2.2.congr hr hs⟩
  | ended o => exact ⟨hT.1, hT.2.congr hr hs⟩
  | draining o => exact ⟨hT.1, hT.2.1, hT.2.2.congr hr hs⟩
  | telling o | noting o line => exact ⟨hT.1, hT.2.congr hr hs⟩
  | _ => exact ⟨hT.1, hT.2.imp fun _ hD => hD.congr hr hs⟩

theorem Timed.rank_le {st : Stage} (hT : Timed env start T pr k₀ h r now st) :
    Stage.waiting.rank ≤ st.rank := by
  cases st with
  | created | registering | launching | failing f => exact hT.elim
  | _ => simp [Stage.rank]

/-- A run that is later than it is to end is over. -/
theorem Timed.eq_gone {st : Stage} (hT : Timed env start T pr k₀ h r now st)
    (hlt : pr.finish T env.settings.gracePeriod < now) : st = .gone := by
  have hexit := pr.exit_le_finish T env.settings.gracePeriod
  cases st with
  | created | registering | launching | failing f => exact hT.elim
  | gone => rfl
  | draining o => have := hT.2.1; omega
  | _ => have := hT.1; omega

/-- The sink of a run that is over does not bring its runner down. -/
theorem Drained.verdict {line : Option String} (hD : Drained env T pr k₀ h r line)
    (hk : ∀ s n, k₀.policy s n ≠ .fatal) (s : Stream) : h.sink.verdict s ≠ .fatal := by
  rw [Sink.verdict, hD.2.policy]
  exact hk s _

/-- The line at the end is received behind the output. -/
theorem Drained.notice {now : Nat} (hD : Drained env T pr k₀ h r none) (line : String)
    (hp : r'.pump = r.pump) (hs : h'.sink = h.sink.notice now line) :
    Drained env T pr k₀ h' r' (some line) := by
  obtain ⟨hd, hpol, chunks, hhist, hbytes⟩ := hD
  refine ⟨fun p hp' => hd p (hp ▸ hp'), by rw [hs]; exact hpol, chunks, ?_, hbytes⟩
  rw [hs, Sink.history_notice, hhist]
  simp

/-- **The steps of the runner keep a run on the clock.** -/
theorem Timed.act (hT : Timed env start T pr k₀ h r v.now r.stage) (ha : Act v x h r s h' r')
    (hE : pr.ExitsAlone env start T k₀) (hv : v.env = env) (hc : x.cancel = false) :
    Timed env start T pr k₀ h' r' v.now r'.stage := by
  cases ha with
  | begin hs => rw [hs] at hT; exact hT.elim
  | register n hs _ => rw [hs] at hT; exact hT.elim
  | launch p hs _ => rw [hs] at hT; exact hT.elim
  | refuse f hs _ => rw [hs] at hT; exact hT.elim
  | tellFailure f hs _ => rw [hs] at hT; exact hT.elim
  | exit c st hs hch hst =>
    rw [hs] at hT
    obtain ⟨hle, ⟨c', hch', hexit, -⟩, hP⟩ := hT
    rw [hch] at hch'
    cases hch'
    have hge : T ≤ v.now := by
      obtain ⟨⟨t, st'⟩, hx, rfl⟩ := Option.map_eq_some_iff.1 hexit
      unfold Child.status? at hst
      split at hst
      · cases hst
      · simp only [hx] at hst
        split at hst
        · assumption
        · cases hst
    exact ⟨Nat.le_antisymm hle hge, hP.congr rfl rfl⟩
  | cancel _ hc' => rw [hc] at hc'; cases hc'
  | drain o hs =>
    rw [hs] at hT
    obtain ⟨hnow, p, hp, ho, hcl, hD⟩ := hT
    obtain ⟨hD', hdue⟩ := hD.obey env.settings.gracePeriod (by rw [hnow]) ho hcl
    refine ⟨Nat.le_of_eq hnow.symm, hnow ▸ pr.exit_le_finish _ _,
      p.obey v.now (.drain env.settings.gracePeriod), ?_, hdue, ?_, hD'⟩
    · simp [goto, enter, order, hp, hv, Pump.obey]
    · simp [Pump.obey, DrainOrder.give, ho, hcl]
  | drained o p hs hp he =>
    rw [hs] at hT
    obtain ⟨hge, hle, p', hp', -, -, hD⟩ := hT
    rw [hp] at hp'
    cases hp'
    refine ⟨Nat.le_antisymm hle (hD.finish_le hE.plain hge he), fun q hq => ?_,
      hD.received hE.plain he⟩
    rw [show (r.goto (.telling o)).pump = r.pump from rfl, hp] at hq
    cases hq
    exact he
  | resolve o line hs _ => rw [hs] at hT; exact hT
  | silent o hs _ => rw [hs] at hT; exact ⟨hT.1, none, hT.2⟩
  | tellEnd o line hs _ => rw [hs] at hT; exact ⟨hT.1, some line, hT.2.notice line rfl rfl⟩
  | fall line hs hf =>
    cases hst : r.stage with
    | failing f => rw [hst] at hT; exact hT.elim
    | noting o l => rw [hst] at hT; exact absurd hf (hT.2.verdict hE.bears .err)
    | _ => rw [hst] at hs; cases hs
  | leave o hs =>
    rw [hs] at hT
    simp only [goto]
    split <;> exact hT
  | close o hs => rw [hs] at hT; exact hT
  | disable o hs => rw [hs] at hT; exact hT
  | detach o hs => rw [hs] at hT; exact hT
  | record o hs => rw [hs] at hT; exact hT
  | forget o hs => rw [hs] at hT; exact hT
  | publish o hs => rw [hs] at hT; exact ⟨Nat.le_of_eq hT.1.symm, hT.2⟩

theorem Pumps.turn {due : Option Nat} {e : PumpEvent} {p p' : Pump} {k' : Sink}
    (hP : Pumps env start T pr k₀ h r now due) (hp : r.pump = some p)
    (ht : Pump.Turn now p h.sink e p' k') (hk : ∀ s n, k₀.policy s n ≠ .fatal)
    (hs : h'.sink = k') (hp' : r'.pump = some p') :
    Pumps env start T pr k₀ h' r' now due ∧ p'.stage ≠ .ended .fatal := by
  obtain ⟨q, hq, ho, hc, hD⟩ := hP
  rw [hp] at hq
  cases hq
  have hD' := hD.turn ht hk
  obtain ⟨-, hdl, hcl⟩ := ht.heeds hD.heeds
  exact ⟨⟨p', hp', hdl.trans ho, hcl.trans hc, by rw [hs]; exact hD'⟩, hD'.timely.alive⟩

/-- A pump that takes a turn has not drained its run. -/
theorem IsDrained.not_turn {e : PumpEvent} {p p' : Pump} {k k' : Sink} (hd : r.IsDrained)
    (hp : r.pump = some p) (ht : Pump.Turn now p k e p' k') : False := by
  have := ht.not_ended
  rw [hd p hp] at this
  cases this

/-- **So does each action**, of whatever party. -/
theorem Timed.advance {w : World} {m : Nat} {a : Action}
    (hT : Timed env start T pr k₀ h r w.now r.stage) (ha : Advance env w m x h r a h' r')
    (hE : pr.ExitsAlone env start T k₀) (hc : x.cancel = false) :
    Timed env start T pr k₀ h' r' w.now r'.stage := by
  cases ha with
  | act ha => exact Timed.act (v := w.view env m) hT ha hE rfl hc
  | idle hs _ => exact hT.congr rfl rfl hs
  | @pump e p p' k' hp ht =>
    have hturn : ∀ due, Pumps env start T pr k₀ h r w.now due →
        Pumps env start T pr k₀ { h with sink := k' }
          { r with pump := some p', child := r.childAfter (w.view env m) p' } w.now due ∧
          p'.stage ≠ .ended .fatal := fun due hP => hP.turn hp ht hE.bears rfl rfl
    cases hst : r.stage with
    | created | registering | launching | failing f => rw [hst] at hT; exact hT.elim
    | waiting =>
      rw [hst] at hT
      obtain ⟨hle, hchild, hP⟩ := hT
      obtain ⟨hP', halive⟩ := hturn _ hP
      exact ⟨hle, by simpa only [childAfter, halive, if_false] using hchild, hP'⟩
    | ended o =>
      rw [hst] at hT
      exact ⟨hT.1, (hturn _ hT.2).1⟩
    | draining o =>
      rw [hst] at hT
      exact ⟨hT.1, hT.2.1, (hturn _ hT.2.2).1⟩
    | telling o | noting o line =>
      rw [hst] at hT
      exact (hT.2.1.not_turn hp ht).elim
    | _ =>
      rw [hst] at hT
      obtain ⟨line, hD⟩ := hT.2
      exact (hD.1.not_turn hp ht).elim

/-- A runner goes on at once, except while it waits for its child or for its pump. -/
theorem step_ne_none (v : View) (x : Member) (h : Handle)
    (hs : Stage.waiting.rank < r.stage.rank) (hd : ∀ o, r.stage ≠ .draining o)
    (hg : r.stage ≠ .gone) : r.step v x h .proceed ≠ none := by
  unfold step proceed
  cases hst : r.stage with
  | created | registering | launching | failing f | waiting => simp [hst, Stage.rank] at hs
  | draining o => exact absurd hst (hd o)
  | gone => exact absurd hst hg
  | telling o => dsimp only; split <;> exact Option.some_ne_none _
  | _ => exact Option.some_ne_none _

variable {w : World} {m ms : Nat}

theorem mem_times_of_pump {t : Nat} {p : Pump} (hb : x.body = .handle h) (hr : h.runner = some r)
    (hp : r.pump = some p) (ht : t ∈ p.times) : t ∈ x.times := by
  simp only [Member.times, hb, hr, Option.map_some, Option.getD_some, Runner.times, hp]
  exact List.mem_append_right _ ht

/-- No time passes that a pump would lose. -/
theorem Pumps.pass {due : Option Nat} (hP : Pumps env start T pr k₀ h r w.now due)
    (hx : w.members[m]? = some x) (hb : x.body = .handle h) (hr : h.runner = some r)
    (hp : w.mayPassAt env m ms = true)
    (hd : ∀ p, r.pump = some p → p.isEnded = false → w.now + ms ≤ T + env.settings.gracePeriod)
    (hE : pr.ExitsAlone env start T k₀) : Pumps env start T pr k₀ h r (w.now + ms) due := by
  obtain ⟨p, hpump, ho, hc, hD⟩ := hP
  have hq := (World.quiet_of_not_isReadyAt hx hb hr (World.not_isReadyAt_of_mayPassAt hp)).2 p hpump
  refine ⟨p, hpump, ho, hc, hD.pass (Nat.le_add_right _ _) (hd p hpump) (fun he s cur hcur => ?_)
    hE.noTie⟩
  have hw := hq.waiting he
  cases hn : cur.nextTime with
  | none => rfl
  | some t =>
    have hmem : t ∈ p.times := by
      rw [Pump.times, if_pos hw]
      refine List.mem_append_right _ (List.mem_filterMap.2 ⟨s, ?_, by simp [hcur, hn]⟩)
      cases s <;> simp [Stream.all]
    exact decide_eq_true (World.le_of_mayPassAt hp hx (mem_times_of_pump hb hr hpump hmem)
      (Source.lt_of_nextTime (hq.sources hw s cur hcur) hn))

/-- No time passes beyond the exit of the child. -/
theorem le_exit_of_mayPassAt {c : Child} (hx : w.members[m]? = some x) (hb : x.body = .handle h)
    (hr : h.runner = some r) (hp : w.mayPassAt env m ms = true) (hs : r.stage = .waiting)
    (hc : r.child = some c) (hexit : c.exit.map (·.1) = some T) (hreap : c.reaped = false) :
    w.now + ms ≤ T := by
  obtain ⟨⟨t, st⟩, hce, rfl⟩ := Option.map_eq_some_iff.1 hexit
  have hnone := (World.quiet_of_not_isReadyAt hx hb hr (World.not_isReadyAt_of_mayPassAt hp)).1 .exit
  have hlt : w.now < t := by
    by_contra hle
    simp [step, hs, hc, Child.status?, hreap, hce, World.view, Nat.le_of_not_lt hle] at hnone
  refine World.le_of_mayPassAt hp hx ?_ hlt
  simp [Member.times, hb, hr, times, hs, hc, hce]

/-- **Time that passes keeps a run on the clock.** -/
theorem Timed.pass (hT : Timed env start T pr k₀ h r w.now r.stage)
    (hx : w.members[m]? = some x) (hb : x.body = .handle h) (hr : h.runner = some r)
    (hp : w.mayPassAt env m ms = true) (hE : pr.ExitsAlone env start T k₀) :
    Timed env start T pr k₀ h r (w.now + ms) r.stage := by
  obtain ⟨hstep, hquiet⟩ :=
    World.quiet_of_not_isReadyAt hx hb hr (World.not_isReadyAt_of_mayPassAt hp)
  have hstuck := step_ne_none (r := r) (w.view env m) x h
  cases hst : r.stage with
  | created | registering | launching | failing f => rw [hst] at hT; exact hT.elim
  | waiting =>
    rw [hst] at hT
    obtain ⟨-, ⟨c, hc, hexit, hreap⟩, hP⟩ := hT
    have hle := le_exit_of_mayPassAt hx hb hr hp hst hc hexit hreap
    exact ⟨hle, ⟨c, hc, hexit, hreap⟩, hP.pass hx hb hr hp (fun _ _ _ => by omega) hE⟩
  | draining o =>
    rw [hst] at hT
    obtain ⟨hge, -, hP⟩ := hT
    obtain ⟨p, hpump, ho, -, hD⟩ := id hP
    have hgoing : p.isEnded = false := by
      by_contra he
      rw [Bool.not_eq_false] at he
      have := hstep .proceed
      simp [step, proceed, hst, hpump, he] at this
    -- The pump has seen the order, so that it waits for its deadline too.
    have hq := hquiet p hpump
    have hw := hq.waiting hgoing
    have hdl : p.deadline = some (T + env.settings.gracePeriod) := by
      rcases hD.heeds.knows with hk | ⟨hu, hf | hl⟩
      · rw [hk, ho]
      · exact absurd hf hq.begun
      · rw [(hq.order hw hl).1] at hu
        cases hu
    have hlt : w.now < T + env.settings.gracePeriod := by
      have := hq.deadline hw
      simpa [Pump.isOverdue, hdl] using this
    have hle : w.now + ms ≤ T + env.settings.gracePeriod := by
      refine World.le_of_mayPassAt hp hx (mem_times_of_pump hb hr hpump ?_) hlt
      simp [Pump.times, hw, hdl]
    have hP' := hP.pass hx hb hr hp (fun _ _ _ => hle) hE
    obtain ⟨p', hp', -, -, hD'⟩ := id hP'
    rw [hpump] at hp'
    cases hp'
    exact ⟨Nat.le_add_right_of_le hge,
      hD'.le_finish hE.plain hE.start_le hgoing, hP'⟩
  | gone =>
    rw [hst] at hT
    exact ⟨Nat.le_add_right_of_le hT.1, hT.2⟩
  | _ =>
    refine absurd (hstep .proceed) (hstuck ?_ ?_ ?_)
    · simp [hst, Stage.rank]
    · simp [hst]
    · simp [hst]

/-- A run is over when its end is published. -/
theorem Advance.eq_publishing {a : Action} (ha : Advance env w m x h r a h' r')
    (hg : r'.stage = .gone) :
    r.stage = .gone ∨ a = .runner m .proceed ∧ ∃ o, r.stage = .publishing o := by
  cases ha with
  | act ha =>
    cases ha with
    | publish o hs => exact Or.inr ⟨rfl, o, hs⟩
    | begin hs => simp only [goto] at hg; split at hg <;> cases hg
    | leave o hs => simp only [goto] at hg; split at hg <;> cases hg
    | register n hs _ =>
      split at hg
      · cases hg
      · exact Or.inl hg
    | _ => cases hg
  | pump => exact Or.inl hg
  | idle => exact Or.inl hg

end Runner

namespace World

section
variable (env : Environment) (as : List Action) (m : Nat)

/-- In the world `v` of the run `as` the end of the run of the handle `m` was published,
    when its sink was `k`. -/
def Published (v : World) (k : Sink) : Prop :=
  ∃ x h r o, Did env as m .proceed v x r ∧ x.body = .handle h ∧ h.sink = k ∧
    r.stage = .publishing o

variable (start T : Nat) (pr : Process) (k₀ : Sink)

/-- The end of a run was published when it was to be, and after all its output was
    offered. -/
def PublishedOnTime : Prop :=
  ∃ v k line, Published env as m v k ∧ v.now = pr.finish T env.settings.gracePeriod ∧
    k₀.Received k (fun s => (pr.output.get s).written (T + env.settings.gracePeriod)) line

/-- A run that was launched is on the clock, unless somebody has asked for its end. -/
def OnTime (w : World) : Prop :=
  ∃ x h r, w.members[m]? = some x ∧ x.body = .handle h ∧ h.runner = some r ∧
    (x.cancel = false → Runner.Timed env start T pr k₀ h r w.now r.stage ∧
      (r.stage = .gone → PublishedOnTime env as m T pr k₀))

end

variable {env : Environment} {as : List Action} {a : Action} {m start T : Nat} {pr : Process}
  {k₀ : Sink} {w w' : World}

theorem PublishedOnTime.concat (h : PublishedOnTime env as m T pr k₀) :
    PublishedOnTime env (as ++ [a]) m T pr k₀ := by
  obtain ⟨v, k, line, ⟨x, h, r, o, hd, hrest⟩, hnow, hrec⟩ := h
  exact ⟨v, k, line, ⟨x, h, r, o, hd.mono (List.prefix_append _ _), hrest⟩, hnow, hrec⟩

/-- **The launch sets the clock.** -/
theorem onTime_of_launch {x : Member} {h : Handle} {r : Runner}
    (ha : step env w (.runner m .proceed) = some w') (hx : w.members[m]? = some x)
    (hb : x.body = .handle h) (hr : h.runner = some r) (hs : r.stage = .launching)
    (hl : env.launch r.spec w.now = .ok pr) (hE : pr.ExitsAlone env w.now T h.sink) :
    OnTime env (as ++ [Action.runner m .proceed]) m w.now T pr h.sink w' := by
  obtain ⟨hlt, -⟩ := List.getElem?_eq_some_iff.1 hx
  obtain ⟨n, -, hmem, -, hacted⟩ := hasActed_of_step ha hx hb hr
  obtain ⟨h', r', hact, hb'⟩ := hacted.act
  have hnow : w'.now = w.now := now_of_step ha nofun
  refine ⟨n.member, _, r', by rw [hmem]; simp [hlt], hb', rfl, fun _ => ?_⟩
  cases hact with
  | launch p _ hp =>
    have hpr : env.launch r.spec w.now = .ok p := hp
    rw [hl] at hpr
    cases hpr
    refine ⟨⟨by rw [hnow]; exact hE.start_le, ⟨_, rfl, hE.exit, rfl⟩, _, rfl, rfl, rfl, ?_⟩, nofun⟩
    rw [hnow]
    exact .begin h.sink env.settings.bufferSize (by have := hE.start_le; have := hE.grace; omega)
  | refuse f _ hf =>
    have hpr : env.launch r.spec w.now = .error f := hf
    rw [hl] at hpr
    cases hpr
  | fall line hw _ => rw [hs] at hw; cases hw
  | begin hst | register n hst _ | drain o hst | drained o p hst _ _ | resolve o line hst _
  | silent o hst _ | tellFailure f hst _ | tellEnd o line hst _ | close o hst | leave o hst
  | disable o hst | detach o hst | record o hst | forget o hst | publish o hst =>
    rw [hs] at hst
    cases hst

/-- **Every action of a prompt run keeps it.** -/
theorem OnTime.step (hO : OnTime env as m start T pr k₀ w) (hw : run env {} as = some w)
    (ha : promptAt env m w a = some w') (hE : pr.ExitsAlone env start T k₀) :
    OnTime env (as ++ [a]) m start T pr k₀ w' := by
  obtain ⟨x, h, r, hx, hb, hr, htimed⟩ := hO
  by_cases hpass : ∃ ms, a = .pass ms
  · obtain ⟨ms, rfl⟩ := hpass
    obtain ⟨hp, rfl⟩ := mayPassAt_of_promptAt ha
    refine ⟨x, h, r, hx, hb, hr, fun hc => ?_⟩
    obtain ⟨hT, hpub⟩ := htimed hc
    exact ⟨hT.pass hx hb hr hp hE, fun hg => (hpub hg).concat⟩
  · have hs := step_of_promptAt ha
    have hsound := sound_of_run hw hx
    obtain ⟨x', h', r', hx', hb', hadv⟩ := advance_of_step hs hsound hx hb hr
    have hnow : w'.now = w.now := now_of_step hs fun ms hms => hpass ⟨ms, hms⟩
    refine ⟨x', _, r', hx', hb', rfl, fun hc' => ?_⟩
    have hc : x.cancel = false := by
      obtain ⟨y, hy, hshift⟩ := (effect_of_step hs).shift hx
      rw [hx'] at hy
      cases hy
      have hlater := (hshift.later hsound).cancel
      cases hc : x.cancel with
      | false => rfl
      | true => rw [hlater hc] at hc'; cases hc'
    obtain ⟨hT, hpub⟩ := htimed hc
    refine ⟨hnow ▸ (hT.advance hadv hE hc).congr rfl rfl rfl, fun hg => ?_⟩
    rcases hadv.eq_publishing hg with hg | ⟨rfl, o, ho⟩
    · exact (hpub hg).concat
    · rw [ho] at hT
      obtain ⟨hfin, line, -, hrec⟩ := hT
      exact ⟨w, h.sink, line, ⟨x, h, r, o, ⟨⟨as, Took.last _ hw⟩, hx, h, hb, hr⟩, hb, rfl, ho⟩,
        hfin, hrec⟩

/-- **A prompt run is on the clock from the launch on.** -/
theorem onTime_of_playAt {v : World} {x : Member} {h : Handle} {r : Runner}
    (hw : playAt env m {} as = some w) (hd : Did env as m .proceed v x r)
    (hb : x.body = .handle h) (hs : r.stage = .launching) (hl : env.launch r.spec v.now = .ok pr)
    (hE : pr.ExitsAlone env v.now T h.sink) : OnTime env as m v.now T pr h.sink w := by
  obtain ⟨⟨past, ⟨rest, rfl⟩, hpast⟩, hx, k, hk, hr⟩ := hd
  rw [hb] at hk
  cases hk
  obtain ⟨v', hv', hrest⟩ := playAt_append.1 hw
  have hrun' := run_of_playAt hv'
  obtain ⟨u, hu, ha⟩ := run_concat.1 hrun'
  rw [hpast] at hu
  cases hu
  refine (foldlM_induction (P := fun cs u =>
    run env {} (past ++ [Action.runner m .proceed] ++ cs) = some u ∧
    OnTime env (past ++ [Action.runner m .proceed] ++ cs) m v.now T pr h.sink u) ?_ ?_ hrest).2
  · rw [List.append_nil]
    exact ⟨hrun', onTime_of_launch ha hx hb hr hs hl hE⟩
  · rintro cs b u u' - ⟨hu, hO⟩ hb
    rw [← List.append_assoc]
    exact ⟨run_concat.2 ⟨u, hu, step_of_promptAt hb⟩, hO.step hu hb hE⟩

/-- **Output that was written before a natural exit is never lost, and the run ends in
    time.**  The child of the handle `m` was launched in the world `v` of a prompt run, exits
    by itself at `T`, and nobody asks for its end.  When its end is published all bytes that
    were written in time were offered, those first that were written up to `T`; and it is
    published exactly when it is to be: not before, not later, and each run comes to it. -/
theorem output_survives_exit {v : World} {x₀ x : Member} {h₀ : Handle} {r₀ : Runner}
    (hw : playAt env m {} as = some w) (hd : Did env as m .proceed v x₀ r₀)
    (hb₀ : x₀.body = .handle h₀) (hs : r₀.stage = .launching)
    (hl : env.launch r₀.spec v.now = .ok pr) (hE : pr.ExitsAlone env v.now T h₀.sink)
    (hx : w.members[m]? = some x) (hc : x.cancel = false) :
    ∃ h, x.body = .handle h ∧
      (h.status.state = .finished → pr.finish T env.settings.gracePeriod ≤ w.now ∧
        ∃ u k line, Published env as m u k ∧ u.now = pr.finish T env.settings.gracePeriod ∧
          h₀.sink.Received k
            (fun s => (pr.output.get s).written (T + env.settings.gracePeriod)) line) ∧
      (∀ s, (pr.output.get s).written (T + 1) <+:
        (pr.output.get s).written (T + env.settings.gracePeriod)) ∧
      (pr.finish T env.settings.gracePeriod < w.now → h.status.state = .finished) ∧
      ∃ more w' x' h', playAt env m w more = some w' ∧ w'.members[m]? = some x' ∧
        x'.cancel = false ∧ x'.body = .handle h' ∧ h'.status.state = .finished := by
  have hrun := run_of_playAt hw
  obtain ⟨y, h, r, hy, hb, hr, htimed⟩ := onTime_of_playAt hw hd hb₀ hs hl hE
  rw [hx] at hy
  cases hy
  obtain ⟨hT, hpub⟩ := htimed hc
  have hfin := ((sound_of_run hrun hx h hb).run r hr).finished_iff
  refine ⟨h, hb, fun hf => ?_, fun s => ?_, fun hlt => hfin.2 (hT.eq_gone hlt), ?_⟩
  · have hg := hfin.1 hf
    rw [hg] at hT
    exact ⟨hT.1, hpub hg⟩
  · exact (hE.plain s).written_mono (Nat.add_le_add_left hE.grace T)
  · -- Time goes on beyond the end, and there the run is over.
    obtain ⟨more, w', q, hmore, ⟨x', h', hx', hb', hr', hc', -⟩, hlate⟩ :=
      RunsOn.exists_playAt_to env ⟨x, h, hx, hb, hr, hc, hT.rank_le⟩
        (pr.finish T env.settings.gracePeriod + 1)
    have hw' : playAt env m {} (as ++ more) = some w' := playAt_append.2 ⟨w, hw, hmore⟩
    obtain ⟨y, k, q', hy, hk, hq, htimed'⟩ :=
      onTime_of_playAt hw' (hd.mono (List.prefix_append _ _)) hb₀ hs hl hE
    rw [hx'] at hy
    cases hy
    rw [hb'] at hk
    cases hk
    rw [hr'] at hq
    cases hq
    have hS := (sound_of_run (run_of_playAt hw') hx' h' hb').run q hr'
    exact ⟨more, w', x', h', hmore, hx', hc', hb', hS.finished_iff.2 ((htimed' hc').1.eq_gone hlate)⟩

end World

/-- A host on which every child writes a byte after 1 ms and another one after 2, when it
    exits.  One whom it has started writes to its standard side after 4, and another one holds
    its error side for ever. -/
def Environment.lingering : Environment where
  settings := { gracePeriod := 5, bufferSize := 1 }
  launch := fun _ now => .ok {
    output := ⟨{
        arrivals := [⟨now + 1, .data [104], none⟩, ⟨now + 2, .data [105], none⟩,
          ⟨now + 4, .data [33], some now⟩]
        ownHold := some (now + 2), holders := [⟨now, some (now + 5)⟩] },
      { arrivals := [], ownHold := some (now + 2), holders := [⟨now, none⟩] }⟩
    exit := some (now + 2, .exited 0) }
  exitUnread := fun _ _ _ => none

namespace World

/-- The child of such a host that is launched at 0. -/
theorem exitsAlone_lingering : ∃ pr, (∀ spec, Environment.lingering.launch spec 0 = .ok pr) ∧
    pr.ExitsAlone .lingering 0 2 .storing ∧ pr.finish 2 5 = 7 ∧
    (pr.output.get .out).written 7 = [104, 105, 33] ∧ (pr.output.get .err).written 7 = [] := by
  refine ⟨_, fun _ => rfl, ⟨fun s => ?_, rfl, by decide, by decide, fun _ _ => nofun, fun s => ?_⟩,
    by decide, by decide, by decide⟩
  · cases s with
    | out => exact ⟨by decide, by decide, by decide⟩
    | err => exact ⟨by decide, by decide, by decide⟩
  · cases s <;> decide

/-- A run there: the exit is seen before the byte that was written with it. -/
def lingeringRun : List Action :=
  [.create ["a"] .storing, .start 0 true] ++ List.replicate 5 (.runner 0 .proceed) ++
    [.pump 0 .start, .pass 1, .pump 0 (.read .out), .pass 1, .runner 0 .exit, .runner 0 .proceed,
      .pump 0 .order, .pump 0 (.read .out), .pass 2, .pump 0 (.read .out), .pass 1,
      .pump 0 (.read .out), .pass 2, .pump 0 .timer] ++
    List.replicate 7 (.runner 0 .proceed)

/-- Its end is published when the grace period is over, and all three bytes were offered
    before. -/
theorem output_survives_exit_lingeringRun :
    ∃ w x h u k line bytes, playAt .lingering 0 {} lingeringRun = some w ∧
      w.members[0]? = some x ∧ x.body = .handle h ∧ h.status.state = .finished ∧
      Published .lingering lingeringRun 0 u k ∧ u.now = 7 ∧ Sink.storing.Received k bytes line ∧
      bytes .out = [104, 105, 33] ∧ bytes .err = [] := by
  have hplay : playAt .lingering 0 {} lingeringRun = some _ := rfl
  obtain ⟨pr, hl, hE, hfin, hout, herr⟩ := exitsAlone_lingering
  have hd : Did .lingering lingeringRun 0 .proceed _ _ _ :=
    ⟨⟨lingeringRun.take 6, ⟨lingeringRun.drop 7, rfl⟩, rfl⟩, rfl, _, rfl, rfl⟩
  obtain ⟨h, hb, hpub, -⟩ := output_survives_exit hplay hd rfl rfl (hl _) hE rfl rfl
  cases hb
  obtain ⟨-, u, k, line, hu, hnow, hrec⟩ := hpub rfl
  exact ⟨_, _, _, u, k, line, _, hplay, rfl, rfl, rfl, hu, hnow.trans hfin, hrec, hout, herr⟩

end World

end Supervisor
