/-
  What a pump forwards.

  * `lineCall`: what a sink receives of a line of the supervisor's own, in bytes
    (`Sink.lineBytes_eq`, `Sink.history_notice`);
  * `Pump.Turn`: what each event makes of a pump and its sink
    (`Pump.turn_of_step`);
  * an `Offer` is a write of a pump, told apart as output or as notice of a
    failure; `Pump.Balance d` says that what was offered and what is left to
    hear before `d` make up what there was to hear (`Turn.balance`);
  * `Pump.Timely d` says where a pump stands on the clock that is to end at `d`; one that
    has ended leaves nothing to hear before (`Timely.turn`, `Timely.pass`);
  * `Pump.work`: how much can happen to a pump, of which each turn uses up some
    (`Turn.work_lt`).
-/
import Supervisor.Proofs.Decoding
import Supervisor.Proofs.Hearing
import Supervisor.Pump

namespace Supervisor

/-- The call with a line of the supervisor's own: its UTF-8 bytes, and one newline behind
    them unless it ends in one. -/
def lineCall (line : String) : Stream × Bytes :=
  (.err, line.toUTF8.data.toList ++ if line.toList.getLast? = some '\n' then [] else [10])

theorem Sink.lineBytes_eq (line : String) : lineBytes line =
    line.toUTF8.data.toList ++ if line.toList.getLast? = some '\n' then [] else [10] := by
  rw [← Utf8.ofString_eq, lineBytes]
  split
  · rw [List.append_nil]
  · rw [Utf8.ofString, Utf8.ofString, Utf8.encode, Utf8.encode, String.toList_append,
      List.flatMap_append]
    rfl

/-- The line of a stream that cannot be read any further. -/
def Stream.failureLine (s : Stream) (f : Fault) : String :=
  "error reading " ++ s.name ++ ": " ++ f.message

/-- The calls on a sink, in order: on which stream, and with what. -/
def Sink.history (k : Sink) : List (Stream × Bytes) := k.writes.map fun w => (w.stream, w.data)

@[simp] theorem Sink.history_write (k : Sink) (t : Nat) (s : Stream) (data : Bytes) :
    (k.write t s data).history = k.history ++ [(s, data)] := by
  simp [history]

@[simp] theorem Sink.policy_write (k : Sink) (t : Nat) (s : Stream) (data : Bytes) :
    (k.write t s data).policy = k.policy := rfl

@[simp] theorem Sink.history_notice (k : Sink) (t : Nat) (line : String) :
    (k.notice t line).history = k.history ++ [lineCall line] := by
  rw [notice, history_write, lineBytes_eq]
  rfl

@[simp] theorem Sink.policy_notice (k : Sink) (t : Nat) (line : String) :
    (k.notice t line).policy = k.policy := rfl

namespace Pump

/-! ## Turns -/

/-- A stream is closed. -/
def shut (p : Pump) (s : Stream) : Pump := { p with sources := p.sources.set s none }

/-- Some bytes were taken from a stream. -/
def take (p : Pump) (s : Stream) (rest : Source) (bs : Bytes) : Pump :=
  { p with
    sources := p.sources.set s (some rest)
    taken := p.taken.set s (p.taken.get s + bs.length) }

/-- Where a pump stands after an event. -/
def stageAt (p : Pump) (now : Nat) : PumpStage :=
  if p.isOpen = .both false then .ended .closed
  else if p.isOverdue now then .ended .deadline
  else .waiting

/-- A pump after an event. -/
def settled (p : Pump) (now : Nat) : Pump := { p with stage := p.stageAt now }

theorem settle_eq (p : Pump) (now : Nat) : (p.settle now).1 = p.settled now := by
  unfold settle settled stageAt
  split
  · rfl
  · split <;> rfl

/-- What an event makes of a pump and of its sink. -/
inductive Turn (now : Nat) (p : Pump) (k : Sink) : PumpEvent → Pump → Sink → Prop where
  | start : p.stage = .fresh → Turn now p k .start (p.look.settled now) k
  | finish (s : Stream) {src rest : Source} {load : Payload} : p.stage = .waiting →
      p.sources.get s = some src → src.Read now p.readSize load rest → load.ends = true →
      load.fault? = none → Turn now p k (.read s) ((p.shut s).settled now) k
  | fail (s : Stream) (f : Fault) {src rest : Source} {load : Payload} : p.stage = .waiting →
      p.sources.get s = some src → src.Read now p.readSize load rest → load.ends = true →
      load.fault? = some f → k.verdict .err ≠ .fatal →
      Turn now p k (.read s) ((p.shut s).settled now) (k.notice now (s.failureLine f))
  | failFatal (s : Stream) (f : Fault) {src rest : Source} {load : Payload} :
      p.stage = .waiting → p.sources.get s = some src → src.Read now p.readSize load rest →
      load.ends = true → load.fault? = some f → k.verdict .err = .fatal →
      Turn now p k (.read s) (p.shut s).fall (k.notice now (s.failureLine f))
  | take (s : Stream) {src rest : Source} {load : Payload} : p.stage = .waiting →
      p.sources.get s = some src → src.Read now p.readSize load rest → load.ends = false →
      k.verdict s ≠ .fatal →
      Turn now p k (.read s) ((p.take s rest load.bytes).settled now) (k.write now s load.bytes)
  | takeFatal (s : Stream) {src rest : Source} {load : Payload} : p.stage = .waiting →
      p.sources.get s = some src → src.Read now p.readSize load rest → load.ends = false →
      k.verdict s = .fatal →
      Turn now p k (.read s) (p.take s rest load.bytes).fall (k.write now s load.bytes)
  | look : p.stage = .waiting → p.listening = true → p.order.unseen = true →
      Turn now p k .order (p.look.settled now) k
  | deafen : p.stage = .waiting → p.listening = true → p.order.unseen = false →
      p.order.closed = true → Turn now p k .order ({ p with listening := false }.settled now) k
  | expire : p.stage = .waiting → p.isOverdue now = true →
      Turn now p k .timer { p with stage := .ended .deadline } k

section
variable {now : Nat} {p p' : Pump} {k k' : Sink} {e : PumpEvent} {n : Result}

theorem Result.settle_pump (n : Result) (now : Nat) :
    (n.settle now).pump = n.pump.settled now ∧ (n.settle now).sink = n.sink :=
  ⟨n.pump.settle_eq now, rfl⟩

theorem readSize_pos (p : Pump) : 0 < p.readSize := by
  unfold readSize
  omega

/-- Output that is offered brings the pump down, or it goes on. -/
theorem turn_of_offer {s : Stream} {src rest : Source} {load : Payload} {bs : Bytes}
    (hs : p.stage = .waiting) (hsrc : p.sources.get s = some src)
    (hr : src.Read now p.readSize load rest) (he : load.ends = false) (hb : load.bytes = bs) :
    Turn now p k (.read s) (forward.offer p k now s rest bs).pump
      (forward.offer p k now s rest bs).sink := by
  subst hb
  unfold forward.offer
  cases hv : k.verdict s with
  | stored => simpa only [Result.settle_pump] using .take s hs hsrc hr he (by simp [hv])
  | refused => simpa only [Result.settle_pump] using .take s hs hsrc hr he (by simp [hv])
  | fatal => exact .takeFatal s hs hsrc hr he hv

theorem turn_of_forward {s : Stream} {src rest : Source} {load : Payload}
    (hs : p.stage = .waiting) (hsrc : p.sources.get s = some src)
    (hr : src.Read now p.readSize load rest) :
    Turn now p k (.read s) (p.forward k now s rest load).pump
      (p.forward k now s rest load).sink := by
  unfold forward
  cases load with
  | data bs =>
    cases bs with
    | nil => simpa only [Result.settle_pump] using .finish s hs hsrc hr rfl rfl
    | cons b bs => exact turn_of_offer hs hsrc hr rfl rfl
  | failure f =>
    by_cases hf : f.kind = .interrupted
    · simp only [hf, if_true]
      exact turn_of_offer hs hsrc hr (by simp [Payload.ends, hf]) rfl
    · have he : (Payload.failure f).ends = true := by simp [Payload.ends, hf]
      have hft : (Payload.failure f).fault? = some f := by simp [Payload.fault?, hf]
      simp only [hf, if_false]
      by_cases hv : k.verdict .err = .fatal
      · simp only [hv, if_true]
        exact .failFatal s f hs hsrc hr he hft hv
      · simp only [hv, if_false, Result.settle_pump]
        exact .fail s f hs hsrc hr he hft hv

/-- **The events of a pump are its turns.** -/
theorem turn_of_step (h : p.step k now e = some n) : Turn now p k e n.pump n.sink := by
  cases e with
  | start =>
    simp only [step] at h
    split at h
    · next hs =>
      cases h
      simpa only [Result.settle_pump] using .start hs
    · cases h
  | read s =>
    simp only [step] at h
    split at h
    · next hs =>
      simp only [Option.bind_eq_bind, Option.bind_eq_some_iff, Option.pure_def,
        Option.some.injEq] at h
      obtain ⟨src, hsrc, ⟨load, rest⟩, hr, rfl⟩ := h
      exact turn_of_forward hs hsrc (Source.read_of_eq_some p.readSize_pos hr)
    · cases h
  | order =>
    simp only [step] at h
    split at h
    · next hs =>
      split at h
      · next hu =>
        cases h
        simpa only [Result.settle_pump] using .look hs.1 hs.2 hu
      · next hu =>
        split at h
        · next hc =>
          cases h
          simpa only [Result.settle_pump] using
            .deafen hs.1 hs.2 (by simpa using hu) hc
        · cases h
    · cases h
  | timer =>
    simp only [step] at h
    split at h
    · next hs =>
      cases h
      exact .expire hs.1 hs.2
    · cases h

/-- What nothing can happen to: a pump that waits for its streams, for orders and
    for its deadline, or has ended. -/
structure Quiet (now : Nat) (p : Pump) : Prop where
  begun : p.stage ≠ .fresh
  sources : p.stage = .waiting → ∀ s src, p.sources.get s = some src → src.isReady now = false
  order : p.stage = .waiting → p.listening = true →
    p.order.unseen = false ∧ p.order.closed = false
  deadline : p.stage = .waiting → p.isOverdue now = false

theorem Quiet.waiting (hq : p.Quiet now) (he : p.isEnded = false) : p.stage = .waiting := by
  cases hs : p.stage with
  | fresh => exact absurd hs hq.begun
  | waiting => rfl
  | ended how => simp [isEnded, hs] at he

theorem quiet_of_step (h : ∀ e, p.step k now e = none) : p.Quiet now where
  begun := fun hs => by simpa [step, hs] using h .start
  sources := fun hs s src hsrc => by
    by_contra hr
    rw [Bool.not_eq_false] at hr
    obtain ⟨⟨load, rest⟩, hread⟩ := Option.isSome_iff_exists.1 (Source.read_isSome p.readSize hr)
    simpa [step, hs, hsrc, hread] using h (.read s)
  order := fun hs hl => by
    have ho := h .order
    simp only [step, hs, hl, and_self, if_true] at ho
    split at ho
    · cases ho
    · next hu =>
      split at ho
      · cases ho
      · next hc => exact ⟨by simpa using hu, by simpa using hc⟩
  deadline := fun hs => by
    by_contra hr
    rw [Bool.not_eq_false] at hr
    simpa [step, hs, hr] using h .timer

end

/-! ## How much can happen -/

/-- How much can happen to a stream: each byte may be read on its own. -/
def sourceWork (o : Option Source) : Nat :=
  (o.map fun s => 1 + s.arrivals.length + (s.arrivals.flatMap (·.payload.bytes)).length).getD 0

/-- How much can happen to a pump that has begun. -/
def effort (p : Pump) : Nat :=
  1 + sourceWork p.sources.out + sourceWork p.sources.err + (if p.listening then 1 else 0) +
    (if p.order.unseen then 1 else 0)

/-- How much can happen to a pump before it has ended or waits for good. -/
def work (p : Pump) : Nat :=
  if p.isEnded then 0 else p.effort + if p.stage = .fresh then 1 else 0

section
variable {now : Nat} {p p' : Pump} {k k' : Sink} {e : PumpEvent}

theorem Turn.not_ended (h : Turn now p k e p' k') : p.isEnded = false := by
  cases h <;> simp_all [isEnded]

theorem Turn.bufferSize (h : Turn now p k e p' k') : p'.bufferSize = p.bufferSize := by
  cases h <;> rfl

theorem Turn.policy (h : Turn now p k e p' k') : k'.policy = k.policy := by
  cases h <;> rfl

theorem effort_le_work (he : p.isEnded = false) : p.effort ≤ p.work := by
  rw [work, he]
  exact Nat.le_add_right _ _

theorem work_settled_le (p : Pump) (now : Nat) : (p.settled now).work ≤ p.effort := by
  unfold settled stageAt
  split
  · exact Nat.zero_le _
  · split
    · exact Nat.zero_le _
    · exact Nat.le_refl _

theorem work_give_le (p : Pump) (now grace : Nat) :
    Pump.work { p with order := p.order.give now grace } ≤ p.work + 1 := by
  have heffort : Pump.effort { p with order := p.order.give now grace } ≤ p.effort + 1 := by
    have hle : (if (p.order.give now grace).unseen = true then 1 else 0) ≤ 1 := by split <;> simp
    simp only [effort]
    omega
  have hended : Pump.isEnded { p with order := p.order.give now grace } = p.isEnded := rfl
  rw [work, work, hended]
  split
  · exact Nat.zero_le _
  · dsimp only
    omega

theorem sourceWork_lt {size : Nat} {s rest : Source} {load : Payload}
    (h : s.Read now size load rest) (he : load.ends = false) :
    sourceWork (some rest) < sourceWork (some s) := by
  cases h with
  | finish => cases he
  | whole a as has _ _ =>
    simp only [sourceWork, has, Option.map_some, Option.getD_some, List.length_cons,
      List.flatMap_cons, List.length_append]
    omega
  | part a as bs has _ hp hs hl =>
    simp only [sourceWork, has, hp, Option.map_some, Option.getD_some, List.length_cons,
      List.flatMap_cons, List.length_append, Payload.bytes, List.length_drop]
    omega

/-- Less can happen if less can happen to one stream. -/
theorem effort_set_lt {s : Stream} {o : Option Source}
    (h : sourceWork o < sourceWork (p.sources.get s)) (hs : p'.sources = p.sources.set s o)
    (hl : p'.listening = p.listening) (ho : p'.order = p.order) : p'.effort < p.effort := by
  unfold effort
  rw [hs, hl, ho]
  cases s with
  | out => simp only [PerStream.set, PerStream.get] at h ⊢; omega
  | err => simp only [PerStream.set, PerStream.get] at h ⊢; omega

theorem sourceWork_none_lt (s : Source) : sourceWork none < sourceWork (some s) := by
  simp only [sourceWork, Option.map_none, Option.getD_none, Option.map_some, Option.getD_some]
  omega

theorem work_fall_lt {q : Pump} (he : p.isEnded = false) : q.fall.work < p.work := by
  have hpos : 0 < p.effort := by unfold effort; omega
  exact Nat.lt_of_lt_of_le hpos (effort_le_work he)

/-- **Each turn uses up some of what can happen.** -/
theorem Turn.work_lt (h : Turn now p k e p' k') : p'.work < p.work := by
  have he := h.not_ended
  have hsettled : ∀ q : Pump, q.effort < p.effort → (q.settled now).work < p.work := fun q hq =>
    Nat.lt_of_le_of_lt (q.work_settled_le now) (Nat.lt_of_lt_of_le hq (effort_le_work he))
  cases h with
  | start hs =>
    have hle : p.look.effort ≤ p.effort := Nat.add_le_add_left (Nat.zero_le _) _
    have hp : p.work = p.effort + 1 := by simp [work, he, hs]
    have := p.look.work_settled_le now
    omega
  | finish s _ hcur _ _ _ =>
    exact hsettled _ (effort_set_lt (by rw [hcur]; exact sourceWork_none_lt _) rfl rfl rfl)
  | fail s f _ hcur _ _ _ _ =>
    exact hsettled _ (effort_set_lt (by rw [hcur]; exact sourceWork_none_lt _) rfl rfl rfl)
  | failFatal s f _ _ _ _ _ _ => exact work_fall_lt he
  | take s _ hcur hr hends _ =>
    exact hsettled _ (effort_set_lt (by rw [hcur]; exact sourceWork_lt hr hends) rfl rfl rfl)
  | takeFatal s _ _ _ _ _ => exact work_fall_lt he
  | look _ _ hu =>
    have heq : p.effort = p.look.effort + 1 := by
      simp only [effort, hu, if_true]
      rfl
    exact hsettled _ (by omega)
  | deafen _ hl _ _ =>
    refine hsettled _ ?_
    simp only [effort, hl, if_true, Bool.false_eq_true, if_false]
    omega
  | expire _ _ => exact work_fall_lt (q := p) he

end

end Pump

/-! ## Offers -/

/-- A write of a pump. -/
inductive Offer where
  | output (s : Stream) (bs : Bytes)
  /-- the notice of a stream that was closed by a failure -/
  | notice (s : Stream) (f : Fault)

namespace Offer

/-- The call on the sink. -/
def call : Offer → Stream × Bytes
  | output s bs => (s, bs)
  | notice s f => lineCall (s.failureLine f)

/-- The output of a stream. -/
def output? (s : Stream) : Offer → Option Bytes
  | output t bs => if t = s then some bs else none
  | notice _ _ => none

/-- The failure that closed a stream. -/
def failure? (s : Stream) : Offer → Option Fault
  | output _ _ => none
  | notice t f => if t = s then some f else none

/-- The output of a stream that was offered, in order. -/
def outputs (s : Stream) (os : List Offer) : List Bytes := os.filterMap (output? s)

/-- The failures of a stream that were told, in order. -/
def failures (s : Stream) (os : List Offer) : List Fault := os.filterMap (failure? s)

variable {s : Stream} {os new : List Offer}

@[simp] theorem outputs_append : outputs s (os ++ new) = outputs s os ++ outputs s new :=
  List.filterMap_append

@[simp] theorem failures_append : failures s (os ++ new) = failures s os ++ failures s new :=
  List.filterMap_append

end Offer

namespace Pump

open Offer (outputs failures)

/-! ## What is offered and what is left -/

/-- The offers `os` were made since the sink was `k₀` and the streams were `src`, and
    together with what is left they are what there was to hear before `d`. -/
structure Balance (d : Option Nat) (src : PerStream (Option Source)) (k₀ : Sink) (p : Pump)
    (k : Sink) (os : List Offer) : Prop where
  history : k.history = k₀.history ++ os.map Offer.call
  policy : k.policy = k₀.policy
  heard : ∀ s, (outputs s os).flatten ++ Source.heard d (p.sources.get s) =
    Source.heard d (src.get s)
  failure : ∀ s, failures s os ++ (Source.failure? d (p.sources.get s)).toList =
    (Source.failure? d (src.get s)).toList
  length : ∀ s, ∀ bs ∈ outputs s os, bs.length ≤ p.readSize
  taken : ∀ s, p.taken.get s = (outputs s os).flatten.length
  moments : ∀ s cur, p.sources.get s = some cur →
    ∃ s₀, src.get s = some s₀ ∧ cur.moments ⊆ s₀.moments

section
variable {d : Option Nat} {src : PerStream (Option Source)} {k₀ k k' : Sink} {p p' : Pump}
  {os new : List Offer} {now : Nat} {e : PumpEvent}

theorem Balance.begin (d : Option Nat) (src : PerStream (Option Source)) (k : Sink) (p : Pump)
    (hs : p.sources = src) (ht : p.taken = .both 0) : Balance d src k p k [] where
  history := by simp
  policy := rfl
  heard := fun s => by rw [hs]; rfl
  failure := fun s => by rw [hs]; rfl
  length := fun s bs h => by cases h
  taken := fun s => by rw [ht, PerStream.get_both]; rfl
  moments := fun s cur h => ⟨cur, hs ▸ h, List.Subset.refl _⟩

/-- New offers keep the balance if they are what is no longer left. -/
theorem Balance.add (hB : Balance d src k₀ p k os) (hk : k'.history = k.history ++ new.map Offer.call)
    (hpol : k'.policy = k.policy) (hsize : p'.bufferSize = p.bufferSize)
    (hheard : ∀ s, Source.heard d (p.sources.get s) =
      (outputs s new).flatten ++ Source.heard d (p'.sources.get s))
    (hfail : ∀ s, (Source.failure? d (p.sources.get s)).toList =
      failures s new ++ (Source.failure? d (p'.sources.get s)).toList)
    (hlen : ∀ s, ∀ bs ∈ outputs s new, bs.length ≤ p.readSize)
    (htaken : ∀ s, p'.taken.get s = p.taken.get s + (outputs s new).flatten.length)
    (hmom : ∀ s cur, p'.sources.get s = some cur →
      ∃ c, p.sources.get s = some c ∧ cur.moments ⊆ c.moments) :
    Balance d src k₀ p' k' (os ++ new) where
  history := by rw [hk, hB.history, List.map_append, List.append_assoc]
  policy := hpol.trans hB.policy
  heard := fun s => by
    rw [Offer.outputs_append, List.flatten_append, List.append_assoc, ← hheard s, hB.heard s]
  failure := fun s => by
    rw [Offer.failures_append, List.append_assoc, ← hfail s, hB.failure s]
  length := fun s bs h => by
    have hr : p'.readSize = p.readSize := by rw [readSize, readSize, hsize]
    rw [hr]
    rw [Offer.outputs_append, List.mem_append] at h
    exact h.elim (hB.length s bs) (hlen s bs)
  taken := fun s => by
    rw [htaken s, hB.taken s, Offer.outputs_append, List.flatten_append, List.length_append]
  moments := fun s cur h => by
    obtain ⟨c, hc, hsub⟩ := hmom s cur h
    obtain ⟨s₀, hs₀, hsub₀⟩ := hB.moments s c hc
    exact ⟨s₀, hs₀, List.Subset.trans hsub hsub₀⟩

/-- Nothing is offered, and nothing read. -/
theorem Balance.same (hB : Balance d src k₀ p k os) (hsize : p'.bufferSize = p.bufferSize)
    (hs : p'.sources = p.sources) (ht : p'.taken = p.taken) : Balance d src k₀ p' k os := by
  have : Balance d src k₀ p' k (os ++ []) := hB.add (by simp) rfl hsize
    (fun s => by rw [hs]; rfl) (fun s => by rw [hs]; rfl) (fun s bs h => by cases h)
    (fun s => by rw [ht]; rfl) (fun s cur h => ⟨cur, hs ▸ h, List.Subset.refl _⟩)
  rwa [List.append_nil] at this

/-- A stream that is closed leaves nothing, and its failure is told. -/
theorem Balance.shut {s : Stream} {cur rest : Source} {load : Payload} {size : Nat}
    (hB : Balance d src k₀ p k os) (hcur : p.sources.get s = some cur)
    (hr : cur.Read now size load rest) (he : load.ends = true) (hd : isBefore now d = true)
    (hnew : load.fault?.toList.map (Offer.notice s) = new)
    (hk : k'.history = k.history ++ new.map Offer.call)
    (hpol : k'.policy = k.policy) (hsize : p'.bufferSize = p.bufferSize)
    (hs : p'.sources = p.sources.set s none) (ht : p'.taken = p.taken) :
    Balance d src k₀ p' k' (os ++ new) := by
  subst hnew
  obtain ⟨hheard, hfail⟩ := hr.met_of_ends he hd
  have hget : ∀ t, p'.sources.get t = if t = s then none else p.sources.get t := fun t => by
    rw [hs, PerStream.get_set]
  have hnone : ∀ t, outputs t (load.fault?.toList.map (Offer.notice s)) = [] := fun t => by
    cases load.fault? <;> rfl
  refine hB.add hk hpol hsize (fun t => ?_) (fun t => ?_) (fun t bs h => ?_) (fun t => ?_)
    (fun t c h => ?_)
  · rw [hnone, hget]
    by_cases hts : t = s
    · subst hts; simp [hcur, hheard]
    · simp [hts]
  · rw [hget]
    by_cases hts : t = s
    · subst hts
      rw [hcur, hfail]
      cases load.fault? <;> simp [failures, Offer.failure?]
    · have : failures t (load.fault?.toList.map (Offer.notice s)) = [] := by
        cases load.fault? <;> simp [failures, Offer.failure?, Ne.symm hts]
      simp [this, hts]
  · rw [hnone] at h; cases h
  · rw [ht, hnone]; rfl
  · rw [hget] at h
    by_cases hts : t = s
    · simp [hts] at h
    · exact ⟨c, by simpa [hts] using h, List.Subset.refl _⟩

/-- What is taken from a stream is offered. -/
theorem Balance.take {s : Stream} {cur rest : Source} {load : Payload}
    (hB : Balance d src k₀ p k os) (hcur : p.sources.get s = some cur)
    (hr : cur.Read now p.readSize load rest) (he : load.ends = false) (hd : isBefore now d = true)
    (hk : k'.history = k.history ++ [(s, load.bytes)]) (hpol : k'.policy = k.policy)
    (hsize : p'.bufferSize = p.bufferSize) (hs : p'.sources = p.sources.set s (some rest))
    (ht : p'.taken = p.taken.set s (p.taken.get s + load.bytes.length)) :
    Balance d src k₀ p' k' (os ++ [Offer.output s load.bytes]) := by
  have hget : ∀ t, p'.sources.get t = if t = s then some rest else p.sources.get t := fun t => by
    rw [hs, PerStream.get_set]
  have hout : ∀ t, outputs t [.output s load.bytes] = if t = s then [load.bytes] else [] := by
    intro t
    by_cases hts : t = s
    · simp [outputs, Offer.output?, hts]
    · simp [outputs, Offer.output?, hts, Ne.symm hts]
  refine hB.add hk hpol hsize (fun t => ?_) (fun t => ?_) (fun t bs h => ?_) (fun t => ?_)
    (fun t c h => ?_)
  · rw [hout, hget]
    by_cases hts : t = s
    · subst hts
      simp [hcur, hr.heard he hd]
    · simp [hts]
  · rw [hget]
    by_cases hts : t = s
    · subst hts
      simp [hcur, hr.failure? he hd, failures, Offer.failure?]
    · simp [hts, failures, Offer.failure?]
  · rw [hout] at h
    by_cases hts : t = s
    · have hbs : bs = load.bytes := by simpa [hts] using h
      rw [hbs]
      exact hr.length_le
    · simp [hts] at h
  · rw [ht, PerStream.get_set, hout]
    by_cases hts : t = s
    · simp [hts]
    · simp [hts]
  · rw [hget] at h
    by_cases hts : t = s
    · subst hts
      simp only [if_true, Option.some.injEq] at h
      subst h
      exact ⟨cur, hcur, hr.moments_subset⟩
    · exact ⟨c, by simpa [hts] using h, List.Subset.refl _⟩

/-- **A turn offers what it takes from what is left**, if it reads only before
    `d`. -/
theorem Turn.balance (h : Turn now p k e p' k') (src : PerStream (Option Source)) (k₀ : Sink) :
    ∃ new : List Offer, ∀ d os,
    Balance d src k₀ p k os → ((∃ s, e = .read s) → isBefore now d = true) →
    Balance d src k₀ p' k' (os ++ new) := by
  cases h with
  | finish s _ hcur hr he hf =>
    refine ⟨[], fun d os hB hd => ?_⟩
    exact hB.shut hcur hr he (hd ⟨s, rfl⟩) (by rw [hf]; rfl) (by simp) rfl rfl rfl rfl
  | fail s f _ hcur hr he hf _ =>
    refine ⟨[.notice s f], fun d os hB hd => ?_⟩
    exact hB.shut hcur hr he (hd ⟨s, rfl⟩) (by rw [hf]; rfl) (by simp [Offer.call]) rfl rfl rfl rfl
  | failFatal s f _ hcur hr he hf _ =>
    refine ⟨[.notice s f], fun d os hB hd => ?_⟩
    exact hB.shut hcur hr he (hd ⟨s, rfl⟩) (by rw [hf]; rfl) (by simp [Offer.call]) rfl rfl rfl rfl
  | take s _ hcur hr he _ =>
    exact ⟨[.output s _], fun d os hB hd =>
      hB.take hcur hr he (hd ⟨s, rfl⟩) (k.history_write now s _) rfl rfl rfl rfl⟩
  | takeFatal s _ hcur hr he _ =>
    exact ⟨[.output s _], fun d os hB hd =>
      hB.take hcur hr he (hd ⟨s, rfl⟩) (k.history_write now s _) rfl rfl rfl rfl⟩
  | _ =>
    refine ⟨[], fun d os hB _ => ?_⟩
    rw [List.append_nil]
    exact hB.same rfl rfl rfl

end

/-! ## Where a pump stands on the clock -/

/-- When the end of a stream can be read that is looked at from a time on; one that
    is not open has ended. -/
def closingFrom (start : Nat) : Option Source → Option Nat
  | none => some start
  | some s => Source.later (some start) s.closing

/-- A pump that has not ended, on the clock.  `d` is when it has to end, and
    `c` when the ends of its streams can be read. -/
structure Running (d : Option Nat) (c : PerStream (Option Nat)) (now : Nat) (p : Pump) :
    Prop where
  /-- it has not come to its deadline -/
  early : d.all (now ≤ ·) = true
  /-- at its deadline there is nothing to read -/
  still : d = some now → ∀ s cur, p.sources.get s = some cur → cur.isReady now = false
  closing : ∀ s cur, p.sources.get s = some cur → c.get s = Source.later (some now) cur.closing
  closed : ∀ s, p.sources.get s = none → (c.get s).any (· ≤ now) = true
  order : p.order.deadline = none ∨ p.order.deadline = d
  deadline : p.deadline = none ∨ p.deadline = d

/-- A pump that has ended: because its deadline had passed, or because its
    streams were closed. -/
structure Stopped (d : Option Nat) (c : PerStream (Option Nat)) (now : Nat) (p : Pump) :
    Prop where
  met : ∀ s, Source.met d (p.sources.get s) = []
  due : d.any (· ≤ now) = true ∨ ∀ s, (c.get s).any (· ≤ now) = true

/-- A pump on the clock. -/
structure Timely (d : Option Nat) (c : PerStream (Option Nat)) (now : Nat) (p : Pump) :
    Prop where
  alive : p.stage ≠ .ended .fatal
  running : p.isEnded = false → Running d c now p
  stopped : p.isEnded = true → Stopped d c now p

section
variable {d : Option Nat} {c : PerStream (Option Nat)} {k k' : Sink} {p p' : Pump} {now : Nat}
  {e : PumpEvent}

/-- A pump that has not begun is on the clock. -/
theorem Timely.begin (hs : p.stage = .fresh) (ho : p.order.deadline = none)
    (hd : p.deadline = none) (hearly : d.all (now ≤ ·) = true)
    (hstill : d = some now → ∀ s cur, p.sources.get s = some cur → cur.isReady now = false) :
    Timely d (p.sources.map (closingFrom now)) now p where
  alive := by rw [hs]; nofun
  running := fun _ => {
    early := hearly
    still := hstill
    closing := fun s cur hcur => by rw [PerStream.get_map, hcur]; rfl
    closed := fun s hnone => by rw [PerStream.get_map, hnone]; simp [closingFrom]
    order := Or.inl ho
    deadline := Or.inl hd }
  stopped := fun he => by simp [isEnded, hs] at he

theorem Running.congr (hR : Running d c now p) (hs : p'.sources = p.sources)
    (ho : p'.order.deadline = none ∨ p'.order.deadline = d)
    (hd : p'.deadline = none ∨ p'.deadline = d) : Running d c now p' where
  early := hR.early
  still := by rw [hs]; exact hR.still
  closing := by rw [hs]; exact hR.closing
  closed := by rw [hs]; exact hR.closed
  order := ho
  deadline := hd

/-- A pump whose deadline has passed stands at its deadline, with nothing to
    read. -/
theorem Running.expire (hR : Running d c now p) (ho : p.isOverdue now = true) :
    d = some now ∧ ∀ s, Source.met d (p.sources.get s) = [] := by
  have hd : d = some now := by
    obtain ⟨t, ht, hle⟩ := (Option.any_eq_true _ _).1 ho
    rcases hR.deadline with hn | hd
    · rw [hn] at ht; cases ht
    · have hearly := hR.early
      rw [← hd, ht] at hearly ⊢
      simp only [Option.all_some, decide_eq_true_eq] at hearly hle
      rw [Nat.le_antisymm hle hearly]
  refine ⟨hd, fun s => ?_⟩
  cases hs : p.sources.get s with
  | none => rfl
  | some cur => exact Source.met_eq_nil (hR.still hd s cur hs) (Or.inl (by simp [hd, isBefore]))

/-- A pump that ends at its deadline. -/
theorem Running.stopped (hR : Running d c now p) (ho : p.isOverdue now = true)
    (hs : p'.sources = p.sources) : Stopped d c now p' := by
  obtain ⟨hd, hmet⟩ := hR.expire ho
  exact ⟨by rw [hs]; exact hmet, Or.inl (by simp [hd])⟩

theorem isOpen_eq_both_false : p.isOpen = .both false ↔ ∀ s, p.sources.get s = none := by
  have hget : ∀ s, p.isOpen.get s = (p.sources.get s).isSome := fun s => PerStream.get_map _ _ s
  constructor
  · intro h s
    have := hget s
    rw [h, PerStream.get_both] at this
    cases hs : p.sources.get s with
    | none => rfl
    | some cur => rw [hs] at this; cases this
  · intro h
    have hout := h .out
    have herr := h .err
    simp only [PerStream.get] at hout herr
    simp [isOpen, PerStream.map, PerStream.both, hout, herr]

theorem exists_isOpen_of_settled (h : (p.settled now).isEnded = false) :
    ∃ s cur, (p.settled now).sources.get s = some cur := by
  by_contra hnone
  have hclosed : p.isOpen = .both false := isOpen_eq_both_false.2 fun s => by
    cases hs : p.sources.get s with
    | none => rfl
    | some cur => exact absurd ⟨s, cur, hs⟩ hnone
  simp [settled, stageAt, hclosed, isEnded] at h

/-- A pump that goes on after a turn has a stream that is open. -/
theorem Turn.exists_isOpen (h : Turn now p k e p' k') (he : p'.isEnded = false) :
    ∃ s cur, p'.sources.get s = some cur := by
  cases h with
  | failFatal | takeFatal | expire => cases he
  | _ => exact exists_isOpen_of_settled he

/-- **After a turn a pump goes on, or ends for a reason.** -/
theorem Running.settled (hR : Running d c now p) : Timely d c now (p.settled now) := by
  unfold Pump.settled stageAt
  by_cases hopen : p.isOpen = .both false
  · have hnone := isOpen_eq_both_false.1 hopen
    rw [if_pos hopen]
    exact ⟨nofun, nofun, fun _ => ⟨fun s => by rw [hnone s]; rfl,
      Or.inr fun s => hR.closed s (hnone s)⟩⟩
  · rw [if_neg hopen]
    by_cases ho : p.isOverdue now = true
    · rw [if_pos ho]
      exact ⟨nofun, nofun, fun _ => hR.stopped ho rfl⟩
    · rw [if_neg ho]
      exact ⟨nofun, fun _ => hR.congr rfl hR.order hR.deadline, nofun⟩

/-- A pump that stands at its deadline does not read. -/
theorem Running.isBefore {s : Stream} {cur : Source} (hR : Running d c now p)
    (hcur : p.sources.get s = some cur) (hr : cur.isReady now = true) :
    Supervisor.isBefore now d = true := by
  have hearly := hR.early
  cases hd : d with
  | none => rfl
  | some t =>
    have hne : t ≠ now := by
      rintro rfl
      have := hR.still hd s cur hcur
      rw [hr] at this
      cases this
    rw [hd] at hearly
    simp only [Supervisor.isBefore, Option.all_some, decide_eq_true_eq] at hearly ⊢
    omega

/-- One stream has changed, at a time at which it was read. -/
theorem Running.update {s : Stream} {cur : Source} {o : Option Source} (hR : Running d c now p)
    (hcur : p.sources.get s = some cur) (hr : cur.isReady now = true)
    (hs : p'.sources = p.sources.set s o) (ho : p'.order = p.order) (hd : p'.deadline = p.deadline)
    (hclosing : ∀ next, o = some next → c.get s = Source.later (some now) next.closing)
    (hclosed : o = none → (c.get s).any (· ≤ now) = true) : Running d c now p' := by
  have hget : ∀ t, p'.sources.get t = if t = s then o else p.sources.get t := fun t => by
    rw [hs, PerStream.get_set]
  refine ⟨hR.early, fun hdn => ?_, fun t next ht => ?_, fun t ht => ?_, by rw [ho]; exact hR.order,
    by rw [hd]; exact hR.deadline⟩
  · have := hR.still hdn s cur hcur
    rw [hr] at this
    cases this
  · rw [hget] at ht
    by_cases hts : t = s
    · subst hts; exact hclosing next (by simpa using ht)
    · exact hR.closing t next (by simpa [hts] using ht)
  · rw [hget] at ht
    by_cases hts : t = s
    · subst hts; exact hclosed (by simpa using ht)
    · exact hR.closed t (by simpa [hts] using ht)

/-- A stream is closed when its end is read. -/
theorem Running.shut {s : Stream} {cur rest : Source} {load : Payload} {size : Nat}
    (hR : Running d c now p) (hcur : p.sources.get s = some cur)
    (hr : cur.Read now size load rest) (he : load.ends = true) : Running d c now (p.shut s) := by
  refine hR.update hcur hr.isReady rfl rfl rfl nofun fun _ => ?_
  obtain ⟨t, ht, hle⟩ := (Option.any_eq_true _ _).1 (hr.closing_of_ends he)
  rw [hR.closing s cur hcur, ht]
  simp only [decide_eq_true_eq] at hle
  simp only [Source.later_some, Option.any_some, decide_eq_true_eq]
  omega

theorem Running.take {s : Stream} {cur rest : Source} {load : Payload} {size : Nat}
    {bs : Bytes} (hR : Running d c now p) (hcur : p.sources.get s = some cur)
    (hr : cur.Read now size load rest) (he : load.ends = false) :
    Running d c now (p.take s rest bs) := by
  refine hR.update hcur hr.isReady rfl rfl rfl (fun next hn => ?_) nofun
  cases hn
  rw [hR.closing s cur hcur, hr.closing he]

/-- A pump of which only the order has changed. -/
theorem Timely.congr (hT : Timely d c now p) (hst : p'.stage = p.stage)
    (hs : p'.sources = p.sources) (hd : p'.deadline = p.deadline)
    (ho : p'.order.deadline = none ∨ p'.order.deadline = d) : Timely d c now p' where
  alive := by rw [hst]; exact hT.alive
  running := fun he => by
    have hR := hT.running (by rwa [isEnded, hst] at he)
    exact hR.congr hs ho (by rw [hd]; exact hR.deadline)
  stopped := fun he => by
    obtain ⟨hmet, hdue⟩ := hT.stopped (by rwa [isEnded, hst] at he)
    exact ⟨by rw [hs]; exact hmet, hdue⟩

/-- **A turn keeps a pump on the clock**, unless the sink brings it down. -/
theorem Timely.turn (hT : Timely d c now p) (h : Turn now p k e p' k')
    (hk : ∀ s, k.verdict s ≠ .fatal) : Timely d c now p' := by
  have hR := hT.running h.not_ended
  have hlook : Running d c now p.look := hR.congr rfl hR.order hR.order
  cases h with
  | start _ => exact hlook.settled
  | finish s _ hcur hr he _ => exact (hR.shut hcur hr he).settled
  | fail s f _ hcur hr he _ _ => exact (hR.shut hcur hr he).settled
  | failFatal s f _ _ _ _ _ hv => exact absurd hv (hk _)
  | take s _ hcur hr he _ => exact (hR.take hcur hr he).settled
  | takeFatal s _ _ _ _ hv => exact absurd hv (hk _)
  | look _ _ _ => exact hlook.settled
  | deafen _ _ _ _ =>
    have hdeaf : Running d c now { p with listening := false } := hR.congr rfl hR.order hR.deadline
    exact hdeaf.settled
  | expire _ ho => exact ⟨nofun, nofun, fun _ => hR.stopped ho rfl⟩

/-- A pump on the clock reads only before its deadline. -/
theorem Timely.isBefore_of_read (hT : Timely d c now p) (h : Turn now p k e p' k')
    (hs : ∃ s, e = .read s) : isBefore now d = true := by
  have hR := hT.running h.not_ended
  obtain ⟨s, rfl⟩ := hs
  cases h with
  | finish _ _ hcur hr _ _ => exact hR.isBefore hcur hr.isReady
  | fail _ _ _ hcur hr _ _ _ => exact hR.isBefore hcur hr.isReady
  | failFatal _ _ _ hcur hr _ _ _ => exact hR.isBefore hcur hr.isReady
  | take _ _ hcur hr _ _ => exact hR.isBefore hcur hr.isReady
  | takeFatal _ _ hcur hr _ _ => exact hR.isBefore hcur hr.isReady

/-- **Time passes** up to the next thing that a quiet pump waits for. -/
theorem Timely.pass {now' : Nat} (hT : Timely d c now p) (hle : now ≤ now')
    (hd : p.isEnded = false → d.all (now' ≤ ·) = true)
    (hnext : p.isEnded = false → ∀ s cur, p.sources.get s = some cur →
      cur.nextTime.all (now' ≤ ·) = true ∧ ∀ t, d = some t → t ∉ cur.moments) :
    Timely d c now' p where
  alive := hT.alive
  running := fun he => by
    have hR := hT.running he
    refine ⟨hd he, fun hdn s cur hcur => ?_, fun s cur hcur => ?_, fun s hs => ?_, hR.order,
      hR.deadline⟩
    · obtain ⟨hnt, htie⟩ := hnext he s cur hcur
      refine Source.isReady_eq_false ?_
      cases hn : cur.nextTime with
      | none => rfl
      | some t =>
        have hne : t ≠ now' := by
          rintro rfl
          exact htie _ hdn (Source.nextTime_mem_moments hn)
        rw [hn] at hnt
        simp only [Option.all_some, decide_eq_true_eq] at hnt ⊢
        omega
    · have hclose := Source.nextTime_le_closing (hnext he s cur hcur).1
      have hclose' : cur.closing.all (now ≤ ·) = true := by
        cases hc : cur.closing with
        | none => rfl
        | some t => rw [hc] at hclose; simp at hclose ⊢; omega
      rw [hR.closing s cur hcur, Source.later_eq_right hclose, Source.later_eq_right hclose']
    · obtain ⟨t, ht, hlt⟩ := (Option.any_eq_true _ _).1 (hR.closed s hs)
      simp only [decide_eq_true_eq] at hlt
      simp only [ht, Option.any_some, decide_eq_true_eq]
      omega
  stopped := fun he => by
    obtain ⟨hmet, hdue⟩ := hT.stopped he
    have hmono : ∀ x : Option Nat, x.any (· ≤ now) = true → x.any (· ≤ now') = true := by
      intro x hx
      obtain ⟨t, ht, hlt⟩ := (Option.any_eq_true _ _).1 hx
      simp only [decide_eq_true_eq] at hlt
      simp only [ht, Option.any_some, decide_eq_true_eq]
      omega
    exact ⟨hmet, hdue.imp (hmono _) fun h s => hmono _ (h s)⟩

end

end Pump

end Supervisor
