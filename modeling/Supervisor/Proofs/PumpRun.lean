/-
  Prompt runs of a pump.

  * `Run.play`: moves one after the other, in any order, where time passes only
    while nothing can happen;
  * `dueOf`: the deadline that orders come to;
  * `Run.Sound`: what is offered and what is left balance, and the pump is on the
    clock, in every prompt run (`sound_of_play`);
  * `exists_quiet_at`: every prompt run can be played on to any time, unless its
    pump ends; and a run that makes the first move that it can is prompt
    (`exists_play_of_runFor`);
  * `forwards_exactly` puts these together.
-/
import Mathlib.Data.List.MinMax
import Supervisor.Proofs.Forwarding
import Supervisor.Proofs.Run
import Supervisor.Pump.Run

namespace Supervisor.Pump

open Offer (outputs failures)

/-! ## Orders -/

/-- The deadline that orders come to which are carried out from a time on: that of
    the first, if it is one to finish. -/
def dueOf (now : Nat) : List (Nat × Order) → Option Nat
  | [] => none
  | (t, .drain grace) :: _ => some (max now t + grace)
  | (_, .leave) :: _ => none

/-- The deadline of an order, given or to come. -/
def dueAt (now : Nat) (orders : List (Nat × Order)) (o : DrainOrder) : Option Nat :=
  o.deadline <|> if o.closed then none else dueOf now orders

theorem dueAt_give {now t grace : Nat} {rest : List (Nat × Order)} (o : DrainOrder)
    (ht : t ≤ now) :
    dueAt now rest (o.give now grace) = dueAt now ((t, .drain grace) :: rest) o := by
  obtain ⟨deadline, unseen, closed⟩ := o
  cases closed with
  | true => simp [dueAt, DrainOrder.give]
  | false => cases deadline <;> simp [dueAt, dueOf, DrainOrder.give, ht]

theorem dueAt_close {now t : Nat} {rest : List (Nat × Order)} (o : DrainOrder) :
    dueAt now rest o.close = dueAt now ((t, .leave) :: rest) o := by
  cases hc : o.closed <;> simp [dueAt, dueOf, DrainOrder.close, hc]

/-- **To carry out the next order does not change what they come to.** -/
theorem dueAt_obey {now t : Nat} {o : Order} {rest : List (Nat × Order)} {p : Pump}
    (ht : t ≤ now) :
    dueAt now rest (p.obey now o).order = dueAt now ((t, o) :: rest) p.order := by
  cases o with
  | drain grace => exact dueAt_give p.order ht
  | leave => exact dueAt_close p.order

/-- What orders come to does not change while none is due. -/
theorem dueAt_pass {now now' : Nat} {orders : List (Nat × Order)} {o : DrainOrder}
    (hle : now ≤ now') (h : ∀ t x rest, orders = (t, x) :: rest → now' ≤ t) :
    dueAt now' orders o = dueAt now orders o := by
  unfold dueAt
  cases orders with
  | nil => rfl
  | cons y rest =>
    obtain ⟨t, x⟩ := y
    have := h t x rest rfl
    cases x with
    | drain grace =>
      have hmax : max now' t = max now t := by omega
      simp [dueOf, hmax]
    | leave => rfl

theorem work_obey_le (p : Pump) (now : Nat) (o : Order) : (p.obey now o).work ≤ p.work + 1 := by
  cases o with
  | drain grace => exact p.work_give_le now grace
  | leave => exact Nat.le_succ _

/-- What a pump knows of its orders: it listens as long as there may be some, and
    obeys the deadline unless it is still to look at it. -/
structure Heeds (p : Pump) : Prop where
  deaf : p.listening = false → p.order.closed = true
  knows : p.deadline = p.order.deadline ∨
    p.order.unseen = true ∧ (p.stage = .fresh ∨ p.listening = true)

theorem Heeds.obey {p : Pump} (h : p.Heeds) (now : Nat) (o : Order) : (p.obey now o).Heeds := by
  cases o with
  | leave => exact ⟨fun _ => rfl, h.knows⟩
  | drain grace =>
    by_cases hg : p.order.closed || p.order.deadline.isSome
    · have : p.obey now (.drain grace) = p := by simp [Pump.obey, DrainOrder.give, hg]
      rwa [this]
    · have hc : p.order.closed = false := by
        cases hc : p.order.closed with
        | false => rfl
        | true => rw [hc] at hg; exact absurd rfl hg
      have hl : p.listening = true := by
        cases hl : p.listening with
        | true => rfl
        | false => rw [h.deaf hl] at hc; cases hc
      refine ⟨fun hl' => ?_, Or.inr ⟨?_, Or.inr hl⟩⟩
      · rw [show (p.obey now (.drain grace)).listening = p.listening from rfl, hl] at hl'
        cases hl'
      · simp [Pump.obey, DrainOrder.give, hg]

theorem Turn.heeds {now : Nat} {p p' : Pump} {k k' : Sink} {e : PumpEvent}
    (ht : Turn now p k e p' k') (h : p.Heeds) :
    p'.Heeds ∧ p'.order.deadline = p.order.deadline ∧ p'.order.closed = p.order.closed := by
  have hwait : p.stage = .waiting → p.deadline = p.order.deadline ∨
      p.order.unseen = true ∧ p.listening = true := fun hs => by
    rcases h.knows with hk | ⟨hu, hf | hl⟩
    · exact Or.inl hk
    · rw [hs] at hf; cases hf
    · exact Or.inr ⟨hu, hl⟩
  cases ht with
  | start _ => exact ⟨⟨h.deaf, Or.inl rfl⟩, rfl, rfl⟩
  | look _ _ _ => exact ⟨⟨h.deaf, Or.inl rfl⟩, rfl, rfl⟩
  | deafen hs _ hu hc =>
    refine ⟨⟨fun _ => hc, Or.inl ?_⟩, rfl, rfl⟩
    rcases hwait hs with hk | ⟨hu', -⟩
    · exact hk
    · rw [hu] at hu'; cases hu'
  | expire hs _ => exact ⟨⟨h.deaf, (hwait hs).imp id fun ⟨hu, hl⟩ => ⟨hu, Or.inr hl⟩⟩, rfl, rfl⟩
  | _ =>
    exact ⟨⟨h.deaf, (hwait ‹_›).imp id fun ⟨hu, hl⟩ => ⟨hu, Or.inr hl⟩⟩, rfl, rfl⟩

namespace Run

/-! ## Prompt runs -/

/-- A run from its beginning. -/
def begin (size : Nat) (src : PerStream (Option Source)) (k : Sink)
    (orders : List (Nat × Order)) : Run :=
  { pump := { bufferSize := size, sources := src }, sink := k, orders }

/-- One move of a prompt run. -/
def prompt (r : Run) : Move → Option Run
  | .pass ms => if r.mayPass ms then r.step (.pass ms) else none
  | m => r.step m

/-- Moves of a prompt run, one after the other. -/
def play (r : Run) (ms : List Move) : Option Run := ms.foldlM prompt r

variable {r r' : Run} {d : Option Nat} {src : PerStream (Option Source)} {k : Sink}
  {orders : List (Nat × Order)} {size : Nat} {ms : List Move}

theorem step_event {e : PumpEvent} (h : r.step (.event e) = some r') :
    ∃ p' k' log, Turn r.now r.pump r.sink e p' k' ∧
      r' = { r with pump := p', sink := k', behind := log } := by
  simp only [step, Option.bind_eq_bind, Option.bind_eq_some_iff, Option.pure_def,
    Option.some.injEq] at h
  obtain ⟨n, hn, rfl⟩ := h
  exact ⟨n.pump, n.sink, _, turn_of_step hn, rfl⟩

theorem step_order (h : r.step .order = some r') :
    ∃ t o rest, r.orders = (t, o) :: rest ∧ t ≤ r.now ∧
      r' = { r with pump := r.pump.obey r.now o, orders := rest } := by
  simp only [step] at h
  split at h
  · cases h
  · next t o rest heq =>
    split at h
    · next ht =>
      cases h
      exact ⟨t, o, rest, heq, ht, rfl⟩
    · cases h

/-- While nothing can happen the pump is quiet, and no order is due. -/
theorem quiet_of_not_isReady (h : r.isReady = false) :
    r.pump.Quiet r.now ∧ ∀ t o rest, r.orders = (t, o) :: rest → r.now < t := by
  simp only [isReady, instant, List.any_eq_false, List.mem_cons, List.mem_map] at h
  refine ⟨quiet_of_step (k := r.sink) fun e => ?_, fun t o rest hrest => ?_⟩
  · have he : e ∈ Pump.events := by cases e <;> simp [Pump.events]; rename_i s; cases s <;> simp
    have hn := h (.event e) (Or.inr ⟨e, he, rfl⟩)
    cases hp : r.pump.step r.sink r.now e with
    | none => rfl
    | some n => simp [step, hp] at hn
  · have hn := h .order (Or.inl rfl)
    by_contra hle
    simp [step, hrest, Nat.le_of_not_lt hle] at hn

theorem not_isReady_of_mayPass {n : Nat} (h : r.mayPass n = true) : r.isReady = false := by
  simp only [mayPass, Bool.and_eq_true, Bool.not_eq_true'] at h
  exact h.1

/-- A time that may pass ends no later than what could happen next. -/
theorem le_of_mayPass {ms : Nat} (h : r.mayPass ms = true) {t : Nat} (ht : t ∈ r.times) :
    r.now + ms ≤ t := by
  simp only [mayPass, Bool.and_eq_true] at h
  have hall := h.2
  simp only [nextTime] at hall
  cases hm : r.times.min? with
  | none => rw [List.min?_eq_none_iff] at hm; rw [hm] at ht; cases ht
  | some u =>
    rw [hm] at hall
    simp only [Option.all_some, decide_eq_true_eq] at hall
    exact Nat.le_trans hall ((List.min?_eq_some_iff.1 hm).2 t ht)

/-! ## What every move keeps -/

/-- A run on the clock that is to end at `d`, and has offered what was there to
    hear since the streams were `src` and the sink `k`. -/
structure Sound (d : Option Nat) (src : PerStream (Option Source)) (k : Sink) (r : Run) :
    Prop where
  balance : ∃ os, ∀ d', d' = d ∨ isBefore r.now d' = true → Balance d' src k r.pump r.sink os
  timely : Timely d ⟨closingFrom 0 src.out, closingFrom 0 src.err⟩ r.now r.pump
  due : dueAt r.now r.orders r.pump.order = d
  heeds : r.pump.Heeds

/-- Nothing of a stream can be read for the first time at the deadline. -/
def NoTie (d : Option Nat) (src : PerStream (Option Source)) : Prop :=
  ∀ s cur t, src.get s = some cur → d = some t → t ∉ cur.moments

theorem deadline_eq_dueAt {now : Nat} (o : DrainOrder) :
    o.deadline = none ∨ o.deadline = dueAt now orders o := by
  cases h : o.deadline with
  | none => exact Or.inl rfl
  | some x => exact Or.inr (by simp [dueAt, h])

theorem Sound.begin (htie : NoTie (dueOf 0 orders) src) :
    Sound (dueOf 0 orders) src k (begin size src k orders) where
  balance := ⟨[], fun d' _ => .begin d' src k _ rfl rfl⟩
  timely := by
    have hearly : (dueOf 0 orders).all (0 ≤ ·) = true := by cases dueOf 0 orders <;> rfl
    refine Timely.begin (p := (Run.begin size src k orders).pump) rfl rfl rfl hearly
      fun hd s cur hcur => Source.isReady_eq_false ?_
    cases hn : cur.nextTime with
    | none => rfl
    | some t =>
      have hne : t ≠ 0 := fun h0 =>
        htie s cur t hcur (by rw [hd, h0]) (Source.nextTime_mem_moments hn)
      exact decide_eq_true (Nat.pos_of_ne_zero hne)
  due := by cases h : dueOf 0 orders <;> simp [Run.begin, dueAt, h]
  heeds := ⟨nofun, Or.inl rfl⟩

theorem Sound.event {e : PumpEvent} (hS : Sound d src k r) (hk : ∀ s n, k.policy s n ≠ .fatal)
    (h : r.step (.event e) = some r') : Sound d src k r' := by
  obtain ⟨p', k', log, ht, rfl⟩ := step_event h
  obtain ⟨os, hB⟩ := hS.balance
  obtain ⟨new, hnew⟩ := ht.balance src k
  obtain ⟨hheeds, hdl, hcl⟩ := ht.heeds hS.heeds
  have hverdict : ∀ s, r.sink.verdict s ≠ .fatal := fun s => by
    rw [Sink.verdict, (hB d (Or.inl rfl)).policy]
    exact hk s _
  refine ⟨⟨os ++ new, fun d' hd' => hnew d' os (hB d' hd') fun hread => ?_⟩,
    hS.timely.turn ht hverdict, ?_, hheeds⟩
  · rcases hd' with rfl | hd'
    · exact hS.timely.isBefore_of_read ht hread
    · exact hd'
  · have hdue := hS.due
    simp only [dueAt] at hdue ⊢
    rw [hdl, hcl, hdue]

theorem Sound.order (hS : Sound d src k r) (h : r.step .order = some r') : Sound d src k r' := by
  obtain ⟨t, o, rest, ho, ht, rfl⟩ := step_order h
  obtain ⟨os, hB⟩ := hS.balance
  have hdue : dueAt r.now rest (r.pump.obey r.now o).order = d := by
    rw [dueAt_obey ht, ← ho, hS.due]
  have hsame : (r.pump.obey r.now o).sources = r.pump.sources ∧
      (r.pump.obey r.now o).taken = r.pump.taken ∧
      (r.pump.obey r.now o).bufferSize = r.pump.bufferSize ∧
      (r.pump.obey r.now o).deadline = r.pump.deadline ∧
      (r.pump.obey r.now o).stage = r.pump.stage := by cases o <;> exact ⟨rfl, rfl, rfl, rfl, rfl⟩
  obtain ⟨hsrc, htk, hsize, hdl, hst⟩ := hsame
  refine ⟨⟨os, fun d' hd' => (hB d' hd').same hsize hsrc htk⟩, ?_, hdue, hS.heeds.obey _ _⟩
  refine hS.timely.congr hst hsrc hdl ?_
  rw [← hdue]
  exact deadline_eq_dueAt _

/-- No time passes beyond what orders come to, while the pump has not ended. -/
theorem le_due_of_mayPass {ms : Nat} (hh : r.pump.Heeds) (hp : r.mayPass ms = true)
    (hne : r.pump.isEnded = false) :
    (dueAt r.now r.orders r.pump.order).all (r.now + ms ≤ ·) = true := by
  obtain ⟨hq, horders⟩ := quiet_of_not_isReady (not_isReady_of_mayPass hp)
  have hw := hq.waiting hne
  cases ho : r.pump.order.deadline with
  | some x =>
    rcases hh.knows with hk | ⟨hu, hf | hl⟩
    · have hmem : x ∈ r.times := by simp [times, Pump.times, hw, hk, ho]
      simpa [dueAt, ho] using le_of_mayPass hp hmem
    · exact absurd hf hq.begun
    · rw [(hq.order hw hl).1] at hu
      cases hu
  | none =>
    cases hc : r.pump.order.closed with
    | true => simp [dueAt, ho, hc]
    | false =>
      have hd : dueAt r.now r.orders r.pump.order = dueOf r.now r.orders := by simp [dueAt, ho, hc]
      rw [hd]
      cases hrest : r.orders with
      | nil => rfl
      | cons y rest =>
        obtain ⟨t, o⟩ := y
        have hmem : t ∈ r.times := by simp [times, hrest]
        have hle := le_of_mayPass hp hmem
        cases o with
        | leave => rfl
        | drain grace =>
          simp only [dueOf, Option.all_some, decide_eq_true_eq]
          omega

/-- Nor beyond the next thing that can be read. -/
theorem le_nextTime_of_mayPass {ms : Nat} {s : Stream} {cur : Source} (hp : r.mayPass ms = true)
    (hne : r.pump.isEnded = false) (hcur : r.pump.sources.get s = some cur) :
    cur.nextTime.all (r.now + ms ≤ ·) = true := by
  obtain ⟨hq, -⟩ := quiet_of_not_isReady (not_isReady_of_mayPass hp)
  cases hn : cur.nextTime with
  | none => rfl
  | some t =>
    have hmem : t ∈ r.times := by
      refine List.mem_append_left _ ?_
      rw [Pump.times, if_pos (hq.waiting hne)]
      refine List.mem_append_right _ (List.mem_filterMap.2 ⟨s, ?_, by simp [hcur, hn]⟩)
      cases s <;> simp [Stream.all]
    simpa using le_of_mayPass hp hmem

theorem dueAt_of_mayPass {ms : Nat} (hp : r.mayPass ms = true) :
    dueAt (r.now + ms) r.orders r.pump.order = dueAt r.now r.orders r.pump.order :=
  dueAt_pass (Nat.le_add_right _ _) fun t o rest hrest =>
    le_of_mayPass hp (by simp [times, hrest])

theorem Sound.pass {ms : Nat} (hS : Sound d src k r) (htie : NoTie d src)
    (hp : r.mayPass ms = true) : Sound d src k { r with now := r.now + ms } := by
  obtain ⟨os, hB⟩ := hS.balance
  have hearly : r.pump.isEnded = false → d.all (r.now + ms ≤ ·) = true := fun hne => by
    rw [← hS.due]
    exact le_due_of_mayPass hS.heeds hp hne
  refine ⟨⟨os, fun d' hd' => hB d' (hd'.imp id fun h => isBefore_of_le h (Nat.le_add_right _ _))⟩,
    hS.timely.pass (Nat.le_add_right _ _) hearly fun hne s cur hcur => ?_,
    (dueAt_of_mayPass hp).trans hS.due, hS.heeds⟩
  refine ⟨le_nextTime_of_mayPass hp hne hcur, fun t ht hmem => ?_⟩
  obtain ⟨s₀, hs₀, hsub⟩ := (hB d (Or.inl rfl)).moments s cur hcur
  exact htie s s₀ t hs₀ ht (hsub hmem)

/-- **Every prompt run is on the clock.** -/
theorem sound_of_play (hr : (begin size src k orders).play ms = some r)
    (hk : ∀ s n, k.policy s n ≠ .fatal) (htie : NoTie (dueOf 0 orders) src) :
    Sound (dueOf 0 orders) src k r := by
  refine foldlM_induction (P := fun _ r => Sound (dueOf 0 orders) src k r) (.begin htie) ?_ hr
  intro ms m v v' _ hS hm
  cases m with
  | event e => exact hS.event hk hm
  | order => exact hS.order hm
  | pass n =>
    simp only [prompt] at hm
    split at hm
    · next hp => cases hm; exact hS.pass htie hp
    · cases hm

/-! ## Going on -/

/-- How much can happen before time has to pass. -/
def work (r : Run) : Nat := r.pump.work + 2 * r.orders.length

theorem work_lt {m : Move} (hm : m ∈ instant) (h : r.step m = some r') :
    r'.work < r.work ∧ r'.now = r.now ∧ r.prompt m = some r' := by
  cases m with
  | event e =>
    obtain ⟨p', k', log, ht, rfl⟩ := step_event h
    exact ⟨Nat.add_lt_add_right ht.work_lt _, rfl, h⟩
  | order =>
    obtain ⟨t, o, rest, ho, ht, rfl⟩ := step_order h
    refine ⟨?_, rfl, h⟩
    have := r.pump.work_obey_le r.now o
    simp only [work, ho, List.length_cons]
    omega
  | pass n => simp [instant] at hm

/-- Everything happens that can happen now. -/
theorem exists_quiet (r : Run) : ∃ ms r', r.play ms = some r' ∧ r'.now = r.now ∧
    r'.isReady = false := by
  induction hn : r.work using Nat.strong_induction_on generalizing r with
  | _ n ih =>
    cases hr : r.isReady with
    | false => exact ⟨[], r, rfl, rfl, hr⟩
    | true =>
      obtain ⟨m, hm, hsome⟩ := List.any_eq_true.1 hr
      obtain ⟨v, hv⟩ := Option.isSome_iff_exists.1 hsome
      obtain ⟨hlt, hnow, hp⟩ := work_lt hm hv
      obtain ⟨ms, r', hplay, hnow', hready⟩ := ih v.work (hn ▸ hlt) v rfl
      exact ⟨m :: ms, r', by simp [play, hp]; exact hplay, hnow'.trans hnow, hready⟩

/-- What is waited for while nothing can happen lies ahead. -/
theorem lt_of_mem_times (h : r.isReady = false) (he : r.pump.isEnded = false) {t : Nat}
    (ht : t ∈ r.times) : r.now < t := by
  obtain ⟨hq, horders⟩ := quiet_of_not_isReady h
  have hw := hq.waiting he
  rcases List.mem_append.1 ht with ht | ht
  · rw [Pump.times, if_pos hw, List.mem_append, Option.mem_toList, List.mem_filterMap] at ht
    rcases ht with ht | ⟨s, -, ht⟩
    · by_contra hle
      have := hq.deadline hw
      simp [isOverdue, Option.mem_def.1 ht, Nat.le_of_not_lt hle] at this
    · obtain ⟨cur, hcur, ht⟩ := Option.bind_eq_some_iff.1 ht
      exact Source.lt_of_nextTime (hq.sources hw s cur hcur) ht
  · cases hrest : r.orders with
    | nil => simp [hrest] at ht
    | cons y rest =>
      obtain ⟨u, o⟩ := y
      have : t = u := by simpa [hrest] using ht
      rw [this]
      exact horders u o rest hrest

/-- **A prompt run can be played on to any time**, unless its pump ends before. -/
theorem exists_quiet_at (r : Run) (limit : Nat) : ∃ ms r', r.play ms = some r' ∧
    r'.isReady = false ∧ (r'.pump.isEnded = true ∨ limit ≤ r'.now) := by
  induction hn : limit - r.now using Nat.strong_induction_on generalizing r with
  | _ n ih =>
    obtain ⟨ms, v, hplay, hnow, hready⟩ := r.exists_quiet
    by_cases hdone : v.pump.isEnded = true ∨ limit ≤ v.now
    · exact ⟨ms, v, hplay, hready, hdone⟩
    · simp only [not_or, Bool.not_eq_true, Nat.not_le] at hdone
      have hpass : v.mayPass 1 = true := by
        simp only [mayPass, hready, Bool.not_false, Bool.true_and]
        cases hm : v.nextTime with
        | none => rfl
        | some t => exact decide_eq_true (lt_of_mem_times hready hdone.1 (List.min?_eq_some_iff.1 hm).1)
      obtain ⟨more, r', hmore, hrest⟩ := ih (limit - (v.now + 1)) (by omega)
        { v with now := v.now + 1 } rfl
      have hstep : v.prompt (.pass 1) = some { v with now := v.now + 1 } := by
        simp only [prompt, hpass, if_true]
        rfl
      refine ⟨ms ++ .pass 1 :: more, r', ?_, hrest⟩
      refine foldlM_append_eq_some.2 ⟨v, hplay, ?_⟩
      rw [List.foldlM_cons, hstep]
      exact hmore

/-- A wait for what is next is prompt. -/
theorem mayPass_to_next (h : r.isReady = false) (he : r.pump.isEnded = false) {t : Nat}
    (ht : r.nextTime = some t) : r.mayPass (t - r.now) = true := by
  have hlt := lt_of_mem_times h he (List.min?_eq_some_iff.1 ht).1
  simp only [mayPass, h, ht, Bool.not_false, Bool.true_and, Option.all_some, decide_eq_true_eq]
  omega

/-- **A run that makes the first move that it can make is prompt.** -/
theorem exists_play_of_runFor (limit fuel : Nat) (r : Run) :
    ∃ ms, r.play ms = some (runFor limit fuel r) := by
  induction fuel generalizing r with
  | zero => exact ⟨[], rfl⟩
  | succ fuel ih =>
    cases he : r.pump.isEnded with
    | true => exact ⟨[], by simp [runFor, he, play]⟩
    | false =>
      cases hn : r.next limit with
      | none => exact ⟨[], by simp [runFor, he, hn, play]⟩
      | some v =>
        obtain ⟨ms, hms⟩ := ih v
        have hrun : runFor limit (fuel + 1) r = runFor limit fuel v := by simp [runFor, he, hn]
        suffices hm : ∃ m, r.prompt m = some v by
          obtain ⟨m, hm⟩ := hm
          refine ⟨m :: ms, ?_⟩
          rw [hrun, play, List.foldlM_cons, hm]
          exact hms
        unfold next at hn
        cases hfind : instant.findSome? r.step with
        | some u =>
          rw [hfind] at hn
          cases hn
          obtain ⟨m, hm, hstep⟩ := List.exists_of_findSome?_eq_some hfind
          exact ⟨m, (work_lt hm hstep).2.2⟩
        | none =>
          have hready : r.isReady = false := by
            rw [List.findSome?_eq_none_iff] at hfind
            exact List.any_eq_false.2 fun m hm => by simp [hfind m hm]
          simp only [hfind] at hn
          cases ht : r.nextTime with
          | none => simp [ht] at hn
          | some t =>
            simp only [ht] at hn
            split at hn
            · exact ⟨.pass (t - r.now), by rw [prompt, if_pos (mayPass_to_next hready he ht), hn]⟩
            · cases hn

/-! ## What is forwarded -/

theorem bufferSize_of_play (hr : r.play ms = some r') :
    r'.pump.bufferSize = r.pump.bufferSize := by
  refine foldlM_induction (P := fun _ r' => r'.pump.bufferSize = r.pump.bufferSize) rfl ?_ hr
  intro ms m v v' _ hv hm
  rw [← hv]
  cases m with
  | event e =>
    obtain ⟨p', k', log, ht, rfl⟩ := step_event hm
    exact ht.bufferSize
  | order =>
    obtain ⟨t, o, rest, -, -, rfl⟩ := step_order hm
    cases o <;> rfl
  | pass n =>
    simp only [prompt] at hm
    split at hm
    · cases hm; rfl
    · cases hm

/-- A pump that has ended, and was not brought down, reports what it has taken. -/
theorem report?_of_ended (ha : r.pump.stage ≠ .ended .fatal) (he : r.pump.isEnded = true) :
    ∃ report, r.pump.report? = some report ∧ report.taken = r.pump.taken := by
  cases hs : r.pump.stage with
  | fresh => simp [isEnded, hs] at he
  | waiting => simp [isEnded, hs] at he
  | ended how =>
    cases how with
    | closed => exact ⟨⟨r.pump.taken, false⟩, by simp [report?, hs], rfl⟩
    | deadline => exact ⟨⟨r.pump.taken, true⟩, by simp [report?, hs], rfl⟩
    | fatal => exact absurd hs ha

/-- **A pump forwards exactly what it should, stream by stream.**  Whatever the
    streams, the orders, the room in its buffer, the order of its events and the
    writes that its sink refuses: what it offers of a stream is what there is to
    hear of it before its end, its failure and the deadline, in parts that fit
    the buffer; it tells the failure of a stream once; and it counts what it
    offers.  While it goes on, and nothing can happen, that is so up to now; and
    each run goes on until the pump ends. -/
theorem forwards_exactly (hr : (begin size src k orders).play ms = some r)
    (hk : ∀ s n, k.policy s n ≠ .fatal) (htie : NoTie (dueOf 0 orders) src) :
    ∃ os : List Offer, r.sink.history = k.history ++ os.map Offer.call ∧
      (∀ s, ∀ bs ∈ outputs s os, bs.length ≤ max size 1) ∧
      (∀ s, r.pump.taken.get s = (outputs s os).flatten.length) ∧
      (r.pump.isEnded = true →
        (∃ report, r.pump.report? = some report ∧ report.taken = r.pump.taken) ∧
        ∀ s, (outputs s os).flatten = Source.heard (dueOf 0 orders) (src.get s) ∧
          failures s os = (Source.failure? (dueOf 0 orders) (src.get s)).toList) ∧
      (r.pump.isEnded = false → r.isReady = false →
        ∀ s, (outputs s os).flatten = Source.heard (some (r.now + 1)) (src.get s) ∧
          failures s os = (Source.failure? (some (r.now + 1)) (src.get s)).toList) ∧
      ∀ limit, ∃ more r', r.play more = some r' ∧ r'.isReady = false ∧
        (r'.pump.isEnded = true ∨ limit ≤ r'.now) := by
  have hS := sound_of_play hr hk htie
  obtain ⟨os, hB⟩ := hS.balance
  have hD := hB _ (Or.inl rfl)
  -- A stream of which nothing is met any more has been offered as a whole.
  have hwhole : ∀ d s, Balance d src k r.pump r.sink os → Source.met d (r.pump.sources.get s) = [] →
      (outputs s os).flatten = Source.heard d (src.get s) ∧
        failures s os = (Source.failure? d (src.get s)).toList := by
    intro d s hB hmet
    have hheard := hB.heard s
    have hfail := hB.failure s
    rw [Source.heard_eq_nil hmet, List.append_nil] at hheard
    rw [Source.failure?_eq_none hmet, Option.toList_none, List.append_nil] at hfail
    exact ⟨hheard, hfail⟩
  have hsize : r.pump.readSize = max size 1 := by rw [readSize, bufferSize_of_play hr]; rfl
  refine ⟨os, hD.history, by rw [← hsize]; exact hD.length, hD.taken, fun he => ?_,
    fun he hready s => ?_, r.exists_quiet_at⟩
  · exact ⟨report?_of_ended hS.timely.alive he,
      fun s => hwhole _ s hD ((hS.timely.stopped he).met s)⟩
  · obtain ⟨hq, -⟩ := quiet_of_not_isReady hready
    refine hwhole _ s (hB _ (Or.inr (by simp [isBefore]))) ?_
    cases hs : r.pump.sources.get s with
    | none => rfl
    | some cur => exact Source.met_eq_nil (hq.sources (hq.waiting he) s cur hs) (Or.inr rfl)

/-- On the standard side a piece that does not fit the buffer, an interrupted
    read, another piece and a failure; on the error side one piece in time, one
    too late, and no end. -/
def tornStreams : PerStream (Option Source) where
  out := some { arrivals := [⟨1, .data [97, 98, 99], none⟩, ⟨2, .failure (.bare .interrupted), none⟩,
    ⟨3, .data [100], none⟩, ⟨4, .failure (.bare .brokenPipe), none⟩, ⟨5, .data [101], none⟩] }
  err := some { arrivals := [⟨5, .data [120], none⟩, ⟨9, .data [121], none⟩], ownHold := none }

/-- A run on them, with an order to finish at 3 within 4, and another one. -/
def tornMoves : List Move :=
  [.event .start, .pass 1, .event (.read .out), .event (.read .out), .pass 1,
    .event (.read .out), .pass 1, .order, .event (.read .out), .order, .event .order, .pass 1,
    .event (.read .out), .pass 1, .event (.read .err), .pass 2, .event .timer]

/-- A sink that refuses every other write. -/
def pickySink : Sink := { policy := fun _ n => if n % 2 = 0 then .stored else .refused }

/-- The bytes of "error reading stdout: broken pipe", and a newline. -/
def brokenLine : Bytes :=
  [101, 114, 114, 111, 114, 32, 114, 101, 97, 100, 105, 110, 103, 32, 115, 116, 100, 111, 117, 116,
    58, 32, 98, 114, 111, 107, 101, 110, 32, 112, 105, 112, 101, 10]

/-- All that came in time was offered, also what was refused. -/
theorem forwards_exactly_tornStreams :
    ∃ r os, (begin 2 tornStreams pickySink [(3, .drain 4), (3, .drain 1)]).play tornMoves = some r ∧
      r.now = 7 ∧ r.pump.isEnded = true ∧ r.sink.history = os.map Offer.call ∧
      r.sink.history = [(.out, [97, 98]), (.out, [99]), (.out, []), (.out, [100]),
        (.err, brokenLine), (.err, [120])] ∧
      (outputs .out os).flatten = [97, 98, 99, 100] ∧
      failures .out os = [.bare .brokenPipe] ∧ (outputs .err os).flatten = [120] ∧
      failures .err os = [] := by
  have hk : ∀ s n, pickySink.policy s n ≠ .fatal := by
    intro s n
    simp only [pickySink]
    split <;> nofun
  have htie : NoTie (dueOf 0 [(3, .drain 4), (3, .drain 1)]) tornStreams := by
    intro s cur t hcur ht
    cases ht
    cases s <;> (cases hcur; decide)
  have hplay : (begin 2 tornStreams pickySink [(3, .drain 4), (3, .drain 1)]).play tornMoves =
    some _ := rfl
  obtain ⟨os, hhist, -, -, hended, -⟩ := forwards_exactly hplay hk htie
  refine ⟨_, os, hplay, rfl, rfl, hhist, rfl, ?_⟩
  obtain ⟨-, hs⟩ := hended rfl
  exact ⟨(hs .out).1, (hs .out).2, (hs .err).1, (hs .err).2⟩

end Run

end Supervisor.Pump
