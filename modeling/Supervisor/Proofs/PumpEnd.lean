/-
  When a pump ends, and why.

  * `Pump.firstDue`: the deadline of the first order, which may have been given before the
    pump began; `Pump.finishOf`: when a pump is to end, by its deadline and its streams;
  * `Pump.Paced`: a pump on its way to that time.  Its streams are kept on the clock as if
    there were no deadline, so that it does not matter whether something can be read at the
    deadline itself (`Paced.turn`, `Paced.pass`);
  * `Run.OnTime`: a run whose pump is paced and obeys the first order, kept by every move of
    a prompt run (`onTime_of_play`);
  * `ends_when_it_must` puts these together.
-/
import Supervisor.Proofs.PumpRun

namespace Supervisor

/-- Some order was given, or none can be given any more. -/
def DrainOrder.isTold (o : DrainOrder) : Bool := o.closed || o.deadline.isSome

namespace Pump

/-! ## The first order -/

/-- The deadline that orders come to of which some are given before the pump begins: that
    of the first. -/
def firstDue (start : Nat) (earlier orders : List (Nat × Order)) : Option Nat :=
  match earlier with
  | [] => dueOf start orders
  | (t, .drain grace) :: _ => some (t + grace)
  | (_, .leave) :: _ => none

section
variable {now : Nat} {o : Order} {p : Pump} {earlier orders : List (Nat × Order)}

/-- Orders concern nothing but the order. -/
theorem obey_eq (p : Pump) (now : Nat) (o : Order) :
    p.obey now o = { p with order := (p.obey now o).order } := by
  cases o <;> rfl

theorem isTold_obey (p : Pump) (now : Nat) (o : Order) : (p.obey now o).order.isTold = true := by
  cases o with
  | leave => simp [obey, DrainOrder.close, DrainOrder.isTold]
  | drain grace =>
    simp only [obey, DrainOrder.give]
    split
    · next h => exact h
    · simp [DrainOrder.isTold]

/-- **What later orders ask for does not count.** -/
theorem dueAt_obey_of_isTold {t : Nat} (h : p.order.isTold = true) :
    dueAt now orders (p.obey t o).order = dueAt now orders p.order := by
  cases o with
  | drain grace =>
    have : p.order.give t grace = p.order := if_pos h
    simp only [obey, this]
  | leave =>
    cases hd : p.order.deadline with
    | some x => simp [obey, DrainOrder.close, dueAt, hd]
    | none =>
      have hc : p.order.closed = true := by simpa [DrainOrder.isTold, hd] using h
      simp [obey, DrainOrder.close, dueAt, hd, hc]

/-- A pump to which orders were given before it began. -/
def ordered (p : Pump) (earlier : List (Nat × Order)) : Pump :=
  earlier.foldl (fun p x => p.obey x.1 x.2) p

theorem ordered_cons (p : Pump) (x : Nat × Order) (earlier : List (Nat × Order)) :
    p.ordered (x :: earlier) = (p.obey x.1 x.2).ordered earlier :=
  rfl

theorem ordered_eq (p : Pump) (earlier : List (Nat × Order)) :
    ∃ o, p.ordered earlier = { p with order := o } := by
  induction earlier generalizing p with
  | nil => exact ⟨p.order, rfl⟩
  | cons x earlier ih =>
    obtain ⟨o, ho⟩ := ih (p.obey x.1 x.2)
    rw [obey_eq p] at ho
    exact ⟨o, by rw [ordered, List.foldl_cons, obey_eq p]; exact ho⟩

theorem Heeds.ordered (h : p.Heeds) : (p.ordered earlier).Heeds := by
  induction earlier generalizing p with
  | nil => exact h
  | cons x earlier ih => exact ih (h.obey x.1 x.2)

theorem isTold_ordered (h : p.order.isTold = true) : (p.ordered earlier).order.isTold = true := by
  induction earlier generalizing p with
  | nil => exact h
  | cons x earlier ih => exact ih (p.isTold_obey x.1 x.2)

/-- Behind a first order the others do not count. -/
theorem dueAt_ordered_of_isTold (start : Nat) (h : p.order.isTold = true) :
    dueAt start orders (p.ordered earlier).order = dueAt start orders p.order := by
  induction earlier generalizing p with
  | nil => rfl
  | cons x earlier ih =>
    exact (ih (p.isTold_obey x.1 x.2)).trans (dueAt_obey_of_isTold h)

theorem dueAt_ordered (start : Nat) (h : p.order = {}) :
    dueAt start orders (p.ordered earlier).order = firstDue start earlier orders := by
  cases earlier with
  | nil => simp [ordered, firstDue, dueAt, h]
  | cons x earlier =>
    obtain ⟨t, o⟩ := x
    rw [ordered_cons, dueAt_ordered_of_isTold start (p.isTold_obey t o)]
    cases o <;> simp [obey, DrainOrder.give, DrainOrder.close, dueAt, firstDue, h]

end

/-! ## When a pump is to end -/

/-- When a pump is to end that begins at `start` and is to finish by `d`, and whose streams end
    at `c`: at its deadline, though not before it has begun, or once both streams have ended. -/
def finishOf (start : Nat) (d : Option Nat) (c : PerStream (Option Nat)) : Option Nat :=
  match d, Source.later c.out c.err with
  | some t, some e => some (min (max t start) e)
  | some t, none => some (max t start)
  | none, e => e

section
variable {start now now' : Nat} {d : Option Nat} {c : PerStream (Option Nat)}

theorem finishOf_reached (hstart : start ≤ now)
    (h : d.any (· ≤ now) = true ∨ ∀ s, (c.get s).any (· ≤ now) = true) :
    (finishOf start d c).any (· ≤ now) = true := by
  unfold finishOf
  rcases h with h | h
  · obtain ⟨t, rfl, ht⟩ := (Option.any_eq_true _ _).1 h
    simp only [decide_eq_true_eq] at ht
    cases Source.later c.out c.err with
    | none => simp only [Option.any_some, decide_eq_true_eq]; omega
    | some e => simp only [Option.any_some, decide_eq_true_eq]; omega
  · obtain ⟨a, ha, hale⟩ := (Option.any_eq_true _ _).1 (h .out)
    obtain ⟨b, hb, hble⟩ := (Option.any_eq_true _ _).1 (h .err)
    simp only [PerStream.get] at ha hb
    simp only [decide_eq_true_eq] at hale hble
    rw [ha, hb, Source.later_some]
    cases d with
    | none => simp only [Option.any_some, decide_eq_true_eq]; omega
    | some t => simp only [Option.any_some, decide_eq_true_eq]; omega

theorem finishOf_ahead (hd : d.all (now ≤ max · start) = true)
    (h : ∃ s, (c.get s).all (now ≤ ·) = true) : (finishOf start d c).all (now ≤ ·) = true := by
  have hlater : (Source.later c.out c.err).all (now ≤ ·) = true := by
    obtain ⟨s, hs⟩ := h
    cases hout : c.out with
    | none => simp
    | some a =>
      cases herr : c.err with
      | none => simp
      | some b => cases s <;> simp [PerStream.get, hout, herr] at hs ⊢ <;> omega
  unfold finishOf
  cases d with
  | none => exact hlater
  | some t =>
    cases hl : Source.later c.out c.err with
    | none => simpa using hd
    | some e =>
      rw [hl] at hlater
      simp only [Option.all_some, decide_eq_true_eq] at hd hlater ⊢
      omega

theorem any_le_mono (hle : now ≤ now') {o : Option Nat} (h : o.any (· ≤ now) = true) :
    o.any (· ≤ now') = true := by
  obtain ⟨t, rfl, ht⟩ := (Option.any_eq_true _ _).1 h
  simp only [decide_eq_true_eq] at ht
  simp only [Option.any_some, decide_eq_true_eq]
  omega

theorem start_le_closingFrom (start : Nat) (o : Option Source) :
    (closingFrom start o).all (start ≤ ·) = true := by
  cases o with
  | none => simp [closingFrom]
  | some s => cases hs : s.closing <;> simp [closingFrom, hs]

end

/-! ## A pump on its way -/

/-- The pump without its orders and its deadline. -/
def unordered (p : Pump) : Pump := { p with order := {}, deadline := none }

/-- A pump that began at `start` with the deadline `d`, and whose streams end at `c`. -/
structure Paced (start : Nat) (d : Option Nat) (c : PerStream (Option Nat)) (now : Nat)
    (p : Pump) : Prop where
  alive : p.stage ≠ .ended .fatal
  start_le : start ≤ now
  fresh : p.stage = .fresh → now = start
  /-- while it waits there is a stream to wait for -/
  isOpen : p.stage = .waiting → ∃ s cur, p.sources.get s = some cur
  obeys : p.deadline = none ∨ p.deadline = d
  running : p.isEnded = false → Running none c now p.unordered
  early : p.isEnded = false → d.all (now ≤ max · start) = true
  reached : p.isEnded = true → (finishOf start d c).any (· ≤ now) = true
  /-- it ends for its streams if they are closed, and else for its deadline -/
  reason : p.isEnded = true →
    (p.stage = .ended .closed ∧ ∀ s, p.sources.get s = none) ∨
    (p.stage = .ended .deadline ∧ d.any (· ≤ now) = true ∧ ∃ s cur, p.sources.get s = some cur)

section
variable {start now now' : Nat} {d : Option Nat} {c : PerStream (Option Nat)} {p p' q : Pump}
  {k k' : Sink} {e : PumpEvent}

/-- A pump that has passed its deadline ends in time, and for its deadline. -/
theorem Paced.expire (hstart : start ≤ now) (hp : p.deadline = none ∨ p.deadline = d)
    (ho : p.isOverdue now = true) (hopen : ∃ s cur, p.sources.get s = some cur) :
    Paced start d c now { p with stage := .ended .deadline } := by
  have hd : d.any (· ≤ now) = true := by
    rcases hp with hp | hp
    · rw [isOverdue, hp] at ho
      cases ho
    · rwa [isOverdue, hp] at ho
  constructor
  case start_le => exact hstart
  case obeys => exact hp
  case reached => exact fun _ => finishOf_reached hstart (Or.inl hd)
  case reason => exact fun _ => Or.inr ⟨rfl, hd, hopen⟩
  all_goals
    intro h
    cases h

/-- A pump that has ended reports that its deadline elapsed just if a stream is still open. -/
theorem Paced.report (hP : Paced start d c now p) (he : p.isEnded = true) :
    ∃ report, p.report? = some report ∧
      (report.deadlineElapsed = true ↔ ∃ s cur, p.sources.get s = some cur) := by
  rcases hP.reason he with ⟨hst, hclosed⟩ | ⟨hst, -, hopen⟩
  · exact ⟨⟨p.taken, false⟩, by rw [report?, hst], by simp [hclosed]⟩
  · exact ⟨⟨p.taken, true⟩, by rw [report?, hst], by simpa using hopen⟩

/-- **After a turn a pump is on its way, or ends in time.** -/
theorem Running.paced (hR : Running none c now p.unordered) (hstart : start ≤ now)
    (hp : p.deadline = none ∨ p.deadline = d) (hd : d.all (now ≤ max · start) = true) :
    Paced start d c now (p.settled now) := by
  have hopen : p.isOpen ≠ .both false → ∃ s cur, p.sources.get s = some cur := fun h => by
    by_contra hnone
    simp only [not_exists] at hnone
    exact h (isOpen_eq_both_false.2 fun s => Option.eq_none_iff_forall_ne_some.2 (hnone s))
  unfold Pump.settled stageAt
  split
  · next hclosed =>
    have hnone := isOpen_eq_both_false.1 hclosed
    exact ⟨nofun, hstart, nofun, nofun, hp, nofun, nofun,
      fun _ => finishOf_reached hstart (Or.inr fun s => hR.closed s (hnone s)),
      fun _ => Or.inl ⟨rfl, hnone⟩⟩
  · next hclosed =>
    split
    · next ho => exact .expire hstart hp ho (hopen hclosed)
    · exact ⟨nofun, hstart, nofun, fun _ => hopen hclosed, hp,
        fun _ => hR.congr rfl (Or.inl rfl) (Or.inl rfl), fun _ => hd, nofun, nofun⟩

/-- **A turn keeps a pump on its way**, if the sink does not bring it down. -/
theorem Paced.turn (hP : Paced start d c now p) (h : Turn now p k e p' k')
    (ho : p.order.deadline = none ∨ p.order.deadline = d) (hk : ∀ s, k.verdict s ≠ .fatal) :
    Paced start d c now p' := by
  have hR := hP.running h.not_ended
  have hearly := hP.early h.not_ended
  have hlook : Running none c now p.look.unordered := hR.congr rfl (Or.inl rfl) (Or.inl rfl)
  cases h with
  | start _ => exact hlook.paced hP.start_le ho hearly
  | finish s _ hcur hr he _ =>
    have hshut : Running none c now (p.shut s).unordered := hR.shut hcur hr he
    exact hshut.paced hP.start_le hP.obeys hearly
  | fail s f _ hcur hr he _ _ =>
    have hshut : Running none c now (p.shut s).unordered := hR.shut hcur hr he
    exact hshut.paced hP.start_le hP.obeys hearly
  | failFatal s f _ _ _ _ _ hv => exact absurd hv (hk _)
  | @take s _ rest load _ hcur hr he _ =>
    have htake : Running none c now (p.take s rest load.bytes).unordered := hR.take hcur hr he
    exact htake.paced hP.start_le hP.obeys hearly
  | takeFatal s _ _ _ _ hv => exact absurd hv (hk _)
  | look _ _ _ => exact hlook.paced hP.start_le ho hearly
  | deafen _ _ _ _ =>
    have hdeaf : Running none c now (unordered { p with listening := false }) :=
      hR.congr rfl (Or.inl rfl) (Or.inl rfl)
    exact hdeaf.paced hP.start_le hP.obeys hearly
  | expire hw hover => exact .expire hP.start_le hP.obeys hover (hP.isOpen hw)

/-- A pump of which only the order has changed. -/
theorem Paced.obey (hP : Paced start d c now p) (t : Nat) (o : Order) :
    Paced start d c now (p.obey t o) := by
  rw [obey_eq]
  exact ⟨hP.alive, hP.start_le, hP.fresh, hP.isOpen, hP.obeys, hP.running, hP.early, hP.reached,
    hP.reason⟩

/-- **Time passes** up to the next thing that a quiet pump waits for. -/
theorem Paced.pass (hP : Paced start d c now p) (hle : now ≤ now') (hbegun : p.stage ≠ .fresh)
    (hd : p.isEnded = false → d.all (now' ≤ max · start) = true)
    (hnext : p.isEnded = false → ∀ s cur, p.sources.get s = some cur →
      cur.nextTime.all (now' ≤ ·) = true) : Paced start d c now' p := by
  refine ⟨hP.alive, Nat.le_trans hP.start_le hle, fun h => absurd h hbegun, hP.isOpen, hP.obeys,
    fun he => ?_, hd, fun he => any_le_mono hle (hP.reached he), fun he =>
      (hP.reason he).imp id fun ⟨hst, hdue, hopen⟩ => ⟨hst, any_le_mono hle hdue, hopen⟩⟩
  have hT : Timely none c now p.unordered :=
    ⟨hP.alive, fun _ => hP.running he, fun h => by rw [show p.isEnded = true from h] at he; cases he⟩
  exact (hT.pass hle (fun _ => rfl) fun _ s cur hcur => ⟨hnext he s cur hcur, nofun⟩).running he

/-- A pump that has not ended is not late. -/
theorem Paced.ahead (hP : Paced start d c now p) (hc : ∀ s, (c.get s).all (start ≤ ·) = true)
    (he : p.isEnded = false) : (finishOf start d c).all (now ≤ ·) = true := by
  refine finishOf_ahead (hP.early he) ?_
  cases hst : p.stage with
  | fresh => exact ⟨.out, by rw [hP.fresh hst]; exact hc .out⟩
  | waiting =>
    obtain ⟨s, cur, hcur⟩ := hP.isOpen hst
    refine ⟨s, ?_⟩
    rw [(hP.running he).closing s cur hcur]
    cases cur.closing <;> simp
  | ended how => simp [isEnded, hst] at he

end

namespace Run

/-! ## Runs -/

/-- A run that begins at a time, before which some orders were given. -/
def beginAt (start size : Nat) (src : PerStream (Option Source)) (k : Sink)
    (earlier orders : List (Nat × Order)) : Run where
  now := start
  pump := ordered { bufferSize := size, sources := src } earlier
  sink := k
  orders

variable {r r' : Run} {d : Option Nat} {src : PerStream (Option Source)} {k : Sink}
  {earlier orders : List (Nat × Order)} {start size : Nat} {ms : List Move} {m : Move}

/-- A run on its way, of which some orders were given before it began. -/
structure OnTime (start : Nat) (d : Option Nat) (src : PerStream (Option Source)) (k : Sink)
    (earlier orders : List (Nat × Order)) (r : Run) : Prop where
  policy : r.sink.policy = k.policy
  due : dueAt r.now r.orders r.pump.order = d
  heeds : r.pump.Heeds
  told : (earlier = [] ∧ r.orders = orders) ∨ r.pump.order.isTold = true
  paced : Paced start d (src.map (closingFrom start)) r.now r.pump

theorem onTime_beginAt (start size : Nat) (src : PerStream (Option Source)) (k : Sink)
    (earlier orders : List (Nat × Order)) :
    OnTime start (firstDue start earlier orders) src k earlier orders
      (beginAt start size src k earlier orders) where
  policy := rfl
  due := dueAt_ordered start rfl
  heeds := Heeds.ordered ⟨nofun, Or.inl rfl⟩
  told := by
    cases earlier with
    | nil => exact Or.inl ⟨rfl, rfl⟩
    | cons x earlier =>
      rw [beginAt, ordered_cons]
      exact Or.inr (isTold_ordered (isTold_obey _ x.1 x.2))
  paced := by
    obtain ⟨o, ho⟩ := ordered_eq { bufferSize := size, sources := src } earlier
    rw [beginAt, ho]
    refine ⟨nofun, Nat.le_refl _, fun _ => rfl, nofun, Or.inl rfl, fun _ => ?_, fun _ => ?_, nofun,
      nofun⟩
    · have hT : Timely none (src.map (closingFrom start)) start
          { bufferSize := size, sources := src } := by
        refine Timely.begin (p := { bufferSize := size, sources := src }) rfl rfl rfl ?_ nofun
        rfl
      exact (hT.running rfl).congr rfl (Or.inl rfl) (Or.inl rfl)
    · cases firstDue start earlier orders <;> simp

/-- **Every move of a prompt run keeps it on its way.** -/
theorem OnTime.prompt (hT : OnTime start d src k earlier orders r)
    (hk : ∀ s n, k.policy s n ≠ .fatal) (hm : r.prompt m = some r') :
    OnTime start d src k earlier orders r' := by
  have hdue : r.pump.order.deadline = none ∨
      r.pump.order.deadline = dueAt r.now r.orders r.pump.order := deadline_eq_dueAt _
  rw [hT.due] at hdue
  cases m with
  | event e =>
    obtain ⟨p', k', log, ht, rfl⟩ := step_event hm
    obtain ⟨hheeds, hdl, hcl⟩ := ht.heeds hT.heeds
    have hverdict : ∀ s, r.sink.verdict s ≠ .fatal := fun s => by
      rw [Sink.verdict, hT.policy]
      exact hk s _
    refine ⟨ht.policy.trans hT.policy, ?_, hheeds, ?_, hT.paced.turn ht hdue hverdict⟩
    · rw [← hT.due]
      simp only [dueAt, hdl, hcl]
    · refine hT.told.imp id fun h => ?_
      simpa only [DrainOrder.isTold, hdl, hcl] using h
  | order =>
    obtain ⟨t, o, rest, ho, ht, rfl⟩ := step_order hm
    refine ⟨hT.policy, ?_, hT.heeds.obey _ _, Or.inr (isTold_obey _ _ _), hT.paced.obey _ _⟩
    rw [← hT.due, ho]
    exact dueAt_obey ht
  | pass n =>
    simp only [Run.prompt] at hm
    split at hm
    · next hp =>
      cases hm
      obtain ⟨hq, -⟩ := quiet_of_not_isReady (not_isReady_of_mayPass hp)
      refine ⟨hT.policy, (dueAt_of_mayPass hp).trans hT.due, hT.heeds, hT.told,
        hT.paced.pass (Nat.le_add_right _ _) hq.begun (fun he => ?_) fun he s cur hcur =>
          le_nextTime_of_mayPass hp he hcur⟩
      have hle := le_due_of_mayPass hT.heeds hp he
      rw [hT.due] at hle
      cases d with
      | none => rfl
      | some t =>
        simp only [Option.all_some, decide_eq_true_eq] at hle ⊢
        omega
    · cases hm

theorem onTime_of_play (hr : (beginAt start size src k earlier orders).play ms = some r)
    (hk : ∀ s n, k.policy s n ≠ .fatal) :
    OnTime start (firstDue start earlier orders) src k earlier orders r :=
  foldlM_induction (P := fun _ => OnTime start (firstDue start earlier orders) src k earlier orders)
    (onTime_beginAt ..) (fun _ _ _ _ _ hT hm => hT.prompt hk hm) hr

/-- When a run is to end. -/
def finishTime (start : Nat) (src : PerStream (Option Source))
    (earlier orders : List (Nat × Order)) : Option Nat :=
  finishOf start (firstDue start earlier orders) (src.map (closingFrom start))

/-- Where nobody orders to finish there is no deadline. -/
theorem firstDue_of_leave (start : Nat) (h : ∀ x ∈ earlier ++ orders, x.2 = .leave) :
    firstDue start earlier orders = none := by
  cases earlier with
  | nil =>
    cases orders with
    | nil => rfl
    | cons x rest =>
      obtain ⟨t, o⟩ := x
      cases h (t, o) (by simp)
      rfl
  | cons x rest =>
    obtain ⟨t, o⟩ := x
    cases h (t, o) (by simp)
    rfl

/-- Once an order was given, and nothing can happen, the deadline is obeyed. -/
theorem OnTime.deadline_eq (hT : OnTime start d src k earlier orders r)
    (hgiven : earlier ≠ [] ∨ r.orders ≠ orders) (hready : r.isReady = false)
    (he : r.pump.isEnded = false) : r.pump.deadline = d := by
  obtain ⟨hq, -⟩ := quiet_of_not_isReady hready
  have hw := hq.waiting he
  have hknown : r.pump.deadline = r.pump.order.deadline := by
    rcases hT.heeds.knows with h | ⟨hu, hf | hl⟩
    · exact h
    · exact absurd hf hq.begun
    · rw [(hq.order hw hl).1] at hu
      cases hu
  have htold : r.pump.order.isTold = true := by
    rcases hT.told with ⟨hearlier, horders⟩ | h
    · exact absurd hgiven (by simp [hearlier, horders])
    · exact h
  rw [hknown, ← hT.due, dueAt]
  cases hd : r.pump.order.deadline with
  | some x => rfl
  | none =>
    have hc : r.pump.order.closed = true := by simpa [DrainOrder.isTold, hd] using htold
    simp [hc]

/-- A move that ends a pump takes no time. -/
theorem now_of_prompt_ended (he : r.pump.isEnded = false) (hm : r.prompt m = some r')
    (he' : r'.pump.isEnded = true) : r'.now = r.now := by
  cases m with
  | event e =>
    obtain ⟨p', k', log, -, rfl⟩ := step_event hm
    rfl
  | order =>
    obtain ⟨t, o, rest, -, -, rfl⟩ := step_order hm
    rfl
  | pass n =>
    simp only [prompt] at hm
    split at hm
    · cases hm
      exact absurd he' (by simp [he])
    · cases hm

/-- **A pump ends when it must, and says why.**  Whatever its streams, the orders that were
    given before it began or come later, and the order of its events: it obeys the first order,
    whatever the others ask for; if all that happens is that the one who gives orders leaves,
    there is no deadline and it ends only with its streams; it ends at its time and not
    before, and each run can be played on until then; it reports that its deadline elapsed
    just if a stream is still open; and while it waits there is a stream to wait for. -/
theorem ends_when_it_must (hr : (beginAt start size src k earlier orders).play ms = some r)
    (hk : ∀ s n, k.policy s n ≠ .fatal) :
    (r.pump.deadline = none ∨ r.pump.deadline = firstDue start earlier orders) ∧
      (earlier ≠ [] ∨ r.orders ≠ orders → r.isReady = false → r.pump.isEnded = false →
        r.pump.deadline = firstDue start earlier orders) ∧
      ((∀ x ∈ earlier ++ orders, x.2 = .leave) → r.pump.deadline = none ∧
        (r.pump.isEnded = true → ∀ s, r.pump.sources.get s = none)) ∧
      (r.pump.isEnded = false →
        (finishTime start src earlier orders).all (r.now ≤ ·) = true) ∧
      (r.pump.isEnded = true →
        (finishTime start src earlier orders).any (· ≤ r.now) = true ∧
        ∃ report, r.pump.report? = some report ∧
          (report.deadlineElapsed = true ↔ ∃ s cur, r.pump.sources.get s = some cur)) ∧
      (∀ m r', r.pump.isEnded = false → r.prompt m = some r' → r'.pump.isEnded = true →
        finishTime start src earlier orders = some r'.now) ∧
      (∀ t, finishTime start src earlier orders = some t →
        ∃ more r', r.play more = some r' ∧ r'.pump.isEnded = true) ∧
      (r.pump.stage = .waiting → ∃ s cur, r.pump.sources.get s = some cur) := by
  have hT := onTime_of_play hr hk
  have hstart : ∀ s, ((src.map (closingFrom start)).get s).all (start ≤ ·) = true := fun s => by
    rw [PerStream.get_map]
    exact start_le_closingFrom start _
  refine ⟨hT.paced.obeys, hT.deadline_eq, fun hleave => ?_, hT.paced.ahead hstart, fun he => ?_,
    fun m r' he hm he' => ?_, fun t ht => ?_, hT.paced.isOpen⟩
  · have hnone := firstDue_of_leave start hleave
    rw [hnone] at hT
    refine ⟨hT.paced.obeys.elim id id, fun he => ?_⟩
    rcases hT.paced.reason he with ⟨-, hclosed⟩ | ⟨-, hdue, -⟩
    · exact hclosed
    · cases hdue
  · exact ⟨hT.paced.reached he, hT.paced.report he⟩
  · -- The move takes no time: up to here the run was not late, and now it is not early.
    have hnow := now_of_prompt_ended he hm he'
    obtain ⟨t, ht, hle⟩ := (Option.any_eq_true _ _).1 ((hT.prompt hk hm).paced.reached he')
    have hge := hT.paced.ahead hstart he
    rw [ht] at hge
    simp only [Option.all_some, decide_eq_true_eq] at hge hle
    rw [finishTime, ht, Nat.le_antisymm hle (hnow ▸ hge)]
  · obtain ⟨more, r', hmore, -, hdone⟩ := r.exists_quiet_at (t + 1)
    refine ⟨more, r', hmore, ?_⟩
    by_contra he
    have hT' := onTime_of_play (foldlM_append_eq_some.2 ⟨r, hr, hmore⟩) hk
    have hge := hT'.paced.ahead hstart (by simpa using he)
    rw [finishTime] at ht
    rw [ht] at hge
    simp only [Option.all_some, decide_eq_true_eq] at hge
    have := hdone.resolve_left he
    omega

/-- On the standard side interrupted reads, a piece and an end; on the error side nothing,
    and no end. -/
def hangingStreams : PerStream (Option Source) where
  out := some { arrivals := [⟨6, .failure (.bare .interrupted), none⟩,
    ⟨6, .failure (.bare .interrupted), none⟩, ⟨9, .data [97], none⟩], ownHold := some 10 }
  err := some { arrivals := [], ownHold := none }

/-- A run on them from 5 on, with an order to finish at 7 within 4, another one at once, and
    nobody to give orders from 8 on. -/
def hangingMoves : List Move :=
  [.event .start, .pass 1, .event (.read .out), .event (.read .out), .pass 1, .order, .order,
    .event .order, .pass 1, .order, .event .order, .pass 1, .event (.read .out), .pass 1,
    .event (.read .out), .pass 1, .event .timer]

/-- A stream that never ends is given up at the deadline of the first order. -/
theorem ends_when_it_must_hangingStreams :
    ∃ r, (beginAt 5 4 hangingStreams { policy := fun _ _ => .stored } []
        [(7, .drain 4), (7, .drain 0), (8, .leave)]).play hangingMoves = some r ∧
      r.now = 11 ∧ r.pump.isEnded = true ∧
      (finishTime 5 hangingStreams [] [(7, .drain 4), (7, .drain 0), (8, .leave)]).any
        (· ≤ 11) = true ∧
      ∃ report, r.pump.report? = some report ∧
        (report.deadlineElapsed = true ↔ ∃ s cur, r.pump.sources.get s = some cur) := by
  have hplay : (beginAt 5 4 hangingStreams { policy := fun _ _ => .stored } []
    [(7, .drain 4), (7, .drain 0), (8, .leave)]).play hangingMoves = some _ := rfl
  obtain ⟨-, -, -, -, hended, -⟩ := ends_when_it_must hplay nofun
  exact ⟨_, hplay, rfl, rfl, (hended rfl).1, (hended rfl).2⟩

end Run

end Pump

end Supervisor
