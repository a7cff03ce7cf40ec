/-
  What is configured is frozen at the start.

  * `Desk.Effect`: what an action makes of a desk (`Desk.effect_of_step`);
  * `Desk.sound_of_run`: the attempts on every handle fit it after every run;
  * `Desk.reachable_iff`: the worlds that can be reached step by step, under the
    lock, are those that can be reached by whole requests;
  * `configuration_is_frozen`: at most one start succeeds, the runner has what
    the requests amount to that were granted, those after the start are turned
    away, and one that fails changes nothing.
-/
import Supervisor.Proofs.Attempts

namespace Supervisor

/-- The places before and after one, whatever is put there. -/
theorem exists_append_of_getElem? {α : Type} {l : List α} {k : Nat} {a : α}
    (h : l[k]? = some a) :
    ∃ pre post, l = pre ++ a :: post ∧ ∀ b, l.set k b = pre ++ b :: post := by
  induction l generalizing k with
  | nil => simp at h
  | cons c l ih =>
    cases k with
    | zero =>
      simp only [List.getElem?_cons_zero, Option.some.injEq] at h
      exact ⟨[], l, by rw [h]; rfl, fun b => rfl⟩
    | succ k =>
      obtain ⟨pre, post, hl, hset⟩ := ih (by simpa using h)
      exact ⟨c :: pre, post, by rw [hl]; rfl, fun b => by rw [List.set_cons_succ, hset]; rfl⟩

namespace Desk

variable {env : Environment} {d d' : Desk} {bs : List DeskAction}

/-! ## What one action does -/

/-- What an action makes of a desk. -/
inductive Effect (env : Environment) (d : Desk) : DeskAction → Desk → Prop where
  | lock {m : Nat} (q : Request) : (d.world.handle? m).isSome →
      (∀ t ∈ d.attempts m, t.holdsLock = false) →
      Effect env d (.lock m q) (d.setAttempts m (d.attempts m ++ [{ request := q }]))
  | proceed {m k : Nat} {x : Member} {h h' : Handle} {t : Attempt} {s : AttemptStage}
      {events : List Event} : d.world.members[m]? = some x → x.body = .handle h →
      (d.attempts m)[k]? = some t → Attempt.Move h t.request t.stage s h' events →
      Effect env d (.proceed m k) ({ d with
        world := (d.world.setMember m (x.setHandle h')).note events }.setAttempts m
          ((d.attempts m).set k (t.goto s)))
  | act {a : Action} {w' : World} : d.admits a → World.step env d.world a = some w' →
      Effect env d (.act a) { d with world := w' }

theorem effect_of_step {a : DeskAction} (h : step env d a = some d') : Effect env d a d' := by
  cases a with
  | lock m q =>
    simp only [step] at h
    split at h
    · next hg =>
      cases h
      simp only [isLocked, Bool.and_eq_true, Bool.not_eq_true', List.any_eq_false,
        Bool.not_eq_true] at hg
      exact .lock q hg.1 hg.2
    · cases h
  | proceed m k =>
    simp only [step, Option.bind_eq_bind, Option.bind_eq_some_iff, Option.pure_def,
      Option.some.injEq] at h
    obtain ⟨x, hx, hd, hh, t, ht, n, hn, rfl⟩ := h
    obtain ⟨s, hs, hm⟩ := Attempt.move_of_step hn
    rw [hs]
    exact .proceed hx (World.handle?_eq_some.1 hh) ht hm
  | act a =>
    simp only [step] at h
    split at h
    · next hg =>
      simp only [Option.bind_eq_bind, Option.bind_eq_some_iff, Option.pure_def,
        Option.some.injEq] at h
      obtain ⟨w', hw', rfl⟩ := h
      exact .act hg hw'
    · cases h

theorem isRequest_of_admits {a : Action} (h : d.admits a) : a.isRequest = false := by
  cases a <;> first | rfl | cases h

@[simp] theorem setAttempts_world (d : Desk) (m : Nat) (ts : List Attempt) :
    (d.setAttempts m ts).world = d.world := rfl

@[simp] theorem setAttempts_same (d : Desk) (m : Nat) (ts : List Attempt) :
    (d.setAttempts m ts).attempts m = ts := by
  simp [setAttempts]

theorem setAttempts_other {m n : Nat} (d : Desk) (ts : List Attempt) (hn : n ≠ m) :
    (d.setAttempts m ts).attempts n = d.attempts n := by
  simp [setAttempts, hn]

@[simp] theorem setAttempts_setAttempts (d : Desk) (m : Nat) (w : World) (ts us : List Attempt) :
    ({ d.setAttempts m ts with world := w } : Desk).setAttempts m us =
      { d with world := w }.setAttempts m us := by
  simp only [setAttempts]
  congr 1
  funext n
  split <;> rfl

/-! ## Soundness -/

/-- The attempts on every handle fit it, and there are none on anybody else. -/
structure Sound (d : Desk) : Prop where
  handle : ∀ (m : Nat) (x : Member) (h : Handle), d.world.members[m]? = some x →
    x.body = .handle h → Attempts.Sound (d.attempts m) h
  nobody : ∀ m, d.world.handle? m = none → d.attempts m = []

theorem Sound.lock (hS : d.Sound) {m : Nat} (q : Request) (hh : (d.world.handle? m).isSome)
    (hfree : ∀ t ∈ d.attempts m, t.holdsLock = false) :
    (d.setAttempts m (d.attempts m ++ [{ request := q }])).Sound := by
  refine ⟨fun n x h hx hb => ?_, fun n hn => ?_⟩
  · by_cases hnm : n = m
    · subst hnm
      rw [setAttempts_same]
      exact (hS.handle n x h hx hb).lock hfree q
    · rw [setAttempts_other _ _ hnm]
      exact hS.handle n x h hx hb
  · by_cases hnm : n = m
    · subst hnm
      rw [setAttempts_world] at hn
      rw [hn] at hh
      cases hh
    · rw [setAttempts_other _ _ hnm]
      exact hS.nobody n hn

theorem Sound.proceed (hS : d.Sound) {m k : Nat} {x : Member} {h h' : Handle} {t : Attempt}
    {s : AttemptStage} {events : List Event} (hx : d.world.members[m]? = some x)
    (hb : x.body = .handle h) (ht : (d.attempts m)[k]? = some t)
    (hm : Attempt.Move h t.request t.stage s h' events) :
    Sound ({ d with world := (d.world.setMember m (x.setHandle h')).note events }.setAttempts m
      ((d.attempts m).set k (t.goto s))) := by
  obtain ⟨hlt, -⟩ := List.getElem?_eq_some_iff.1 hx
  refine ⟨fun n y hd hy hbd => ?_, fun n hn => ?_⟩
  · rcases getElem?_set_cases hy with ⟨rfl, rfl⟩ | ⟨hnm, hy⟩
    · cases hbd
      obtain ⟨pre, post, hl, hset⟩ := exists_append_of_getElem? ht
      rw [setAttempts_same, hset]
      exact (hl ▸ hS.handle m x h hx hb).move hm
    · rw [setAttempts_other _ _ (Ne.symm hnm)]
      exact hS.handle n y hd hy hbd
  · by_cases hnm : n = m
    · subst hnm
      have hsome : (d.world.setMember n (x.setHandle h')).handle? n = some h' :=
        World.handle?_iff.2 ⟨x.setHandle h', by simp [World.setMember, hlt], rfl⟩
      cases hsome.symm.trans hn
    · rw [setAttempts_other _ _ hnm]
      refine hS.nobody n ?_
      rw [← hn]
      simp [World.handle?, World.setMember, World.note, List.getElem?_set_ne (Ne.symm hnm)]

theorem Sound.act (hS : d.Sound) {a : Action} {w' : World} (ha : d.admits a)
    (hw : World.step env d.world a = some w') : Sound { d with world := w' } := by
  have he := World.effect_of_step hw
  have hreq := isRequest_of_admits ha
  refine ⟨fun m x' h' hx' hb' => ?_, fun m hn => ?_⟩
  · rcases he.shift_back hx' with ⟨x, hx, hs⟩ | ⟨hnone, hnew⟩
    · obtain ⟨h, hb⟩ := hs.handle_back hb'
      obtain ⟨h₁, hb₁, hk⟩ := hs.kept hb hreq
      rw [hb'] at hb₁
      cases hb₁
      exact (hS.handle m x h hx hb).kept hk
    · have hnil : d.attempts m = [] := hS.nobody m (by simp [World.handle?, hnone])
      obtain ⟨ho, hc, hst, hr⟩ := hnew.handle h' hb'
      rw [show ({ d with world := w' } : Desk).attempts m = [] from hnil]
      exact .nil ho hc hst hr
  · refine hS.nobody m ?_
    cases hh : d.world.handle? m with
    | none => rfl
    | some h =>
      obtain ⟨x, hx, hb⟩ := World.handle?_iff.1 hh
      obtain ⟨x', hx', hs⟩ := he.shift hx
      obtain ⟨h', hb', -⟩ := hs.kept hb hreq
      rw [show w'.handle? m = some h' from World.handle?_iff.2 ⟨x', hx', hb'⟩] at hn
      cases hn

/-- **The attempts on every handle fit it after every run.** -/
theorem sound_of_run (h : run env {} bs = some d) : d.Sound := by
  refine foldlM_induction (P := fun _ d => d.Sound) ?_ ?_ h
  · exact ⟨fun m x h hx => by simp at hx, fun _ _ => rfl⟩
  · intro bs a d d' _ ih ha
    cases effect_of_step ha with
    | lock q hh hfree => exact ih.lock q hh hfree
    | proceed hx hb ht hm => exact ih.proceed hx hb ht hm
    | act hadm hw => exact ih.act hadm hw

/-! ## Whole requests -/

/-- A step of an attempt is nothing to the world, or it is a whole request. -/
theorem world_of_proceed {w : World} {ts : List Attempt} {m k : Nat} {x : Member} {h h' : Handle}
    {t : Attempt} {s : AttemptStage} {events : List Event} (hS : Attempts.Sound ts h)
    (hx : w.members[m]? = some x) (hb : x.body = .handle h) (ht : ts[k]? = some t)
    (hm : Attempt.Move h t.request t.stage s h' events) :
    (w.setMember m (x.setHandle h')).note events = w ∨
      ∃ a, World.step env w a = some ((w.setMember m (x.setHandle h')).note events) := by
  have hmem := List.mem_of_getElem? ht
  have hh := World.handle?_eq_some.2 hb
  generalize hst : t.stage = stage at hm
  cases hm with
  | change c hq =>
    have hidle := hS.ready t hmem hst
    refine Or.inr ⟨.configure m c, ?_⟩
    simp [World.step, World.onHandle, hx, hh, Handle.configure, Handle.guard, hidle, World.note]
  | control label hq =>
    have hidle := hS.ready t hmem hst
    refine Or.inr ⟨.createControl m label, ?_⟩
    simp [World.step, World.onHandle, hx, hh, Handle.createControl, Handle.guard, hidle,
      World.note]
  | begin r =>
    obtain ⟨hidle, rfl⟩ := hS.prepared t hmem r hst
    refine Or.inr ⟨.start m true, ?_⟩
    simp [World.step, World.start, hx, hh, Handle.start, Handle.guard, hidle]
  | _ => exact Or.inl (World.setMember_self hx hb)

/-- Whatever is reached step by step is reached by whole requests. -/
theorem world_of_run (h : run env {} bs = some d) :
    ∃ as, World.run env {} as = some d.world := by
  refine foldlM_induction (P := fun _ d => ∃ as, World.run env {} as = some d.world) ?_ ?_ h
  · exact ⟨[], rfl⟩
  · rintro bs a d d' hd ⟨as, has⟩ ha
    cases effect_of_step ha with
    | lock q hh hfree => exact ⟨as, has⟩
    | act hadm hw => exact ⟨_, World.run_concat.2 ⟨d.world, has, hw⟩⟩
    | proceed hx hb ht hm =>
      rcases world_of_proceed ((sound_of_run hd).handle _ _ _ hx hb) hx hb ht hm with hw | ⟨b, hw⟩
      · exact ⟨as, has.trans (congrArg some hw.symm)⟩
      · exact ⟨_, World.run_concat.2 ⟨d.world, has, hw⟩⟩

section
variable {m : Nat} {q : Request} {s s' : AttemptStage} {w : World} {x : Member} {h : Handle}

/-- The desk when one more attempt on the handle `m` has come to the stage `s`,
    in the world `w`. -/
def asked (d : Desk) (m : Nat) (q : Request) (s : AttemptStage) (w : World) : Desk :=
  { d with world := w }.setAttempts m (d.attempts m ++ [(⟨q, s⟩ : Attempt)])

/-- Nobody is in the middle of an attempt. -/
def IsQuiet (d : Desk) : Prop :=
  ∀ m, ∀ t ∈ d.attempts m, t.stage = .succeeded ∨ ∃ e, t.stage = .failed e

theorem IsQuiet.holdsLock {t : Attempt} (hq : d.IsQuiet) (ht : t ∈ d.attempts m) :
    t.holdsLock = false := by
  rcases hq m t ht with hs | ⟨e, hs⟩ <;> simp [Attempt.holdsLock, hs]

theorem IsQuiet.admits {a : Action} (hq : d.IsQuiet) (ha : a.isRequest = false) : d.admits a := by
  have hsp : ∀ n, d.isSpawning n = false := by
    intro n
    simp only [isSpawning, List.any_eq_false]
    intro t ht
    rcases hq n t ht with hs | ⟨e, hs⟩ <;> simp [hs]
  cases a with
  | runner n _ => simp [Desk.admits, hsp]
  | pump n _ => simp [Desk.admits, hsp]
  | _ => first | rfl | cases ha

theorem IsQuiet.asked (hq : d.IsQuiet) (hs : s = .succeeded ∨ ∃ e, s = .failed e) :
    (d.asked m q s w).IsQuiet := by
  intro n t ht
  by_cases hn : n = m
  · subst hn
    simp only [Desk.asked, setAttempts_same, List.mem_append, List.mem_singleton] at ht
    rcases ht with ht | rfl
    · exact hq n t ht
    · exact hs
  · rw [Desk.asked, setAttempts_other _ _ hn] at ht
    exact hq n t ht

/-- From the desk `d` one more attempt on the handle `m` can come to the stage
    `s`, in the world `w`. -/
def CanAsk (env : Environment) (d : Desk) (m : Nat) (q : Request) (s : AttemptStage)
    (w : World) : Prop :=
  ∃ bs, run env d bs = some (d.asked m q s w)

theorem CanAsk.lock (hq : d.IsQuiet) (hx : d.world.members[m]? = some x)
    (hb : x.body = .handle h) : CanAsk env d m q .locked d.world := by
  have hlocked : d.isLocked m = false := by
    simp only [isLocked, List.any_eq_false, Bool.not_eq_true]
    exact fun t ht => hq.holdsLock ht
  refine ⟨[.lock m q], ?_⟩
  simp [run, step, asked, hlocked, World.handle?_iff.2 ⟨x, hx, hb⟩]

/-- The one more attempt goes on. -/
theorem CanAsk.step (hc : CanAsk env d m q s w) {h' : Handle} {events : List Event}
    (hx : w.members[m]? = some x) (hb : x.body = .handle h)
    (hn : Attempt.step h ⟨q, s⟩ = some ⟨⟨q, s'⟩, h', events⟩) :
    CanAsk env d m q s' ((w.setMember m (x.setHandle h')).note events) := by
  obtain ⟨bs, hbs⟩ := hc
  refine ⟨bs ++ [DeskAction.proceed m (d.attempts m).length], foldlM_concat_eq_some.2 ⟨_, hbs, ?_⟩⟩
  simp only [Desk.step, asked, setAttempts_world, setAttempts_same, hx,
    World.handle?_eq_some.2 hb, List.getElem?_concat_length, Option.bind_eq_bind,
    Option.bind_some, hn, Option.pure_def, List.set_append_right _ _ (Nat.le_refl _),
    Nat.sub_self, List.set_cons_zero, setAttempts_setAttempts]

/-- It goes on without touching the handle. -/
theorem CanAsk.quiet (hc : CanAsk env d m q s w) (hx : w.members[m]? = some x)
    (hb : x.body = .handle h) (hn : Attempt.step h ⟨q, s⟩ = some ⟨⟨q, s'⟩, h, []⟩) :
    CanAsk env d m q s' w := by
  have hc' := hc.step hx hb hn
  rwa [World.setMember_self hx hb] at hc'

theorem exists_handle_of_step {w' : World} (hs : World.step env w (q.action m) = some w') :
    ∃ x h, w.members[m]? = some x ∧ x.body = .handle h := by
  cases q <;>
  · simp only [Request.action, World.step, World.onHandle, World.start, Option.bind_eq_bind,
      Option.bind_eq_some_iff] at hs
    obtain ⟨x, hx, h, hh, -⟩ := hs
    exact ⟨x, h, hx, World.handle?_eq_some.1 hh⟩

/-- A whole request that comes too late changes nothing. -/
theorem step_action_of_started {w' : World} (hx : w.members[m]? = some x)
    (hb : x.body = .handle h) (hst : h.status.state ≠ .notStarted)
    (hs : World.step env w (q.action m) = some w') : w' = w := by
  have hh := World.handle?_eq_some.2 hb
  cases q <;>
  · simp only [Request.action, World.step, World.onHandle, World.start, Handle.configure,
      Handle.createControl, Handle.start, Handle.guard, hx, hh, hst, if_false,
      Option.bind_eq_bind, Option.bind_some] at hs
    exact (Option.some.inj hs).symm

/-- **A whole request is an attempt that nobody interrupts.** -/
theorem canAsk_of_step {w' : World} (hq : d.IsQuiet)
    (hs : World.step env d.world (q.action m) = some w') :
    ∃ s, CanAsk env d m q s w' ∧ (s = .succeeded ∨ ∃ e, s = .failed e) := by
  obtain ⟨x, h, hx, hb⟩ := exists_handle_of_step hs
  have hh := World.handle?_eq_some.2 hb
  have hlock : CanAsk env d m q .locked d.world := .lock hq hx hb
  by_cases hidle : h.status.state = .notStarted
  · have hallow : CanAsk env d m q .allowed d.world :=
      hlock.quiet hx hb (by simp [Attempt.step, Handle.guard, hidle, Attempt.goto])
    have hput : ∀ h', (d.world.setMember m (x.setHandle h')).members[m]? =
        some (x.setHandle h') := by
      intro h'
      obtain ⟨hlt, -⟩ := List.getElem?_eq_some_iff.1 hx
      simp [World.setMember, hlt]
    cases q with
    | change c =>
      simp only [Request.action, World.step, World.onHandle, hx, hh, Handle.configure,
        Handle.guard, hidle, if_true, Option.bind_eq_bind, Option.bind_some] at hs
      cases hs
      exact ⟨_, (hallow.step hx hb rfl).quiet (hput _) rfl rfl, Or.inl rfl⟩
    | control label =>
      simp only [Request.action, World.step, World.onHandle, hx, hh, Handle.createControl,
        Handle.guard, hidle, if_true, Option.bind_eq_bind, Option.bind_some] at hs
      cases hs
      exact ⟨_, (hallow.step hx hb rfl).quiet (hput _) rfl rfl, Or.inl rfl⟩
    | start b =>
      simp only [Request.action, World.step, World.start, hx, hh, Handle.start, Handle.guard,
        hidle, if_true, Option.bind_eq_bind, Option.bind_some] at hs
      cases b with
      | false =>
        cases hs
        exact ⟨_, (hallow.quiet hx hb rfl).quiet hx hb rfl, Or.inr ⟨_, rfl⟩⟩
      | true =>
        cases hs
        have hbegun := (hallow.quiet hx hb rfl).step hx hb rfl
        exact ⟨_, (hbegun.quiet (hput _) rfl rfl).quiet (hput _) rfl rfl, Or.inl rfl⟩
  · have hw := step_action_of_started hx hb hidle hs
    subst hw
    have hrefuse : CanAsk env d m q (.refused (.alreadyStarted q.operation h.status.state))
        d.world :=
      hlock.quiet hx hb (by simp [Attempt.step, Handle.guard, hidle, Attempt.goto])
    exact ⟨_, hrefuse.quiet hx hb rfl, Or.inr ⟨_, rfl⟩⟩

end

/-- Whatever is reached by whole requests is reached step by step. -/
theorem exists_run_of_run {as : List Action} {w : World} (h : World.run env {} as = some w) :
    ∃ bs d, run env {} bs = some d ∧ d.world = w ∧ d.IsQuiet := by
  refine World.run_induction (P := fun _ w => ∃ bs d, run env {} bs = some d ∧ d.world = w ∧
    d.IsQuiet) ?_ ?_ h
  · exact ⟨[], {}, rfl, rfl, fun m t ht => by cases ht⟩
  · rintro as a w w' - ⟨bs, d, hd, rfl, hquiet⟩ ha
    by_cases hreq : ∃ m q, a = Request.action m q
    · obtain ⟨m, q, rfl⟩ := hreq
      obtain ⟨s, ⟨cs, hcs⟩, hs⟩ := canAsk_of_step hquiet ha
      exact ⟨bs ++ cs, _, foldlM_append_eq_some.2 ⟨d, hd, hcs⟩, rfl, hquiet.asked hs⟩
    · have hnot : a.isRequest = false := by
        cases a with
        | configure m c => exact absurd ⟨m, .change c, rfl⟩ hreq
        | createControl m label => exact absurd ⟨m, .control label, rfl⟩ hreq
        | start m b => exact absurd ⟨m, .start b, rfl⟩ hreq
        | _ => rfl
      refine ⟨bs ++ [DeskAction.act a], { d with world := w' },
        foldlM_concat_eq_some.2 ⟨d, hd, ?_⟩, rfl, hquiet⟩
      simp [step, hquiet.admits hnot, ha]

/-- **Step by step, under the lock, the same worlds are reached as by whole
    requests.** -/
theorem reachable_iff {w : World} :
    (∃ bs d, run env {} bs = some d ∧ d.world = w) ↔ ∃ as, World.run env {} as = some w := by
  constructor
  · rintro ⟨bs, d, hd, rfl⟩
    exact world_of_run hd
  · rintro ⟨as, has⟩
    obtain ⟨bs, d, hd, hw, -⟩ := exists_run_of_run has
    exact ⟨bs, d, hd, hw⟩

/-! ## What is frozen -/

/-- An attempt that was granted stays so. -/
theorem isGranted_later (h : run env d bs = some d') {m k : Nat} {t : Attempt}
    (ht : (d.attempts m)[k]? = some t) (hg : t.isGranted = true) :
    ∃ t', (d'.attempts m)[k]? = some t' ∧ t'.isGranted = true := by
  refine foldlM_induction (P := fun _ d' => ∃ t', (d'.attempts m)[k]? = some t' ∧
    t'.isGranted = true) ⟨t, ht, hg⟩ ?_ h
  rintro bs a e e' - ⟨t, ht, hg⟩ ha
  obtain ⟨hlt, -⟩ := List.getElem?_eq_some_iff.1 ht
  cases effect_of_step ha with
  | @lock n q _ _ =>
    by_cases hn : m = n
    · subst hn
      exact ⟨t, by rw [setAttempts_same, List.getElem?_append_left hlt, ht], hg⟩
    · exact ⟨t, by rw [setAttempts_other _ _ hn, ht], hg⟩
  | act _ _ => exact ⟨t, ht, hg⟩
  | @proceed n j x hd hd' u s events _ _ hu hm =>
    by_cases hn : m = n
    · subst hn
      rw [setAttempts_same]
      by_cases hj : j = k
      · subst hj
        rw [ht] at hu
        cases hu
        exact ⟨t.goto s, by simp [hlt], hm.isGranted hg⟩
      · exact ⟨t, by rw [List.getElem?_set_ne hj, ht], hg⟩
    · exact ⟨t, by rw [setAttempts_other _ _ hn, ht], hg⟩

/-- A step of an attempt that is not granted leaves the world alone. -/
theorem world_eq_or_isGranted {m k : Nat} (ha : step env d (.proceed m k) = some d') :
    d'.world = d.world ∨ ∃ t, (d'.attempts m)[k]? = some t ∧ t.isGranted = true := by
  cases effect_of_step ha with
  | @proceed _ _ x h h' t s events hx hb ht hm =>
    obtain ⟨hlt, -⟩ := List.getElem?_eq_some_iff.1 ht
    cases hg : (t.goto s).isGranted with
    | true => exact Or.inr ⟨t.goto s, by simp [hlt], hg⟩
    | false =>
      obtain ⟨rfl, rfl⟩ := hm.handle_eq_of_not_granted hg
      exact Or.inl (World.setMember_self hx hb)

/-- An attempt that has failed has left the world alone at each of its steps. -/
theorem world_eq_of_failed (h : run env {} bs = some d) {m k : Nat} {t : Attempt}
    (ht : (d.attempts m)[k]? = some t) (hf : t.isGranted = false) {past : List DeskAction}
    {d₁ d₂ : Desk} (hp : past ++ [DeskAction.proceed m k] <+: bs) (h₁ : run env {} past = some d₁)
    (h₂ : step env d₁ (.proceed m k) = some d₂) : d₂.world = d₁.world := by
  rcases world_eq_or_isGranted h₂ with hw | ⟨t₂, ht₂, hg⟩
  · exact hw
  · exfalso
    obtain ⟨rest, rfl⟩ := hp
    obtain ⟨e, he, hrest⟩ := foldlM_append_eq_some.1 h
    obtain ⟨e₁, he₁, hstep⟩ := foldlM_concat_eq_some.1 he
    rw [show run env {} past = some e₁ from he₁] at h₁
    cases h₁
    rw [hstep] at h₂
    cases h₂
    obtain ⟨t', ht', hg'⟩ := isGranted_later hrest ht₂ hg
    rw [ht] at ht'
    cases ht'
    rw [hf] at hg'
    cases hg'

/-- There is no second runner: what the first one was made with is kept. -/
theorem runner_later {past : List DeskAction} {m : Nat} {x₀ : Member} {h₀ : Handle} {r₀ : Runner}
    (h : run env {} past = some d) (h' : run env d bs = some d')
    (hx₀ : d.world.members[m]? = some x₀) (hb₀ : x₀.body = .handle h₀)
    (hr₀ : h₀.runner = some r₀) :
    ∃ x h r, d'.world.members[m]? = some x ∧ x.body = .handle h ∧ h.runner = some r ∧
      r.spec = r₀.spec ∧ r.controlled = r₀.controlled := by
  refine foldlM_induction (P := fun _ d' => ∃ x h r, d'.world.members[m]? = some x ∧
    x.body = .handle h ∧ h.runner = some r ∧ r.spec = r₀.spec ∧ r.controlled = r₀.controlled)
    ⟨x₀, h₀, r₀, hx₀, hb₀, hr₀, rfl, rfl⟩ ?_ h'
  rintro bs a e e' he ⟨x, hd, r, hx, hb, hr, hspec, hctl⟩ ha
  have hS := sound_of_run (foldlM_append_eq_some.2 ⟨d, h, he⟩)
  cases effect_of_step ha with
  | lock q _ _ => exact ⟨x, hd, r, hx, hb, hr, hspec, hctl⟩
  | act hadm hw =>
    obtain ⟨x', hx', hs⟩ := (World.effect_of_step hw).shift hx
    obtain ⟨hd', hb', hk⟩ := hs.kept hb (isRequest_of_admits hadm)
    obtain ⟨r', hr', hs', hc'⟩ := hk.runner r hr
    exact ⟨x', hd', r', hx', hb', hr', hs'.trans hspec, hc'.trans hctl⟩
  | @proceed n j y hn hn' t s events hy hbn ht hm =>
    by_cases hmn : n = m
    · subst hmn
      rw [hx] at hy
      cases hy
      rw [hb] at hbn
      cases hbn
      obtain ⟨hlt, -⟩ := List.getElem?_eq_some_iff.1 hx
      refine ⟨x.setHandle hn', hn', r, by simp [World.setMember, World.note, hlt], rfl, ?_, hspec,
        hctl⟩
      rw [← hr]
      exact (hS.handle n x hd hx hb).runner_move (List.mem_of_getElem? ht) hm (by rw [hr]; rfl)
    · exact ⟨x, hd, r, by
        simp [World.setMember, World.note, List.getElem?_set_ne hmn, hx], hb, hr, hspec, hctl⟩

/-- **What is configured is frozen at the start, and nothing is lost.**  At most
    one start is granted, and there is a runner just if one was.  It has what the
    requests amount to that have succeeded, in the order in which they got the
    lock.  Those that get the lock after the start are turned away.  And one that
    fails, with an illegal state, has changed nothing at any of its steps. -/
theorem configuration_is_frozen (hd : run env {} bs = some d) {m : Nat} {x : Member} {h : Handle}
    (hx : d.world.members[m]? = some x) (hb : x.body = .handle h) :
    (∀ (i j : Nat) (t u : Attempt), (d.attempts m)[i]? = some t → (d.attempts m)[j]? = some u →
      t.hasBegun = true → u.hasBegun = true → i = j) ∧
    (h.runner.isSome ↔ ∃ t ∈ d.attempts m, t.hasBegun = true) ∧
    (∀ r, h.runner = some r →
      r.spec = ⟨h.command, Request.options (succeeded (d.attempts m))⟩ ∧
      h.control.map (·.label) = Request.firstLabel? (succeeded (d.attempts m)) ∧
      r.controlled = (Request.firstLabel? (succeeded (d.attempts m))).isSome) ∧
    (∀ past d₀ x₀ h₀ r₀, past <+: bs → run env {} past = some d₀ →
      d₀.world.members[m]? = some x₀ → x₀.body = .handle h₀ → h₀.runner = some r₀ →
      ∃ r, h.runner = some r ∧ r.spec = r₀.spec ∧ r.controlled = r₀.controlled) ∧
    (∀ (i j : Nat) (t u : Attempt), i < j → (d.attempts m)[i]? = some t →
      (d.attempts m)[j]? = some u → t.hasBegun = true → u.stage = .locked ∨ u.IsTurnedAway) ∧
    (∀ (k : Nat) (t : Attempt) (e : Error), (d.attempts m)[k]? = some t →
      t.stage = .refused e ∨ t.stage = .failed e →
      e.kind = .illegalState ∧
      ∀ past d₁ d₂, past ++ [.proceed m k] <+: bs → run env {} past = some d₁ →
        step env d₁ (.proceed m k) = some d₂ → d₂.world = d₁.world) ∧
    (∀ q d', step env d (.lock m q) = some d' → d'.world = d.world) := by
  have hS := (sound_of_run hd).handle m x h hx hb
  have hlate : ∀ (i j : Nat) (t u : Attempt), i < j → (d.attempts m)[i]? = some t →
      (d.attempts m)[j]? = some u → t.hasBegun = true → u.stage = .locked ∨ u.IsTurnedAway := by
    intro i j t u hij ht hu hbegun
    obtain ⟨hi, rfl⟩ := List.getElem?_eq_some_iff.1 ht
    obtain ⟨hj, rfl⟩ := List.getElem?_eq_some_iff.1 hu
    exact (List.pairwise_iff_getElem.1 hS.order i j hi hj hij).2 hbegun
  have hnever : ∀ (i j : Nat) (t u : Attempt), i < j → (d.attempts m)[i]? = some t →
      (d.attempts m)[j]? = some u → t.hasBegun = true → u.hasBegun = true → False := by
    intro i j t u hij ht hu hbegun hbegun'
    rw [Attempt.hasBegun_eq_false (hlate i j t u hij ht hu hbegun)] at hbegun'
    cases hbegun'
  refine ⟨fun i j t u ht hu hbt hbu => ?_, ?_, fun r hr => ?_, ?_, hlate, fun k t e ht hs => ?_,
    fun q d' hl => ?_⟩
  · rcases Nat.lt_trichotomy i j with hij | hij | hij
    · exact (hnever i j t u hij ht hu hbt hbu).elim
    · exact hij
    · exact (hnever j i u t hij hu ht hbu hbt).elim
  · rw [hS.begun, ne_eq, ← hS.idle, Option.isSome_iff_ne_none]
  · have hst : h.status.state ≠ .notStarted := by
      rw [ne_eq, ← hS.idle, hr]
      nofun
    obtain ⟨hspec, hctl⟩ := hS.runner r hr
    have hlabel := hS.label_eq_succeeded hst
    refine ⟨?_, hlabel, ?_⟩
    · rw [hspec, ← hS.options_eq_succeeded hst]
      rfl
    · rw [hctl, ← hlabel, Option.isSome_map]
  · rintro past d₀ x₀ h₀ r₀ ⟨rest, rfl⟩ hp hx₀ hb₀ hr₀
    obtain ⟨e, he, hrest⟩ := foldlM_append_eq_some.1 hd
    rw [show run env {} past = some e from he] at hp
    cases hp
    obtain ⟨y, hy, r, hyx, hyb, hr, hspec, hctl⟩ := runner_later he hrest hx₀ hb₀ hr₀
    rw [hx] at hyx
    cases hyx
    rw [hb] at hyb
    cases hyb
    exact ⟨r, hr, hspec, hctl⟩
  · have hg : t.isGranted = false := by
      rcases hs with hs | hs <;> simp [Attempt.isGranted, hs]
    exact ⟨(hS.fits t (List.mem_of_getElem? ht)).kind hs,
      fun past d₁ d₂ hp h₁ h₂ => world_eq_of_failed hd ht hg hp h₁ h₂⟩
  · cases effect_of_step hl with
    | lock q _ _ => rfl

/-- A change, the stop control and a start get the lock one after the other.
    While the start has it somebody calls a stop, and finds nothing to stop;
    before the runner is spawned a second change gets the lock, and is turned
    away. -/
def contendedStart : List DeskAction :=
  [.act (.create ["a"] .storing), .lock 0 (.change (.survivor true)), .proceed 0 0, .proceed 0 0,
    .proceed 0 0, .lock 0 (.control "x"), .proceed 0 1, .proceed 0 1, .proceed 0 1,
    .lock 0 (.start true), .proceed 0 2, .act (.call .stop 0), .act (.proceed 0), .proceed 0 2,
    .act (.proceed 0), .proceed 0 2, .proceed 0 2, .lock 0 (.change (.survivor false)),
    .proceed 0 3, .proceed 0 2, .act (.runner 0 .proceed), .proceed 0 3]

/-- The runner has the first change and the stop control. -/
theorem configuration_is_frozen_contendedStart :
    ∃ d x h r, run .silent {} contendedStart = some d ∧ d.world.members[0]? = some x ∧
      x.body = .handle h ∧ h.runner = some r ∧
      succeeded (d.attempts 0) = [.change (.survivor true), .control "x", .start true] ∧
      r.spec = ⟨["a"], Request.options (succeeded (d.attempts 0))⟩ ∧
      r.controlled = (Request.firstLabel? (succeeded (d.attempts 0))).isSome := by
  refine ⟨_, _, _, _, rfl, rfl, rfl, rfl, ?requests, ?runner⟩
  case requests => rfl
  case runner =>
    have hs := (@configuration_is_frozen .silent _ contendedStart rfl 0 _ _ rfl rfl).2.2.1 _ rfl
    exact ⟨hs.1, hs.2.2⟩

end Desk

end Supervisor
