/-
  The attempts on one handle, and the handle they are about.

  * `Request.options qs` and `Request.label? qs`: what requests amount to, if all
    of them are granted, in their order;
  * `Attempt.Move`: the steps of an attempt (`Attempt.move_of_step`);
  * `Handle.Kept h h'`: what no other action changes of a handle (`Shift.kept`);
  * `Attempts.Sound ts h`: only the last of the attempts `ts` may have the lock,
    the options of `h` are what the granted ones amount to, and once a start has
    begun the later ones are turned away.  Every step keeps it.
-/
import Mathlib.Data.List.Basic
import Supervisor.Desk
import Supervisor.Proofs.Later

namespace Supervisor

/-! ## What requests amount to -/

namespace Request

/-- The choice of whether to be exempt. -/
def survivor? : Request → Option Bool
  | change (.survivor b) => some b
  | _ => none

/-- The choice of whether to tell the outcome. -/
def showExitCode? : Request → Option Bool
  | change (.showExitCode b) => some b
  | _ => none

/-- The choice of a directory. -/
def workingDir? : Request → Option String
  | change (.workingDir dir) => some dir
  | _ => none

/-- A variable. -/
def env? : Request → Option (String × String)
  | change (.env key value) => some (key, value)
  | _ => none

/-- The label of a stop control. -/
def label? : Request → Option String
  | control label => some label
  | _ => none

/-- The options after some requests: the last choice of each counts, and all
    variables do. -/
def options (qs : List Request) : Options where
  survivor := (qs.filterMap survivor?).getLast?.getD false
  showExitCode := (qs.filterMap showExitCode?).getLast?.getD false
  workingDir := (qs.filterMap workingDir?).getLast?
  env := qs.filterMap env?

/-- The label of the stop control after some requests: the first one counts. -/
def firstLabel? (qs : List Request) : Option String := (qs.filterMap label?).head?

@[simp] theorem options_nil : options [] = {} := rfl

@[simp] theorem firstLabel?_nil : firstLabel? [] = none := rfl

theorem options_concat_change (qs : List Request) (c : Change) :
    options (qs ++ [change c]) = (options qs).apply c := by
  cases c <;>
    simp [options, Options.apply, List.filterMap_append, survivor?, showExitCode?, workingDir?,
      env?]

theorem options_concat_control (qs : List Request) (label : String) :
    options (qs ++ [control label]) = options qs := by
  simp [options, List.filterMap_append, survivor?, showExitCode?, workingDir?, env?]

theorem options_concat_start (qs : List Request) (b : Bool) :
    options (qs ++ [start b]) = options qs := by
  simp [options, List.filterMap_append, survivor?, showExitCode?, workingDir?, env?]

theorem firstLabel?_concat_change (qs : List Request) (c : Change) :
    firstLabel? (qs ++ [change c]) = firstLabel? qs := by
  simp [firstLabel?, List.filterMap_append, label?]

theorem firstLabel?_concat_control (qs : List Request) (label : String) :
    firstLabel? (qs ++ [control label]) = (firstLabel? qs <|> some label) := by
  simp [firstLabel?, List.filterMap_append, label?, List.head?_append]

theorem firstLabel?_concat_start (qs : List Request) (b : Bool) :
    firstLabel? (qs ++ [start b]) = firstLabel? qs := by
  simp [firstLabel?, List.filterMap_append, label?]

end Request

/-! ## Steps of an attempt -/

/-- The stage that an attempt for the request `q` comes to, what becomes of the
    handle, and what is logged. -/
inductive Attempt.Move (h : Handle) (q : Request) :
    AttemptStage → AttemptStage → Handle → List Event → Prop where
  | allow : h.status.state = .notStarted → Move h q .locked .allowed h []
  | turnAway : h.status.state ≠ .notStarted →
      Move h q .locked (.refused (.alreadyStarted q.operation h.status.state)) h []
  | change (c : Change) : q = .change c →
      Move h q .allowed .done { h with options := h.options.apply c } []
  | control (label : String) : q = .control label →
      Move h q .allowed .done { h with control := h.control <|> some { label } } []
  | prepare : q = .start true →
      Move h q .allowed (.prepared { spec := h.spec, controlled := h.control.isSome }) h []
  | noRuntime : q = .start false → Move h q .allowed (.refused .noRuntime) h []
  | begin (r : Runner) :
      Move h q (.prepared r) .begun
        { h with status := h.status.advance .running, runner := some r }
        [.runnerSpawned h.command]
  | unlock : Move h q .begun .spawning h []
  | spawn : Move h q .spawning .succeeded h []
  | finish : Move h q .done .succeeded h []
  | fail (e : Error) : Move h q (.refused e) (.failed e) h []

/-- **The steps of an attempt are its moves**, and change nothing of it but the
    stage. -/
theorem Attempt.move_of_step {h : Handle} {t : Attempt} {n : Attempt.Result}
    (hn : t.step h = some n) :
    ∃ s, n.attempt = t.goto s ∧ Move h t.request t.stage s n.handle n.events := by
  obtain ⟨q, stage⟩ := t
  cases stage with
  | locked =>
    simp only [step] at hn
    split at hn
    · next hg => cases hn; exact ⟨_, rfl, .allow (World.guard_eq_ok.1 hg)⟩
    · next e hg =>
      cases hn
      unfold Handle.guard at hg
      split at hg
      · cases hg
      · next hs => cases hg; exact ⟨_, rfl, .turnAway hs⟩
  | allowed =>
    simp only [step, Option.some.injEq] at hn
    subst hn
    cases q with
    | change c => exact ⟨_, rfl, .change c rfl⟩
    | control label => exact ⟨_, rfl, .control label rfl⟩
    | start b =>
      cases b with
      | true => exact ⟨_, rfl, .prepare rfl⟩
      | false => exact ⟨_, rfl, .noRuntime rfl⟩
  | prepared r => cases hn; exact ⟨_, rfl, .begin r⟩
  | begun => cases hn; exact ⟨_, rfl, .unlock⟩
  | spawning => cases hn; exact ⟨_, rfl, .spawn⟩
  | done => cases hn; exact ⟨_, rfl, .finish⟩
  | refused e => cases hn; exact ⟨_, rfl, .fail e⟩
  | succeeded => cases hn
  | failed e => cases hn

namespace Attempt

/-- Its request was granted. -/
def isGranted (t : Attempt) : Bool :=
  match t.stage with
  | .begun | .spawning | .done | .succeeded => true
  | _ => false

/-- It is a start that was granted. -/
def hasBegun (t : Attempt) : Bool :=
  match t.request with
  | .start _ => t.isGranted
  | _ => false

/-- It was turned away because the run had begun. -/
def IsTurnedAway (t : Attempt) : Prop :=
  ∃ st, st ≠ .notStarted ∧ (t.stage = .refused (.alreadyStarted t.request.operation st) ∨
    t.stage = .failed (.alreadyStarted t.request.operation st))

/-- Its stage is one for its request, and the error one for the stage. -/
def Fits (t : Attempt) : Prop :=
  match t.stage with
  | .locked | .allowed => True
  | .prepared _ | .begun | .spawning => t.request = .start true
  | .done => ∀ b, t.request ≠ .start b
  | .succeeded => t.request ≠ .start false
  | .refused e | .failed e =>
    (∃ st, st ≠ .notStarted ∧ e = .alreadyStarted t.request.operation st) ∨
      (t.request = .start false ∧ e = .noRuntime)

variable {h h' : Handle} {t : Attempt} {s : AttemptStage} {events : List Event}

theorem Move.fits (hm : Move h t.request t.stage s h' events) (hf : t.Fits) : (t.goto s).Fits := by
  obtain ⟨q, stage⟩ := t
  cases hm with
  | allow _ => trivial
  | turnAway hs => exact Or.inl ⟨_, hs, rfl⟩
  | change c hq => cases hq; nofun
  | control label hq => cases hq; nofun
  | prepare hq => exact hq
  | noRuntime hq => exact Or.inr ⟨hq, rfl⟩
  | begin r => exact hf
  | unlock => exact hf
  | spawn => exact fun hq => by rw [show q = .start true from hf] at hq; cases hq
  | finish => exact hf false
  | fail e => exact hf

/-- Only a run that is not begun is found so. -/
theorem Move.state (hm : Move h t.request t.stage .allowed h' events) :
    h.status.state = .notStarted := by
  obtain ⟨q, stage⟩ := t
  cases hm with
  | allow hs => exact hs

theorem Move.runner {r : Runner} (hm : Move h t.request t.stage (.prepared r) h' events) :
    t.stage = .allowed ∧ r = { spec := h.spec, controlled := h.control.isSome } := by
  obtain ⟨q, stage⟩ := t
  cases hm with
  | prepare _ => exact ⟨rfl, rfl⟩

/-- One who finds the run begun is turned away. -/
theorem Move.isTurnedAway (hm : Move h t.request t.stage s h' events)
    (hst : h.status.state ≠ .notStarted) (hl : t.stage = .locked ∨ t.IsTurnedAway) :
    (t.goto s).IsTurnedAway := by
  rcases hl with hs | ⟨st, hst', hs | hs⟩
  · rw [hs] at hm
    cases hm with
    | allow hn => exact absurd hn hst
    | turnAway hn => exact ⟨_, hn, Or.inl rfl⟩
  · rw [hs] at hm
    cases hm with
    | fail e => exact ⟨st, hst', Or.inr rfl⟩
  · rw [hs] at hm
    cases hm

/-- Only in these steps is anything granted, and the handle changed. -/
theorem Move.quiet_or (hm : Move h t.request t.stage s h' events) :
    (h' = h ∧ (t.goto s).isGranted = t.isGranted) ∨ s = .done ∨ s = .begun := by
  obtain ⟨q, stage⟩ := t
  cases hm with
  | change c _ => exact Or.inr (Or.inl rfl)
  | control label _ => exact Or.inr (Or.inl rfl)
  | begin r => exact Or.inr (Or.inr rfl)
  | _ => exact Or.inl ⟨rfl, rfl⟩

/-- One who is turned away has not begun. -/
theorem hasBegun_eq_false (hl : t.stage = .locked ∨ t.IsTurnedAway) : t.hasBegun = false := by
  have hg : t.isGranted = false := by
    rcases hl with hs | ⟨st, -, hs | hs⟩ <;> simp [isGranted, hs]
  unfold hasBegun
  split
  · exact hg
  · rfl

/-- An attempt fails with an illegal state. -/
theorem Fits.kind {e : Error} (hf : t.Fits) (hs : t.stage = .refused e ∨ t.stage = .failed e) :
    e.kind = .illegalState := by
  rcases hs with hs | hs <;>
  · simp only [Fits, hs] at hf
    rcases hf with ⟨st, -, rfl⟩ | ⟨-, rfl⟩ <;> rfl

/-- What is granted stays so. -/
theorem Move.isGranted (hm : Move h t.request t.stage s h' events) (hg : t.isGranted = true) :
    (t.goto s).isGranted = true := by
  obtain ⟨q, stage⟩ := t
  cases hm with
  | unlock => rfl
  | spawn => rfl
  | finish => rfl
  | _ => cases hg

/-- What is not granted changes nothing. -/
theorem Move.handle_eq_of_not_granted (hm : Move h t.request t.stage s h' events)
    (hg : (t.goto s).isGranted = false) : h' = h ∧ events = [] := by
  obtain ⟨q, stage⟩ := t
  cases hm with
  | change c _ => cases hg
  | control label _ => cases hg
  | begin r => cases hg
  | _ => exact ⟨rfl, rfl⟩

end Attempt

/-! ## What other actions leave alone -/

/-- What no action but a request changes of a handle: the command, the options
    and the label of the stop control; and what its runner was started with. -/
structure Handle.Kept (h h' : Handle) : Prop where
  command : h'.command = h.command
  options : h'.options = h.options
  label : h'.control.map (·.label) = h.control.map (·.label)
  state : h.status.state ≤ h'.status.state
  idle : h.runner = none → h'.runner = none ∧ h'.status.state = h.status.state
  runner : ∀ r, h.runner = some r →
    ∃ r', h'.runner = some r' ∧ r'.spec = r.spec ∧ r'.controlled = r.controlled

namespace Handle.Kept

theorem refl (h : Handle) : h.Kept h where
  command := rfl
  options := rfl
  label := rfl
  state := Nat.le_refl _
  idle := fun hn => ⟨hn, rfl⟩
  runner := fun r hr => ⟨r, hr, rfl, rfl⟩

/-- A handle whose runner has moved. -/
theorem of_runner {h h' : Handle} {r r' : Runner} (hr : h.runner = some r)
    (hr' : h'.runner = some r') (hs : r'.spec = r.spec) (hk : r'.controlled = r.controlled)
    (hc : h'.command = h.command) (ho : h'.options = h.options)
    (hl : h'.control.map (·.label) = h.control.map (·.label))
    (hst : h.status.state ≤ h'.status.state) : h.Kept h' := by
  refine ⟨hc, ho, hl, hst, fun hn => ?_, fun r₁ hr₁ => ?_⟩
  · rw [hr] at hn; cases hn
  · rw [hr] at hr₁; cases hr₁; exact ⟨r', hr', hs, hk⟩

theorem disableControl (h : Handle) : h.Kept h.disableControl :=
  { refl h with label := by simp [Handle.disableControl, Function.comp_def] }

end Handle.Kept

theorem Runner.Move.kept {v : View} {x x' : Member} {h : Handle} {r : Runner} {s : RunnerStep}
    {c' : Coordinator} (hm : r.Move v x h s x' c') (hr : h.runner = some r) :
    ∃ h', x'.body = .handle h' ∧ h.Kept h' := by
  cases hm with
  | calm k r' _ hs hk _ _ =>
    exact ⟨_, rfl, .of_runner hr rfl hs hk rfl rfl rfl (Nat.le_refl _)⟩
  | register n _ _ =>
    refine ⟨_, rfl, .of_runner hr rfl ?_ ?_ rfl rfl rfl (Nat.le_refl _)⟩
    · split <;> rfl
    · split <;> rfl
  | disable o _ =>
    exact ⟨_, rfl, .of_runner hr rfl rfl rfl rfl rfl (Handle.Kept.disableControl h).label
      (Nat.le_refl _)⟩
  | detach o _ =>
    refine ⟨_, rfl, .of_runner hr rfl rfl rfl rfl rfl ?_ (Nat.le_refl _)⟩
    simp [Handle.detachControl, Function.comp_def]
  | publish o _ =>
    exact ⟨_, rfl, .of_runner hr rfl rfl rfl rfl rfl rfl (h.status.state_le_advance _)⟩
  | _ => exact ⟨_, rfl, .of_runner hr rfl rfl rfl rfl rfl rfl (Nat.le_refl _)⟩

/-- Whether an action is a request to a handle, with all its steps at once. -/
def Action.isRequest : Action → Bool
  | configure _ _ | createControl _ _ | start _ _ => true
  | _ => false

/-- The action that is the whole of a request. -/
def Request.action (m : Nat) : Request → Action
  | change c => .configure m c
  | control label => .createControl m label
  | start b => .start m b

/-- **Other actions keep what was configured.** -/
theorem Shift.kept {env : Environment} {w : World} {m : Nat} {x x' : Member} {a : Action}
    {h : Handle} (hs : Shift env w m x a x') (hb : x.body = .handle h)
    (ha : a.isRequest = false) : ∃ h', x'.body = .handle h' ∧ h.Kept h' := by
  cases hs with
  | same => exact ⟨h, hb, .refl h⟩
  | turn ht =>
    cases ht with
    | guest g' hg => rw [hg] at hb; cases hb
    | register n hg _ => rw [hg] at hb; cases hb
    | configure c _ _ => cases ha
    | createControl label _ _ => cases ha
    | start _ _ => cases ha
    | copies n hb' => rw [hb'] at hb; cases hb; exact ⟨_, rfl, { Handle.Kept.refl _ with }⟩
    | runner hb' hr hm => rw [hb'] at hb; cases hb; exact hm.kept hr
    | pump n hb' hr _ _ =>
      rw [hb'] at hb
      cases hb
      exact ⟨_, rfl, .of_runner hr rfl rfl rfl rfl rfl rfl (Nat.le_refl _)⟩
  | call _ _ hb' hm =>
    cases hm with
    | disable _ => rw [hb'] at hb; cases hb; exact ⟨_, rfl, .disableControl _⟩
    | _ => exact ⟨h, hb, .refl h⟩
  | cancel _ _ _ _ => exact ⟨h, hb, .refl h⟩

/-! ## Soundness -/

/-- The requests that were granted, in the order of the lock. -/
def granted (ts : List Attempt) : List Request := (ts.filter (·.isGranted)).map (·.request)

theorem granted_append (ts us : List Attempt) : granted (ts ++ us) = granted ts ++ granted us := by
  simp [granted]

/-- The requests that have succeeded, in the order of the lock. -/
def succeeded (ts : List Attempt) : List Request :=
  (ts.filter (·.stage = .succeeded)).map (·.request)

/-- The attempt `t` got the lock before the attempt `u`: it has let go of it,
    and if it was a start that was granted, `u` finds the run begun. -/
def Attempt.Before (t u : Attempt) : Prop :=
  t.holdsLock = false ∧ (t.hasBegun = true → u.stage = .locked ∨ u.IsTurnedAway)

/-- The attempts `ts`, in the order of the lock, fit the handle `h`. -/
structure Attempts.Sound (ts : List Attempt) (h : Handle) : Prop where
  order : ts.Pairwise Attempt.Before
  fits : ∀ t ∈ ts, t.Fits
  begun : (∃ t ∈ ts, t.hasBegun = true) ↔ h.status.state ≠ .notStarted
  ready : ∀ t ∈ ts, t.stage = .allowed → h.status.state = .notStarted
  prepared : ∀ t ∈ ts, ∀ r, t.stage = .prepared r →
    h.status.state = .notStarted ∧ r = { spec := h.spec, controlled := h.control.isSome }
  options : h.options = Request.options (granted ts)
  label : h.control.map (·.label) = Request.firstLabel? (granted ts)
  idle : h.runner = none ↔ h.status.state = .notStarted
  runner : ∀ r, h.runner = some r → r.spec = h.spec ∧ r.controlled = h.control.isSome

namespace Attempts.Sound

variable {ts pre post : List Attempt} {h h' : Handle} {t : Attempt} {s : AttemptStage}
  {events : List Event}

/-- A new handle, of which nothing was asked yet. -/
theorem nil (ho : h.options = {}) (hc : h.control = none) (hs : h.status = {})
    (hr : h.runner = none) : Sound [] h where
  order := .nil
  fits := by simp
  begun := by simp [hs]
  ready := by simp
  prepared := by simp
  options := by simp [granted, ho]
  label := by simp [granted, hc]
  idle := by simp [hs, hr]
  runner := by simp [hr]

/-- A request gets the lock. -/
theorem lock (hS : Sound ts h) (hfree : ∀ t ∈ ts, t.holdsLock = false) (q : Request) :
    Sound (ts ++ [{ request := q }]) h := by
  have hnew : ({ request := q } : Attempt).hasBegun = false := by cases q <;> rfl
  refine { hS with
    order := ?_, fits := ?_, begun := ?_, ready := ?_, prepared := ?_, options := ?_, label := ?_ }
  · refine List.pairwise_append.2 ⟨hS.order, List.pairwise_singleton _ _, fun t ht u hu => ?_⟩
    rw [List.mem_singleton.1 hu]
    exact ⟨hfree t ht, fun _ => Or.inl rfl⟩
  · intro t ht
    rcases List.mem_append.1 ht with ht | ht
    · exact hS.fits t ht
    · rw [List.mem_singleton.1 ht]
      trivial
  · rw [← hS.begun]
    simp [or_and_right, exists_or, hnew]
  · intro t ht hs
    rcases List.mem_append.1 ht with ht | ht
    · exact hS.ready t ht hs
    · rw [List.mem_singleton.1 ht] at hs
      cases hs
  · intro t ht r hs
    rcases List.mem_append.1 ht with ht | ht
    · exact hS.prepared t ht r hs
    · rw [List.mem_singleton.1 ht] at hs
      cases hs
  · rw [hS.options, granted_append]
    simp [granted, Attempt.isGranted]
  · rw [hS.label, granted_append]
    simp [granted, Attempt.isGranted]

/-- Other actions keep it. -/
theorem kept (hS : Sound ts h) (hk : h.Kept h') : Sound ts h' := by
  have hctl : h'.control.isSome = h.control.isSome := by
    rw [← Option.isSome_map (f := (·.label)), hk.label, Option.isSome_map]
  have hspec : h'.spec = h.spec := by
    simp only [Handle.spec, hk.command, hk.options]
  have hstate : h'.status.state = .notStarted ↔ h.status.state = .notStarted := by
    constructor
    · intro hs'
      have hle := hk.state
      rw [hs'] at hle
      exact RunState.eq_notStarted_of_le hle
    · intro hs
      rw [(hk.idle (hS.idle.2 hs)).2, hs]
  refine { hS with
    begun := ?_, ready := ?_, prepared := ?_, options := ?_, label := ?_, idle := ?_, runner := ?_ }
  · rw [hS.begun, ne_eq, ne_eq, hstate]
  · exact fun t ht hs => hstate.2 (hS.ready t ht hs)
  · intro t ht r hs
    rw [hstate, hspec, hctl]
    exact hS.prepared t ht r hs
  · rw [hk.options, hS.options]
  · rw [hk.label, hS.label]
  · rw [hstate, ← hS.idle]
    constructor
    · intro hn
      cases hr : h.runner with
      | none => rfl
      | some r =>
        obtain ⟨r', hr', -⟩ := hk.runner r hr
        rw [hn] at hr'
        cases hr'
    · exact fun hn => (hk.idle hn).1
  · intro r' hr'
    cases hr : h.runner with
    | none =>
      rw [(hk.idle hr).1] at hr'
      cases hr'
    | some r =>
      obtain ⟨r₁, hr₁, hs, hc⟩ := hk.runner r hr
      rw [hr'] at hr₁
      cases hr₁
      rw [hspec, hctl, hs, hc]
      exact hS.runner r hr

/-- Whoever has the lock was the last to get it. -/
theorem eq_nil_of_holdsLock (hS : Sound (pre ++ t :: post) h) (hl : t.holdsLock = true) :
    post = [] := by
  obtain ⟨-, hpost, -⟩ := List.pairwise_append.1 hS.order
  refine List.eq_nil_iff_forall_not_mem.2 fun u hu => ?_
  rw [((List.pairwise_cons.1 hpost).1 u hu).1] at hl
  cases hl

/-- Whoever was before has let go of the lock. -/
theorem holdsLock_eq_false (hS : Sound (pre ++ t :: post) h) {u : Attempt} (hu : u ∈ pre) :
    u.holdsLock = false :=
  ((List.pairwise_append.1 hS.order).2.2 u hu t List.mem_cons_self).1

/-- A step keeps the order: one who comes after a start is turned away. -/
theorem order_move (hS : Sound (pre ++ t :: post) h)
    (hm : Attempt.Move h t.request t.stage s h' events) :
    (pre ++ t.goto s :: post).Pairwise Attempt.Before := by
  obtain ⟨hpre, hpost, hcross⟩ := List.pairwise_append.1 hS.order
  obtain ⟨ht, hpost⟩ := List.pairwise_cons.1 hpost
  refine List.pairwise_append.2 ⟨hpre, List.pairwise_cons.2 ⟨fun u hu => ?_, hpost⟩, ?_⟩
  · -- one that is followed by another has no lock, so it is about to spawn its runner
    obtain ⟨hl, hb⟩ := ht u hu
    obtain ⟨q, stage⟩ := t
    cases hm with
    | spawn => exact ⟨rfl, hb⟩
    | _ => cases hl
  · intro v hv u hu
    rcases List.mem_cons.1 hu with rfl | hu
    · obtain ⟨hl, hb⟩ := hcross v hv t List.mem_cons_self
      refine ⟨hl, fun hbegun => Or.inr (hm.isTurnedAway ?_ (hb hbegun))⟩
      exact hS.begun.1 ⟨v, List.mem_append_left _ hv, hbegun⟩
    · exact hcross v hv u (List.mem_cons_of_mem _ hu)

/-- A step that leaves the handle alone, and grants nothing. -/
theorem quiet (hS : Sound (pre ++ t :: post) h)
    (hm : Attempt.Move h t.request t.stage s h events)
    (hg : (t.goto s).isGranted = t.isGranted) : Sound (pre ++ t.goto s :: post) h := by
  have hb : (t.goto s).hasBegun = t.hasBegun := by
    simp only [Attempt.hasBegun, hg]; rfl
  have hgr : granted (pre ++ t.goto s :: post) = granted (pre ++ t :: post) := by
    simp only [granted, List.filter_append, List.filter_cons, hg]
    split <;> simp [Attempt.goto]
  have hother : ∀ {u : Attempt}, u ∈ pre ++ t.goto s :: post →
      u = t.goto s ∨ u ∈ pre ++ t :: post := by
    intro u hu
    rcases List.mem_append.1 hu with hu | hu
    · exact Or.inr (List.mem_append_left _ hu)
    · exact (List.mem_cons.1 hu).imp id fun hu =>
        List.mem_append_right _ (List.mem_cons_of_mem _ hu)
  have ht : t ∈ pre ++ t :: post := List.mem_append_right _ List.mem_cons_self
  refine { hS with
    order := hS.order_move hm, fits := ?_, begun := ?_, ready := ?_, prepared := ?_
    options := by rw [hgr, hS.options]
    label := by rw [hgr, hS.label] }
  · intro u hu
    rcases hother hu with rfl | hu
    · exact hm.fits (hS.fits t ht)
    · exact hS.fits u hu
  · rw [← hS.begun]
    simp [or_and_right, exists_or, hb]
  · intro u hu hs
    rcases hother hu with rfl | hu
    · cases hs
      exact hm.state
    · exact hS.ready u hu hs
  · intro u hu r hs
    rcases hother hu with rfl | hu
    · cases hs
      exact ⟨hS.ready t ht hm.runner.1, hm.runner.2⟩
    · exact hS.prepared u hu r hs

/-- The last one to get the lock does what was asked, and the handle changes. -/
theorem act (hS : Sound (pre ++ [t]) h) (hm : Attempt.Move h t.request t.stage s h' events)
    (hs : s = .done ∨ s = .begun) (hg : t.isGranted = false)
    (hidle : h.status.state = .notStarted)
    (hbegun : (t.goto s).hasBegun = true ↔ h'.status.state ≠ .notStarted)
    (hoptions : h'.options = Request.options (granted (pre ++ [t]) ++ [t.request]))
    (hlabel : h'.control.map (·.label) = Request.firstLabel? (granted (pre ++ [t]) ++ [t.request]))
    (hrunner : h'.runner = none ↔ h'.status.state = .notStarted)
    (hspec : ∀ r, h'.runner = some r → r.spec = h'.spec ∧ r.controlled = h'.control.isSome) :
    Sound (pre ++ [t.goto s]) h' := by
  have hgr : granted (pre ++ [t.goto s]) = granted (pre ++ [t]) ++ [t.request] := by
    have ht : granted [t] = [] := by simp [granted, hg]
    rw [granted_append, granted_append, ht, List.append_nil]
    rcases hs with rfl | rfl <;> rfl
  have hnone : ¬ ∃ u ∈ pre, u.hasBegun = true := by
    rintro ⟨u, hu, hb⟩
    exact hS.begun.1 ⟨u, List.mem_append_left _ hu, hb⟩ hidle
  -- nobody else is in the middle of anything
  have hpre : ∀ u ∈ pre ++ [t.goto s], u.stage ≠ .allowed ∧ ∀ r, u.stage ≠ .prepared r := by
    intro u hu
    rcases List.mem_append.1 hu with hu | hu
    · have hl := hS.holdsLock_eq_false hu
      refine ⟨fun h => ?_, fun r h => ?_⟩
      · simp [Attempt.holdsLock, h] at hl
      · simp [Attempt.holdsLock, h] at hl
    · rw [List.mem_singleton.1 hu]
      rcases hs with rfl | rfl <;> simp [Attempt.goto]
  refine ⟨hS.order_move hm, fun u hu => ?_, ?_, fun u hu h => absurd h (hpre u hu).1,
    fun u hu r h => absurd h ((hpre u hu).2 r), ?_, ?_, hrunner, hspec⟩
  · rcases List.mem_append.1 hu with hu | hu
    · exact hS.fits u (List.mem_append_left _ hu)
    · rw [List.mem_singleton.1 hu]
      exact hm.fits (hS.fits t (List.mem_append_right _ (List.mem_singleton_self t)))
  · rw [← hbegun]
    constructor
    · rintro ⟨u, hu, hb⟩
      rcases List.mem_append.1 hu with hu | hu
      · exact absurd ⟨u, hu, hb⟩ hnone
      · rwa [List.mem_singleton.1 hu] at hb
    · exact fun hb => ⟨_, List.mem_append_right _ (List.mem_singleton_self _), hb⟩
  · rw [hgr, hoptions]
  · rw [hgr, hlabel]

/-- A change is made, or the stop control. -/
theorem serve (hS : Sound (pre ++ [t]) h) (hst : t.stage = .allowed)
    (hm : Attempt.Move h t.request t.stage .done h' events)
    (hq : ∀ b, t.request ≠ .start b) (hstatus : h'.status = h.status)
    (hrunner : h'.runner = h.runner)
    (hoptions : h'.options = Request.options (granted (pre ++ [t]) ++ [t.request]))
    (hlabel : h'.control.map (·.label) =
      Request.firstLabel? (granted (pre ++ [t]) ++ [t.request])) :
    Sound (pre ++ [t.goto .done]) h' := by
  have hidle := hS.ready t (List.mem_append_right _ (List.mem_singleton_self t)) hst
  have hnone := hS.idle.2 hidle
  refine hS.act hm (Or.inl rfl) (by simp [Attempt.isGranted, hst]) hidle ?_ hoptions hlabel ?_ ?_
  · have hb : (t.goto .done).hasBegun = false := by
      unfold Attempt.hasBegun
      split
      · next b hb => exact absurd hb (hq b)
      · rfl
    simp [hb, hstatus, hidle]
  · rw [hrunner, hstatus]
    exact hS.idle
  · intro r hr
    rw [hrunner, hnone] at hr
    cases hr

/-- The state is moved, and there is a runner. -/
theorem begin {r : Runner} (hS : Sound (pre ++ [t]) h) (hst : t.stage = .prepared r) :
    Sound (pre ++ [t.goto .begun])
      { h with status := h.status.advance .running, runner := some r } := by
  have ht : t ∈ pre ++ [t] := List.mem_append_right _ (List.mem_singleton_self t)
  obtain ⟨hidle, hr⟩ := hS.prepared t ht r hst
  have hq : t.request = .start true := by
    have hf := hS.fits t ht
    simpa only [Attempt.Fits, hst] using hf
  have hrunning : (h.status.advance .running).state = .running := by
    unfold RunStatus.advance RunStatus.canAdvance
    rw [hidle]
    rfl
  have hm : Attempt.Move h t.request t.stage .begun
      { h with status := h.status.advance .running, runner := some r }
      [.runnerSpawned h.command] := by
    rw [hst]
    exact .begin r
  refine hS.act hm (Or.inr rfl) (by simp [Attempt.isGranted, hst]) hidle ?_ ?_ ?_ ?_ ?_
  · simp [Attempt.hasBegun, Attempt.goto, hq, Attempt.isGranted, hrunning]
  · rw [hq, Request.options_concat_start, ← hS.options]
  · rw [hq, Request.firstLabel?_concat_start, ← hS.label]
  · simp [hrunning]
  · intro r' hr'
    cases hr'
    subst hr
    exact ⟨rfl, rfl⟩

/-- **Every step of an attempt keeps it.** -/
theorem move (hS : Sound (pre ++ t :: post) h)
    (hm : Attempt.Move h t.request t.stage s h' events) : Sound (pre ++ t.goto s :: post) h' := by
  rcases hm.quiet_or with ⟨rfl, hg⟩ | hs
  · exact hS.quiet hm hg
  have hlast : t.holdsLock = true → post = [] := hS.eq_nil_of_holdsLock
  generalize hst : t.stage = stage at hm
  rcases hs with rfl | rfl
  · cases hm with
    | change c hq =>
      obtain rfl := hlast (by simp [Attempt.holdsLock, hst])
      refine hS.serve hst (by rw [hst]; exact .change c hq) (by rw [hq]; nofun) rfl rfl ?_ ?_
      · rw [hq, Request.options_concat_change, ← hS.options]
      · rw [hq, Request.firstLabel?_concat_change, ← hS.label]
    | control label hq =>
      obtain rfl := hlast (by simp [Attempt.holdsLock, hst])
      refine hS.serve hst (by rw [hst]; exact .control label hq) (by rw [hq]; nofun) rfl rfl ?_ ?_
      · rw [hq, Request.options_concat_control, ← hS.options]
      · rw [hq, Request.firstLabel?_concat_control, ← hS.label]
        cases h.control <;> rfl
  · cases hm with
    | begin r =>
      obtain rfl := hlast (by simp [Attempt.holdsLock, hst])
      exact hS.begin hst

/-- A runner that there is stays. -/
theorem runner_move (hS : Sound ts h) (ht : t ∈ ts)
    (hm : Attempt.Move h t.request t.stage s h' events) (hr : h.runner.isSome) :
    h'.runner = h.runner := by
  generalize hst : t.stage = stage at hm
  cases hm with
  | begin r =>
    rw [hS.idle.2 (hS.prepared t ht r hst).1] at hr
    cases hr
  | _ => rfl

/-- Once the run has begun nobody has still to let go of the lock after having
    changed something. -/
theorem ne_done (hS : Sound ts h) (hst : h.status.state ≠ .notStarted) :
    ∀ t ∈ ts, t.stage ≠ .done := by
  intro t ht hd
  obtain ⟨pre, post, rfl⟩ := List.append_of_mem ht
  obtain rfl := hS.eq_nil_of_holdsLock (by simp [Attempt.holdsLock, hd])
  obtain ⟨u, hu, hb⟩ := hS.begun.2 hst
  rcases List.mem_append.1 hu with hu | hu
  · rcases ((List.pairwise_append.1 hS.order).2.2 u hu t List.mem_cons_self).2 hb with
      hs | ⟨st, -, hs | hs⟩ <;>
    · rw [hd] at hs
      cases hs
  · rw [List.mem_singleton.1 hu] at hb
    have hf := hS.fits t ht
    simp only [Attempt.Fits, hd] at hf
    unfold Attempt.hasBegun at hb
    split at hb
    · next b hq => exact hf b hq
    · cases hb

/-- What is asked for by others than a start is granted by those that have
    succeeded. -/
theorem filterMap_granted {β : Type} (hS : Sound ts h) (hst : h.status.state ≠ .notStarted)
    {f : Request → Option β} (hf : ∀ b, f (.start b) = none) :
    (granted ts).filterMap f = (succeeded ts).filterMap f := by
  simp only [granted, succeeded, List.filterMap_map, List.filterMap_filter]
  refine List.filterMap_congr fun t ht => ?_
  have hfit := hS.fits t ht
  have hne := hS.ne_done hst t ht
  cases hs : t.stage with
  | begun | spawning =>
    simp only [Attempt.Fits, hs] at hfit
    simp [Attempt.isGranted, hs, hfit, hf]
  | done => exact absurd hs hne
  | _ => simp [Attempt.isGranted, hs]

theorem options_eq_succeeded (hS : Sound ts h) (hst : h.status.state ≠ .notStarted) :
    h.options = Request.options (succeeded ts) := by
  rw [hS.options]
  unfold Request.options
  rw [hS.filterMap_granted hst (f := Request.survivor?) fun _ => rfl,
    hS.filterMap_granted hst (f := Request.showExitCode?) fun _ => rfl,
    hS.filterMap_granted hst (f := Request.workingDir?) fun _ => rfl,
    hS.filterMap_granted hst (f := Request.env?) fun _ => rfl]

theorem label_eq_succeeded (hS : Sound ts h) (hst : h.status.state ≠ .notStarted) :
    h.control.map (·.label) = Request.firstLabel? (succeeded ts) := by
  rw [hS.label]
  unfold Request.firstLabel?
  rw [hS.filterMap_granted hst (f := Request.label?) fun _ => rfl]

end Attempts.Sound

end Supervisor
