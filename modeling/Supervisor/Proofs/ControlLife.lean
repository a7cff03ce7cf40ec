/-
  The life of a stop control.

  * `StopControl.Later c c'`: `c'` may be what has become of the control `c` some time later.
    It keeps its label, and what is off stays off;
  * `Handle.ControlMove`: what an action of whatever party makes of the control of a handle
    (`Shift.control`, `World.control_step`, `World.control_back`);
  * `World.Obtained`, `World.Made`: the moments at which the control was handed out, and the
    one among them at which it was made (`exists_made_of_control`, `Made.unique`);
  * `CallStage.hasFound`: an activation at this stage has found its control enabled, so there
    is one (`control_of_hasFound`); `World.TooLate`: one that has not, and never will;
  * `control_life_is_one_way`: all that is promised of the life of a control.
-/
import Supervisor.Proofs.StopCalls

namespace Supervisor

/-! ## Controls later on -/

/-- A stop control later on. -/
structure StopControl.Later (c c' : StopControl) : Prop where
  label : c'.label = c.label
  enabled : c.enabled = false → c'.enabled = false
  attached : c.attached = false → c'.attached = false

theorem StopControl.Later.refl (c : StopControl) : c.Later c :=
  ⟨rfl, fun h => h, fun h => h⟩

theorem StopControl.Later.trans {a b c : StopControl} (h₁ : a.Later b) (h₂ : b.Later c) :
    a.Later c :=
  ⟨h₂.label.trans h₁.label, fun h => h₂.enabled (h₁.enabled h),
    fun h => h₂.attached (h₁.attached h)⟩

/-! ## What one action does -/

/-- What an action makes of the stop control of the handle `h` at the place `m`. -/
inductive Handle.ControlMove (m : Nat) (h : Handle) : Action → Option StopControl → Prop where
  | keep {a : Action} : ControlMove m h a h.control
  /-- before the start, and only if there is none -/
  | make (label : String) : h.status.state = .notStarted → h.control = none →
      ControlMove m h (.createControl m label) (some { label })
  /-- by an activation, or in the teardown -/
  | disable {a : Action} : ControlMove m h a h.disableControl.control
  /-- in the teardown, behind the step that disables it -/
  | detach {r : Runner} {o : Outcome} : h.runner = some r → r.stage = .detaching o →
      ControlMove m h (.runner m .proceed) h.detachControl.control

section
variable {env : Environment} {w : World} {m : Nat} {x x' : Member} {h : Handle} {a : Action}

theorem Runner.Move.control {v : View} {r : Runner} {s : RunnerStep} {c' : Coordinator}
    (hm : r.Move v x h s x' c') (hr : h.runner = some r) :
    ∃ h', x'.body = .handle h' ∧ h.ControlMove m (.runner m s) h'.control := by
  cases hm with
  | disable o _ => exact ⟨_, rfl, .disable⟩
  | detach o hs => exact ⟨_, rfl, .detach hr hs⟩
  | _ => exact ⟨_, rfl, .keep⟩

theorem Call.Move.control {bound now i : Nat} {held : Bool} {k : Call} {s : CallStage}
    (hm : k.Move bound now held x h s x') (hb : x.body = .handle h) :
    ∃ h', x'.body = .handle h' ∧ h.ControlMove m (.proceed i) h'.control := by
  cases hm with
  | disable _ => exact ⟨_, rfl, .disable⟩
  | _ => exact ⟨h, hb, .keep⟩

theorem Turn.control {c' : Coordinator} (ht : Turn env w m x a x' c') (hb : x.body = .handle h) :
    ∃ h', x'.body = .handle h' ∧ h.ControlMove m a h'.control := by
  cases ht with
  | guest g' hg | register n hg _ => rw [hb] at hg; cases hg
  | createControl label hb' hs =>
    obtain rfl := Body.handle.inj (hb.symm.trans hb')
    refine ⟨_, rfl, ?_⟩
    dsimp only
    cases hc : h.control with
    | none => exact .make label hs hc
    | some c => exact (show h.control = (some c <|> some { label }) from hc) ▸ .keep
  | runner hb' hr hm =>
    obtain rfl := Body.handle.inj (hb.symm.trans hb')
    exact hm.control hr
  | configure _ hb' _ | start hb' _ | copies _ hb' | pump _ hb' _ _ _ =>
    obtain rfl := Body.handle.inj (hb.symm.trans hb')
    exact ⟨_, rfl, .keep⟩

/-- **What an action makes of a member makes a move of its control.** -/
theorem Shift.control (hs : Shift env w m x a x') (hb : x.body = .handle h) :
    ∃ h', x'.body = .handle h' ∧ h.ControlMove m a h'.control := by
  cases hs with
  | same => exact ⟨h, hb, .keep⟩
  | turn ht => exact ht.control hb
  | call _ _ hb' hm =>
    obtain rfl := Body.handle.inj (hb.symm.trans hb')
    exact hm.control hb
  | cancel _ _ _ _ => exact ⟨h, hb, .keep⟩

end

namespace Handle.ControlMove

variable {m : Nat} {h : Handle} {a : Action} {o' : Option StopControl} {c c' : StopControl}

/-- A control that is there stays, and is later. -/
theorem later (hm : h.ControlMove m a o') (hc : h.control = some c) :
    ∃ c', o' = some c' ∧ c.Later c' := by
  cases hm with
  | keep => exact ⟨c, hc, .refl c⟩
  | make label _ hn => rw [hc] at hn; cases hn
  | disable =>
    exact ⟨{ c with enabled := false }, by simp [disableControl, hc], rfl, fun _ => rfl, fun h => h⟩
  | detach _ _ =>
    exact ⟨{ c with attached := false }, by simp [detachControl, hc], rfl, fun h => h, fun _ => rfl⟩

/-- A control was there before, or has just been made. -/
theorem back (hm : h.ControlMove m a (some c')) :
    (∃ c, h.control = some c ∧ c.Later c') ∨ h.control = none ∧ ∃ label,
      a = .createControl m label ∧ h.status.state = .notStarted ∧ c' = { label } := by
  cases hc : h.control with
  | some c =>
    obtain ⟨c₁, hc₁, hl⟩ := hm.later hc
    obtain rfl := Option.some.inj hc₁
    exact .inl ⟨c, rfl, hl⟩
  | none =>
    refine .inr ⟨rfl, ?_⟩
    generalize ho : some c' = o' at hm
    cases hm with
    | make label hs _ => exact ⟨label, rfl, hs, Option.some.inj ho⟩
    | keep => rw [hc] at ho; cases ho
    | disable => simp [disableControl, hc] at ho
    | detach _ _ => simp [detachControl, hc] at ho

/-- **A control is detached by the runner alone**, at its own stage of the teardown. -/
theorem detached (hm : h.ControlMove m a (some c')) (hc : h.control = some c)
    (hon : c.attached = true) (hoff : c'.attached = false) :
    a = .runner m .proceed ∧ ∃ r o, h.runner = some r ∧ r.stage = .detaching o := by
  generalize ho : some c' = o' at hm
  cases hm with
  | detach hr hs => exact ⟨rfl, _, _, hr, hs⟩
  | make label _ hn => rw [hc] at hn; cases hn
  | keep =>
    obtain rfl := Option.some.inj (ho.trans hc)
    rw [hon] at hoff
    cases hoff
  | disable =>
    obtain rfl : c' = { c with enabled := false } := by simpa [disableControl, hc] using ho
    rw [show c.attached = false from hoff] at hon
    cases hon

/-- To detach a control keeps the order of the flags, if it is disabled by then. -/
theorem disabled (hm : h.ControlMove m a (some c')) (hoff : c'.attached = false)
    (hstage : ∀ r o, h.runner = some r → r.stage = .detaching o →
      ∀ c, h.control = some c → c.enabled = false)
    (hord : ∀ c, h.control = some c → c.attached = false → c.enabled = false) :
    c'.enabled = false := by
  obtain ⟨c, hc, hl⟩ | ⟨-, label, -, -, rfl⟩ := hm.back
  · cases hon : c.attached with
    | false => exact hl.enabled (hord c hc hon)
    | true =>
      obtain ⟨-, r, o, hr, hs⟩ := hm.detached hc hon hoff
      exact hl.enabled (hstage r o hr hs c hc)
  · cases hoff

end Handle.ControlMove

namespace World

variable {env : Environment} {w w' : World} {as bs : List Action} {m i : Nat} {a : Action}
  {x : Member} {h : Handle} {c c' : StopControl} {k : Call}

/-! ## The control of a handle -/

/-- The stop control of the handle at a place. -/
def control? (w : World) (m : Nat) : Option StopControl := (w.handle? m).bind (·.control)

theorem control?_eq (hx : w.members[m]? = some x) (hb : x.body = .handle h) :
    w.control? m = h.control := by
  simp [control?, handle?_iff.2 ⟨x, hx, hb⟩]

theorem exists_of_control? (hc : w.control? m = some c) :
    ∃ x h, w.members[m]? = some x ∧ x.body = .handle h ∧ h.control = some c := by
  obtain ⟨h, hh, hc⟩ := Option.bind_eq_some_iff.1 hc
  obtain ⟨x, hx, hb⟩ := handle?_iff.1 hh
  exact ⟨x, h, hx, hb, hc⟩

/-- What an action does to a handle is a move of its control. -/
theorem control_step (ha : step env w a = some w') (hx : w.members[m]? = some x)
    (hb : x.body = .handle h) : h.ControlMove m a (w'.control? m) := by
  obtain ⟨x', hx', hs⟩ := (effect_of_step ha).shift hx
  obtain ⟨h', hb', hm⟩ := hs.control hb
  rwa [control?_eq hx' hb']

/-- Whoever has a control was there before: a new handle has none. -/
theorem control_back (ha : step env w a = some w') (hc : w'.control? m = some c') :
    ∃ x h, w.members[m]? = some x ∧ x.body = .handle h ∧ h.ControlMove m a (some c') := by
  obtain ⟨x', h', hx', hb', hc'⟩ := exists_of_control? hc
  obtain ⟨x, hx, hs⟩ | ⟨-, hnew⟩ := (effect_of_step ha).shift_back hx'
  · obtain ⟨h, hb⟩ := hs.handle_back hb'
    exact ⟨x, h, hx, hb, hc ▸ control_step ha hx hb⟩
  · rw [(hnew.handle h' hb').2.1] at hc'
    cases hc'

/-- **A control stays where it is**, and is later. -/
theorem control_later (hw : run env w bs = some w') (hc : w.control? m = some c) :
    ∃ c', w'.control? m = some c' ∧ c.Later c' := by
  refine run_induction (P := fun _ w' => ∃ c', w'.control? m = some c' ∧ c.Later c')
    ⟨c, hc, .refl c⟩ ?_ hw
  rintro bs a u u' - ⟨c₁, hc₁, hl⟩ ha
  obtain ⟨x, h, hx, hb, hh⟩ := exists_of_control? hc₁
  obtain ⟨c₂, hc₂, hl'⟩ := (control_step ha hx hb).later hh
  exact ⟨c₂, hc₂, hl.trans hl'⟩

/-- **A control that is not attached is not enabled**, after every run. -/
theorem enabled_of_attached (hw : run env {} as = some w) (hc : w.control? m = some c)
    (hoff : c.attached = false) : c.enabled = false := by
  refine run_induction (P := fun _ w => ∀ m c, w.control? m = some c → c.attached = false →
    c.enabled = false) ?_ ?_ hw m c hc hoff
  · intro m c hc
    simp [control?, handle?] at hc
  · intro as a w w' hw ih ha m c' hc' hoff
    obtain ⟨x, h, hx, hb, hm⟩ := control_back ha hc'
    refine hm.disabled hoff (fun r o hr hs => ?_) fun c hc => ih m c (by rwa [control?_eq hx hb])
    exact ((sound_of_run hw hx h hb).run r hr).disabled (by rw [hs]; rfl)

/-- **A control of a run that is finished is detached.** -/
theorem detached_of_finished (hw : run env {} as = some w) (hh : w.handle? m = some h)
    (hf : h.status.state = .finished) (hc : h.control = some c) : c.attached = false := by
  obtain ⟨x, hx, hb⟩ := handle?_iff.1 hh
  have hS := sound_of_run hw hx h hb
  cases hr : h.runner with
  | none =>
    rw [(hS.idle hr).2] at hf
    cases hf
  | some r =>
    have hR := hS.run r hr
    exact hR.detached (by rw [hR.finished_iff.1 hf]; rfl) c hc

/-! ## Handed out and made -/

/-- In the run `as`, after the actions `past`, in the world `v`, the stop control of the
    handle at the place `m` was asked for with the label, and `c` was handed out. -/
def Obtained (env : Environment) (as : List Action) (m : Nat) (label : String)
    (past : List Action) (v : World) (c : StopControl) : Prop :=
  Took env as past (.createControl m label) v ∧
    ∃ h h', v.handle? m = some h ∧ h.createControl label = .ok h' ∧ h'.control = some c

/-- At this moment it was made: there was none. -/
structure Made (env : Environment) (as : List Action) (m : Nat) (label : String)
    (past : List Action) (v : World) : Prop where
  obtained : Obtained env as m label past v { label }
  none : v.control? m = none

theorem Made.took {label : String} {past : List Action} {v : World}
    (h : Made env as m label past v) : Took env as past (.createControl m label) v :=
  h.obtained.1

theorem Made.mono {label : String} {past : List Action} {v : World}
    (h : Made env as m label past v) (hab : as <+: bs) : Made env bs m label past v :=
  ⟨⟨h.took.mono hab, h.obtained.2⟩, h.none⟩

/-- Who asks for a control before the start gets the one that is there, or a new one. -/
theorem createControl_eq_ok {h h' : Handle} {label : String} :
    h.createControl label = .ok h' ↔
      h.status.state = .notStarted ∧ h' = { h with control := h.control <|> some { label } } := by
  unfold Handle.createControl Handle.guard
  by_cases hs : h.status.state = .notStarted
  · simp [hs, bind, Except.bind, pure, Except.pure, eq_comm]
  · simp [hs, bind, Except.bind]

theorem step_createControl {h h' : Handle} {label : String} (hx : w.members[m]? = some x)
    (hb : x.body = .handle h) (hc : h.createControl label = .ok h') :
    step env w (.createControl m label) = some (w.setMember m (x.setHandle h')) := by
  simp [step, onHandle, hx, handle?_eq_some.2 hb, hc]

/-- From the moment it was made there is a control. -/
theorem Made.control_after {label : String} {past past' : List Action} {v v' : World}
    (h : Made env as m label past v) (h' : Took env as past' a v')
    (hp : past ++ [.createControl m label] <+: past') : (v'.control? m).isSome := by
  obtain ⟨⟨ht, hd, hd', hh, hok, hc⟩, -⟩ := h
  obtain ⟨x, hx, hb⟩ := handle?_iff.1 hh
  obtain ⟨u, rest, ha, hrest⟩ := ht.between h' hp
  obtain rfl := Option.some.inj (ha.symm.trans (step_createControl hx hb hok))
  obtain ⟨hlt, -⟩ := List.getElem?_eq_some_iff.1 hx
  have hu : (v.setMember m (x.setHandle hd')).control? m = some { label } :=
    (control?_eq (List.getElem?_set_self hlt) rfl).trans hc
  obtain ⟨c, hc, -⟩ := control_later hrest hu
  rw [hc]
  rfl

/-- **A control is made at one moment at most.** -/
theorem Made.unique {l l' : String} {past past' : List Action} {v v' : World}
    (h : Made env as m l past v) (h' : Made env as m l' past' v') : l = l' ∧ past = past' := by
  obtain rfl | hp | hp := h.took.cases_past h'.took
  · exact ⟨(Action.createControl.inj (h.took.eq_of_past h'.took).1).2, rfl⟩
  · have := h.control_after h'.took hp
    rw [h'.none] at this
    cases this
  · have := h'.control_after h.took hp
    rw [h.none] at this
    cases this

/-- **Where there is a control, it was made**, and is later. -/
theorem exists_made_of_control (hw : run env {} as = some w) (hc : w.control? m = some c) :
    ∃ label past v, Made env as m label past v ∧ StopControl.Later { label } c := by
  refine run_induction (P := fun as w => ∀ c, w.control? m = some c →
    ∃ label past v, Made env as m label past v ∧ StopControl.Later { label } c) ?_ ?_ hw c hc
  · intro c hc
    simp [control?, handle?] at hc
  · intro as a w w' hw ih ha c' hc'
    obtain ⟨x, h, hx, hb, hm⟩ := control_back ha hc'
    obtain ⟨c, hc, hl⟩ | ⟨hn, label, rfl, hs, rfl⟩ := hm.back
    · obtain ⟨label, past, v, hmade, hl'⟩ := ih c ((control?_eq hx hb).trans hc)
      exact ⟨label, past, v, hmade.mono (List.prefix_append _ _), hl'.trans hl⟩
    · refine ⟨label, as, w, ⟨⟨.last _ hw, h, _, handle?_iff.2 ⟨x, hx, hb⟩,
        createControl_eq_ok.2 ⟨hs, rfl⟩, ?_⟩, ?_⟩, .refl _⟩
      · rw [hn]
        rfl
      · rw [control?_eq hx hb, hn]

/-- **Whoever is handed out a control gets the one that was made**, at this moment or
    before; then nothing else happens. -/
theorem Obtained.made {label : String} {past : List Action} {v : World}
    (h : Obtained env as m label past v c) :
    ∃ first past₀ v₀, Made env as m first past₀ v₀ ∧ StopControl.Later { label := first } c ∧
      (past₀ = past ∨ past₀ ++ [.createControl m first] <+: past ∧ v.control? m = some c ∧
        step env v (.createControl m label) = some v) := by
  obtain ⟨ht, hd, hd', hh, hok, hc⟩ := h
  obtain ⟨x, hx, hb⟩ := handle?_iff.1 hh
  obtain ⟨-, rfl⟩ := createControl_eq_ok.1 hok
  cases hcon : hd.control with
  | none =>
    obtain rfl : { label } = c := by simpa [hcon] using hc
    refine ⟨label, past, v, ⟨⟨ht, hd, _, hh, hok, hc⟩, ?_⟩, .refl _, .inl rfl⟩
    rw [control?_eq hx hb, hcon]
  | some c₀ =>
    obtain rfl : c₀ = c := by simpa [hcon] using hc
    have hv : v.control? m = some c₀ := (control?_eq hx hb).trans hcon
    obtain ⟨first, past₀, v₀, hmade, hl⟩ := exists_made_of_control ht.2 hv
    refine ⟨first, past₀, v₀, hmade.mono ht.earlier, hl, .inr ⟨hmade.took.1, hv, ?_⟩⟩
    have hself : { hd with control := hd.control <|> some { label } } = hd := by
      cases hd
      cases hcon
      rfl
    rw [step_createControl hx hb hok, hself, setMember_self hx hb]

end World

/-! ## Activations -/

/-- Whether an activation that has come to the stage has found its control enabled. -/
def CallStage.hasFound : CallStage → Bool
  | entered | returned false | abandoned => false
  | _ => true

/-- An activation goes on only on a handle that has a control, and leaves it disabled. -/
theorem Call.Move.hasFound {bound now : Nat} {held : Bool} {x x' : Member} {h : Handle} {k : Call}
    {s : CallStage} (hm : k.Move bound now held x h s x') (hb : x.body = .handle h)
    (hO : k.stage.isOf k.kind = true) (hkind : k.kind = .activate)
    (hback : k.stage.hasFound = true → ∃ c, h.control = some c) (hs : s.hasFound = true) :
    ∃ h' c, x'.body = .handle h' ∧ h'.control = some c ∧
      (s = .returned true → c.enabled = false) := by
  have hleave : k.leave.stage = .disabling := by simp [Call.leave, Call.goto, hkind]
  cases hm with
  | disabled => cases hs
  | begin _ hk | wait _ hk _ | pointless _ hk _ => rw [hkind] at hk; cases hk
  | ended hst _ => rw [hst, hkind] at hO; cases hO
  | enabled _ _ he =>
    obtain ⟨c, hc⟩ : ∃ c, h.control = some c := by
      cases hc : h.control with
      | none => simp [Handle.isControlEnabled, hc] at he
      | some c => exact ⟨c, rfl⟩
    exact ⟨h, c, hb, hc, fun hr => by cases hr⟩
  | found hst _ | lost hst _ | running hst _ | ask hst _ =>
    obtain ⟨c, hc⟩ := hback (by rw [hst]; rfl)
    exact ⟨h, c, hb, hc, fun hr => by cases hr⟩
  | idle hst _ | asked hst _ | finished _ hst _ | timeout _ hst _ _ =>
    obtain ⟨c, hc⟩ := hback (by rw [hst]; rfl)
    exact ⟨h, c, hb, hc, fun hr => by rw [hleave] at hr; cases hr⟩
  | disable hst =>
    obtain ⟨c, hc⟩ := hback (by rw [hst]; rfl)
    exact ⟨_, { c with enabled := false }, rfl, by simp [Handle.disableControl, hc], fun _ => rfl⟩

namespace World

variable {env : Environment} {w w' : World} {as bs : List Action} {m i : Nat} {a : Action}
  {c : StopControl} {k : Call}

/-- **An activation that has found its control enabled has one**, and it is disabled once
    the activation has returned. -/
theorem control_of_hasFound (hw : run env {} as = some w) (hk : w.calls[i]? = some k)
    (hkind : k.kind = .activate) (hs : k.stage.hasFound = true) :
    ∃ c, w.control? k.member = some c ∧ (k.stage = .returned true → c.enabled = false) := by
  refine run_induction (P := fun _ w => ∀ i k, w.calls[i]? = some k → k.kind = .activate →
    k.stage.hasFound = true → ∃ c, w.control? k.member = some c ∧
      (k.stage = .returned true → c.enabled = false)) ?_ ?_ hw i k hk hkind hs
  · intro i k hk
    simp at hk
  · intro as a w w' hw ih ha i k' hk' hkind hs
    obtain ⟨k, hk, hsh⟩ | ⟨-, -, hst⟩ := (effect_of_step ha).call_back hk'
    · cases hsh with
      | same =>
        obtain ⟨c, hc, hoff⟩ := ih i _ hk hkind hs
        have hstep : run env w [a] = some w' := run_cons.2 ⟨w', ha, rfl⟩
        obtain ⟨c', hc', hl⟩ := control_later hstep hc
        exact ⟨c', hc', fun hr => hl.enabled (hoff hr)⟩
      | proceed =>
        obtain ⟨k₁, x, h, s, x', log, hk₁, hx, hb, hm, rfl⟩ := exists_move_of_proceed ha
        obtain rfl := Option.some.inj (hk.symm.trans hk₁)
        obtain ⟨hlt, -⟩ := List.getElem?_eq_some_iff.1 hk
        obtain ⟨hltm, -⟩ := List.getElem?_eq_some_iff.1 hx
        rw [← Option.some.inj ((List.getElem?_set_self hlt).symm.trans hk')] at hs hkind ⊢
        obtain ⟨h', c, hb', hc, hoff⟩ := hm.hasFound hb (isOf_of_run hw hk) hkind
          (fun hf => (ih i k hk hkind hf).imp fun c hc => (control?_eq hx hb).symm.trans hc.1) hs
        exact ⟨c, (control?_eq (List.getElem?_set_self hltm) hb').trans hc, hoff⟩
      | abandon => cases hs
    · rw [hst] at hs
      cases hs

/-- The call `i` has come too late: it has returned `false` or was abandoned, or else its
    next step is to return `false`, which changes nothing but the call. -/
def TooLate (env : Environment) (w : World) (i : Nat) : Prop :=
  ∃ k, w.calls[i]? = some k ∧ (k.stage = .returned false ∨ k.stage = .abandoned ∨
    k.stage = .entered ∧ step env w (.proceed i) =
      some { w with calls := w.calls.set i (k.goto (.returned false)) })

theorem step_of_disabled (hk : w.calls[i]? = some k) (hkind : k.kind = .activate)
    (hs : k.stage = .entered) (hc : w.control? k.member = some c) (hoff : c.enabled = false) :
    step env w (.proceed i) =
      some { w with calls := w.calls.set i (k.goto (.returned false)) } := by
  obtain ⟨x, h, hx, hb, hh⟩ := exists_of_control? hc
  have hen : h.isControlEnabled = false := by simp [Handle.isControlEnabled, hh, hoff]
  obtain ⟨hlt, rfl⟩ := List.getElem?_eq_some_iff.1 hx
  simp [step, callStep, hk, hx, handle?_eq_some.2 hb, Call.step, hs, hkind, hen, setMember, note,
    List.set_getElem_self]

/-- Such a call finds the control disabled, and nothing else can become of it. -/
theorem stage_of_disabled (hk : w.calls[i]? = some k) (hkind : k.kind = .activate)
    (hc : w.control? k.member = some c) (hoff : c.enabled = false)
    (hs : k.stage.hasFound = false) (hw : run env w bs = some w') :
    ∃ k', w'.calls[i]? = some k' ∧ k'.kind = .activate ∧ k'.member = k.member ∧
      k'.stage.hasFound = false := by
  refine run_induction (P := fun _ w' => ∃ k', w'.calls[i]? = some k' ∧ k'.kind = .activate ∧
    k'.member = k.member ∧ k'.stage.hasFound = false) ⟨k, hk, hkind, rfl, hs⟩ ?_ hw
  rintro bs a u u' hu ⟨k₁, hk₁, hkind₁, hm₁, hs₁⟩ ha
  obtain ⟨k₂, hk₂, hsh⟩ := (effect_of_step ha).call_shift hk₁
  refine ⟨k₂, hk₂, ?_⟩
  cases hsh with
  | same => exact ⟨hkind₁, hm₁, hs₁⟩
  | abandon => exact ⟨hkind₁, hm₁, rfl⟩
  | @proceed x x' h s hx hb hmove =>
    obtain ⟨c', hc', hl⟩ := control_later hu hc
    refine ⟨hkind₁, hm₁, ?_⟩
    cases hmove with
    | disabled => rfl
    | enabled _ _ he =>
      rw [← hm₁, control?_eq hx hb] at hc'
      simp [Handle.isControlEnabled, hc', hl.enabled hoff] at he
    | begin _ hk | wait _ hk _ | pointless _ hk _ => rw [hkind₁] at hk; cases hk
    | found hst _ | lost hst _ | running hst _ | ask hst _ | idle hst _ | asked hst _
    | finished _ hst _ | timeout _ hst _ _ | ended hst _ | disable hst =>
      rw [hst] at hs₁
      cases hs₁

/-- **Who activates a control that is disabled comes too late.** -/
theorem tooLate_of_disabled (hc : w.control? m = some c) (hoff : c.enabled = false)
    (hw : run env w (.call .activate m :: bs) = some w') : TooLate env w' w.calls.length := by
  obtain ⟨u, ha, hbs⟩ := run_cons.1 hw
  obtain rfl := call_of_begin ha
  have hk : (w.calls ++ [{ member := m, kind := .activate }])[w.calls.length]? = some _ :=
    List.getElem?_concat_length
  obtain ⟨k, hk', hkind, hm, hs⟩ := stage_of_disabled hk rfl hc hoff rfl hbs
  refine ⟨k, hk', ?_⟩
  obtain ⟨c', hc', hl⟩ := control_later hw hc
  cases hst : k.stage with
  | entered =>
    exact .inr (.inr ⟨rfl, step_of_disabled hk' hkind hst (hm ▸ hc') (hl.enabled hoff)⟩)
  | returned b =>
    cases b with
    | false => exact .inl rfl
    | true => rw [hst] at hs; cases hs
  | abandoned => exact .inr (.inl rfl)
  | _ => rw [hst] at hs; cases hs

/-! ## The life of a control -/

/-- What is promised of the stop control `c` of the handle at the place `m`. -/
structure OneWay (env : Environment) (w : World) (m : Nat) (c : StopControl) : Prop where
  later : ∀ bs w', run env w bs = some w' → ∃ c', w'.control? m = some c' ∧ c.Later c'
  order : c.attached = false → c.enabled = false
  detached : ∀ a w' c', step env w a = some w' → w'.control? m = some c' → c.attached = true →
    c'.attached = false → a = .runner m .proceed ∧
      ∃ h r o, w.handle? m = some h ∧ h.runner = some r ∧ r.stage = .detaching o
  finished : ∀ h, w.handle? m = some h → h.status.state = .finished → c.attached = false
  tooLate : c.enabled = false → ∀ bs w', run env w (.call .activate m :: bs) = some w' →
    TooLate env w' w.calls.length

theorem oneWay_of_run (hw : run env {} as = some w) (hc : w.control? m = some c) :
    OneWay env w m c := by
  refine ⟨fun bs w' hbs => control_later hbs hc, enabled_of_attached hw hc,
    fun a w' c' ha hc' hon hoff => ?_, fun h hh hf => ?_,
    fun hoff bs w' => tooLate_of_disabled hc hoff⟩
  · obtain ⟨x, h, hx, hb, hh⟩ := exists_of_control? hc
    obtain ⟨hstep, r, o, hr, hs⟩ := (hc' ▸ control_step ha hx hb).detached hh hon hoff
    exact ⟨hstep, h, r, o, handle?_iff.2 ⟨x, hx, hb⟩, hr, hs⟩
  · refine detached_of_finished hw hh hf ?_
    simpa [control?, hh] using hc

/-- **The life of a stop control is one-way.**  Of the handle at a place, after every run:

    * every request for the control that was granted was given the one control that was ever
      made, with the first label, and a later one changed nothing;
    * a control that is there stays, keeps its label, and is neither enabled nor attached
      again.  If it is not attached, it is not enabled; it is detached only in the teardown of
      the run, and it is when the run is finished.  Who activates it once it is disabled gets
      `false`, and changes nothing;
    * after an activation that has returned `true` it is disabled for ever. -/
theorem control_life_is_one_way (hw : run env {} as = some w) (m : Nat) :
    (∀ label past v c, Obtained env as m label past v c →
      ∃ first past₀ v₀, Made env as m first past₀ v₀ ∧ StopControl.Later { label := first } c ∧
        (∀ l past₁ v₁, Made env as m l past₁ v₁ → l = first ∧ past₁ = past₀) ∧
        (past₀ = past ∨ past₀ ++ [.createControl m first] <+: past ∧ v.control? m = some c ∧
          step env v (.createControl m label) = some v)) ∧
    (∀ c, w.control? m = some c → OneWay env w m c) ∧
    ∀ (i : Nat) (k : Call), w.calls[i]? = some k → k.kind = .activate → k.member = m →
      k.stage = .returned true → ∀ bs w', run env w bs = some w' →
        ∃ c, w'.control? m = some c ∧ c.enabled = false := by
  refine ⟨fun label past v c hc => ?_, fun c hc => oneWay_of_run hw hc, ?_⟩
  · obtain ⟨first, past₀, v₀, hmade, hl, hpast⟩ := hc.made
    exact ⟨first, past₀, v₀, hmade, hl, fun l past₁ v₁ h => h.unique hmade, hpast⟩
  · rintro i k hk hkind rfl hs bs w' hbs
    obtain ⟨c, hc, hoff⟩ := control_of_hasFound hw hk hkind (by rw [hs]; rfl)
    obtain ⟨c', hc', hl⟩ := control_later hbs hc
    exact ⟨c', hc', hl.enabled (hoff hs)⟩

/-- The control is asked for twice and activated twice, the second time while the first waits
    for the end of the run, which comes. -/
def overlappingRun : List Action := List.flatten [
  [.create ["sleep"] .storing, .createControl 0 "stop", .createControl 0 "again", .start 0 true],
  List.replicate 5 (.runner 0 .proceed), [.pump 0 .start],
  .call .activate 0 :: List.replicate 4 (.proceed 0),
  .call .activate 0 :: List.replicate 5 (.proceed 1),
  [.runner 0 .cancel, .runner 0 .proceed, .pump 0 (.read .out), .pump 0 (.read .err)],
  List.replicate 10 (.runner 0 .proceed), List.replicate 2 (.proceed 0)]

/-- Both requests are given the control with the first label, both activations return `true`,
    and the next one comes too late. -/
theorem control_life_is_one_way_overlappingRun :
    ∃ w c k k' v, run .silent {} overlappingRun = some w ∧ w.control? 0 = some c ∧
      w.calls[0]? = some k ∧ w.calls[1]? = some k' ∧ k.stage = .returned true ∧
      k'.stage = .returned true ∧ c.attached = false ∧ c.enabled = false ∧
      Obtained .silent overlappingRun 0 "again" (overlappingRun.take 2) v { label := "stop" } ∧
      (∃ first past v, Made .silent overlappingRun 0 first past v ∧ first = "stop") ∧
      ∀ bs w', run .silent w (.call .activate 0 :: bs) = some w' → TooLate .silent w' 2 := by
  obtain ⟨hobtained, hone, -⟩ := @control_life_is_one_way .silent _ overlappingRun rfl 0
  have hagain : Obtained .silent overlappingRun 0 "again" (overlappingRun.take 2) _
      { label := "stop" } := ⟨⟨⟨_, rfl⟩, rfl⟩, _, _, rfl, rfl, rfl⟩
  obtain ⟨first, past, v, hmade, hl, -⟩ := hobtained _ _ _ _ hagain
  exact ⟨_, _, _, _, _, rfl, rfl, rfl, rfl, rfl, rfl, rfl, rfl, hagain,
    ⟨first, past, v, hmade, hl.label.symm⟩, (hone _ rfl).tooLate rfl⟩

end World

end Supervisor
