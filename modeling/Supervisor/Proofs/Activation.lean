/-
  What an activation of the stop control that returns has done.

  * `activation_asks_unless_lost`: an activation of a run that was running, and that says it
    did something, has set the cancel flag or comes to a finished run, unless it has sought
    a handle that nobody held any more;
  * `not_asked_of_activated`: in that case it says so all the same, of a run that goes on.
-/
import Supervisor.Proofs.StopCalls

namespace Supervisor

namespace World

variable {env : Environment} {w u : World} {as past : List Action} {m : Nat} {y : Member}
  {h : Handle} {k : Call}

/-- **An activation that says it did something has asked for the end**, or the run is over,
    or it could not get hold of the handle. -/
theorem activation_asks_unless_lost (hw : run env {} as = some w)
    (hc : Took env as past (.call .activate m) u) (hy : u.members[m]? = some y)
    (hb : y.body = .handle h) (hs : h.status.state = .running)
    (hk : w.calls[u.calls.length]? = some k) (hr : k.stage = .returned true) :
    ∃ x, w.members[m]? = some x ∧ (x.cancel = true ∨ x.state = .finished ∨
      ∃ past' v, Stepped env as m u.calls.length .seeking past' v ∧ v.isHeld m = false) := by
  obtain ⟨k', hk', hkind, rfl⟩ := hc.exists_call hw
  obtain rfl := Option.some.inj (hk.symm.trans hk')
  cases (callStory_of_run hw hk).answered (by simp [hkind]) (.inr hr) with
  | turned ht =>
    obtain ⟨x, hx, hset⟩ := ht.cancel_end hw
    exact ⟨x, hx, .inl hset⟩
  | idle hstep hz hn =>
    obtain ⟨x, hx, hfin⟩ := finished_of_idle hw hc hy hb hs hstep hz hn
    exact ⟨x, hx, .inr (.inl hfin)⟩
  | forestalled hstep hz hset =>
    obtain ⟨rest, hrest⟩ := hstep.took.rest hw
    obtain ⟨x, hx, hl⟩ := later_of_run hstep.took.2 hrest hz
    exact ⟨x, hx, .inl (hl.cancel hset)⟩
  | lost hstep hn =>
    obtain ⟨rest, hrest⟩ := hc.rest hw
    obtain ⟨x, hx, -⟩ := later_of_run hc.2 hrest hy
    exact ⟨x, hx, .inr (.inr ⟨_, _, hstep, hn⟩)⟩

/-- A run with a stop control, which is activated after `before`. -/
def activatedRun (before : List Action) : List Action :=
  [.create ["sleep"] .storing, .createControl 0 "stop", .start 0 true] ++ before ++
    .call .activate 0 :: List.replicate 3 (.proceed 0)

/-- The handle is still held, and the activation waits up to its bound. -/
def heldRun : List Action :=
  activatedRun [] ++ [.proceed 0, .pass Environment.silent.settings.stopTimeout, .proceed 0,
    .proceed 0]

/-- It has asked for the end, and comes back before the run is over. -/
theorem activation_asks_unless_lost_heldRun :
    ∃ w x, run .silent {} heldRun = some w ∧ w.members[0]? = some x ∧ x.cancel = true ∧
      x.state = .running := by
  have htook : Took .silent heldRun (heldRun.take 3) (.call .activate 0) _ := ⟨⟨_, rfl⟩, rfl⟩
  -- while there is a call somebody holds the handle
  have hheld : ∀ n < heldRun.length, (run .silent {} (heldRun.take n)).all
      (fun v => v.calls.isEmpty || v.isHeld 0) = true := by decide
  obtain ⟨x, hx, hset | hfin | ⟨past, v, ⟨hpast, k, hk, -⟩, hn⟩⟩ :=
    activation_asks_unless_lost rfl htook rfl rfl rfl rfl rfl
  · refine ⟨_, x, rfl, hx, hset, ?_⟩
    cases hx
    rfl
  · cases hx
    cases hfin
  · have hlen := hpast.1.length_le
    rw [List.length_append, List.length_singleton] at hlen
    have hall := hheld past.length hlen
    rw [← List.prefix_iff_eq_take.1 hpast.earlier, hpast.2] at hall
    have hcalls : v.calls ≠ [] := fun hnil => by simp [hnil] at hk
    simp [hn, hcalls] at hall

/-- So it is not true that whoever activates the control of a running run has asked for its
    end: if nobody holds the handle any more, the control is disabled and nothing else. -/
theorem not_asked_of_activated :
    ¬ ∀ (env : Environment) (as past : List Action) (w u : World) (m : Nat) (y : Member)
      (h : Handle) (k : Call), run env {} as = some w → Took env as past (.call .activate m) u →
        u.members[m]? = some y → y.body = .handle h → h.status.state = .running →
        w.calls[u.calls.length]? = some k → k.stage = .returned true →
        ∃ x, w.members[m]? = some x ∧ (x.cancel = true ∨ x.state = .finished) := by
  intro hall
  obtain ⟨x, hx, hset | hfin⟩ := hall .silent (activatedRun [.drop 0])
    ((activatedRun [.drop 0]).take 4) _ _ 0 _ _ _ rfl ⟨⟨_, rfl⟩, rfl⟩ rfl rfl rfl rfl rfl
  · cases hx
    cases hset
  · cases hx
    cases hfin

end World

end Supervisor
