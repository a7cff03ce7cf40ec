/-
  Runs from the empty world, and their moments.

  * `run_concat` and `run_append_eq_some` take a run apart;
  * `run_induction`: what holds of the empty world and is kept by every action
    holds after every run;
  * `Took env as past a w`: in the run `as`, after the actions `past`, the
    action `a` was taken in the world `w`.  All statements about what has
    happened before are about such moments.
-/
import Mathlib.Data.List.Induction
import Mathlib.Tactic.Common
import Supervisor.World

namespace Supervisor

section
variable {σ α : Type} {step : σ → α → Option σ} {s s' : σ} {as bs : List α} {a : α}

theorem foldlM_append_eq_some : (as ++ bs).foldlM step s = some s' ↔
    ∃ v, as.foldlM step s = some v ∧ bs.foldlM step v = some s' := by
  rw [List.foldlM_append, Option.bind_eq_bind, Option.bind_eq_some_iff]

theorem foldlM_concat_eq_some : (as ++ [a]).foldlM step s = some s' ↔
    ∃ v, as.foldlM step s = some v ∧ step v a = some s' := by
  rw [foldlM_append_eq_some]
  simp

/-- What holds at the start and is kept by every step holds at the end. -/
theorem foldlM_induction {P : List α → σ → Prop} (nil : P [] s)
    (concat : ∀ as a v v', as.foldlM step s = some v → P as v → step v a = some v' →
      P (as ++ [a]) v')
    (h : as.foldlM step s = some s') : P as s' := by
  induction as using List.reverseRecOn generalizing s' with
  | nil => cases h; exact nil
  | append_singleton as a ih =>
    obtain ⟨v, hv, ha⟩ := foldlM_concat_eq_some.1 h
    exact concat as a v s' hv (ih hv) ha

end

namespace World

variable {env : Environment}

/-! ## Runs -/

theorem run_cons {w w' : World} {as : List Action} {a : Action} :
    run env w (a :: as) = some w' ↔ ∃ v, step env w a = some v ∧ run env v as = some w' := by
  unfold run
  rw [List.foldlM_cons, Option.bind_eq_bind, Option.bind_eq_some_iff]

theorem run_append_eq_some {w w' : World} {as bs : List Action} :
    run env w (as ++ bs) = some w' ↔ ∃ v, run env w as = some v ∧ run env v bs = some w' :=
  foldlM_append_eq_some

theorem run_concat {w w' : World} {as : List Action} {a : Action} :
    run env w (as ++ [a]) = some w' ↔ ∃ v, run env w as = some v ∧ step env v a = some w' :=
  foldlM_concat_eq_some

/-- What holds at the start and is kept by every action holds after every
    run.  The property may speak of the actions taken so far. -/
theorem run_induction {w₀ : World} {P : List Action → World → Prop} (nil : P [] w₀)
    (step : ∀ as a w w', run env w₀ as = some w → P as w → step env w a = some w' →
      P (as ++ [a]) w')
    {as : List Action} {w : World} (h : run env w₀ as = some w) : P as w :=
  foldlM_induction nil step h

/-! ## Moments -/

/-- In the run `as`, after the actions `past`, the action `a` was taken in the
    world `w`. -/
def Took (env : Environment) (as past : List Action) (a : Action) (w : World) : Prop :=
  past ++ [a] <+: as ∧ run env {} past = some w

theorem Took.mono {as bs past : List Action} {a : Action} {w : World} (h : Took env as past a w)
    (hab : as <+: bs) : Took env bs past a w :=
  ⟨h.1.trans hab, h.2⟩

theorem Took.concat {as past : List Action} {a b : Action} {w : World}
    (h : Took env as past a w) : Took env (as ++ [b]) past a w :=
  h.mono (List.prefix_append _ _)

theorem Took.earlier {as past : List Action} {a : Action} {w : World}
    (h : Took env as past a w) : past <+: as :=
  (List.prefix_append _ _).trans h.1

/-- The last action of a run is one of its moments. -/
theorem Took.last {as : List Action} {w : World} (a : Action) (h : run env {} as = some w) :
    Took env (as ++ [a]) as a w :=
  ⟨List.prefix_rfl, h⟩

/-- A moment of a longer run was one before, or is its last. -/
theorem Took.concat_cases {as past : List Action} {a b : Action} {w : World}
    (h : Took env (as ++ [b]) past a w) : Took env as past a w ∨ (past = as ∧ a = b) := by
  rcases List.prefix_concat_iff.1 h.1 with heq | hpre
  · obtain ⟨rfl, hab⟩ := List.append_inj' heq rfl
    exact Or.inr ⟨rfl, List.cons.inj hab |>.1⟩
  · exact Or.inl ⟨hpre, h.2⟩

/-- From every moment the rest of the run leads to its end. -/
theorem Took.rest {as past : List Action} {a : Action} {v w : World} (h : Took env as past a v)
    (hw : run env {} as = some w) : ∃ rest, run env v (a :: rest) = some w := by
  obtain ⟨⟨rest, rfl⟩, hp⟩ := h
  rw [List.append_assoc, List.singleton_append] at hw
  obtain ⟨v', hv', hr⟩ := run_append_eq_some.1 hw
  rw [hp] at hv'
  cases hv'
  exact ⟨rest, hr⟩

/-- Two actions that were taken after the same ones are the same. -/
theorem Took.eq_of_past {as past : List Action} {a b : Action} {v v' : World}
    (h : Took env as past a v) (h' : Took env as past b v') : a = b ∧ v = v' := by
  have hlen : (past ++ [a]).length = (past ++ [b]).length := by simp
  have heq := (List.prefix_of_prefix_length_le h.1 h'.1 (Nat.le_of_eq hlen)).eq_of_length hlen
  exact ⟨(List.cons.inj (List.append_cancel_left heq)).1, Option.some.inj (h.2.symm.trans h'.2)⟩

/-- Of two moments one comes first, unless they are the same. -/
theorem Took.cases_past {as past past' : List Action} {a b : Action} {v v' : World}
    (h : Took env as past a v) (h' : Took env as past' b v') :
    past = past' ∨ past ++ [a] <+: past' ∨ past' ++ [b] <+: past := by
  rcases List.prefix_or_prefix_of_prefix h.1 h'.1 with hp | hp
  · rcases List.prefix_concat_iff.1 hp with heq | hp
    · exact Or.inl (List.append_inj' heq rfl).1
    · exact Or.inr (Or.inl hp)
  · rcases List.prefix_concat_iff.1 hp with heq | hp
    · exact Or.inl (List.append_inj' heq rfl).1.symm
    · exact Or.inr (Or.inr hp)

/-- What lies between two moments. -/
theorem Took.between {as past past' : List Action} {a b : Action} {v v' : World}
    (h : Took env as past a v) (h' : Took env as past' b v') (hp : past ++ [a] <+: past') :
    ∃ u rest, step env v a = some u ∧ run env u rest = some v' := by
  obtain ⟨rest, rfl⟩ := hp
  obtain ⟨u, hu, hrest⟩ := run_append_eq_some.1 h'.2
  obtain ⟨v₀, hv₀, ha⟩ := run_concat.1 hu
  cases h.2.symm.trans hv₀
  exact ⟨u, rest, ha, hrest⟩

end World

/-- A host on which every child says nothing, and runs on until it is killed. -/
def Environment.silent : Environment where
  launch := fun _ _ => .ok { output := .both { arrivals := [] }, exit := none }
  exitUnread := fun _ _ _ => none

end Supervisor
