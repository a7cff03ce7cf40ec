/-
  A run status moves forward only, and whoever watches it misses no change.

  * `RunStatus.Ahead s t`: `t` is `s`, or was reached from it by moves, each of which has
    raised the state and the version; so the versions differ just if the states do
    (`Ahead.version_eq_iff`);
  * `Watch.Looked uses i past`: after `past` the receiver `i` was made or read;
    `Watch.LookedLast`: and not again since;
  * `count_moved`, `exists_lookedLast`: the version counts the moves, and a receiver has the
    version of its last look;
  * `watchers_miss_nothing` puts these together.
-/
import Mathlib.Data.List.Induction
import Mathlib.Order.Bounds.Defs
import Mathlib.Tactic.Common
import Supervisor.Watch

namespace Supervisor

/-! ## Moving forward -/

theorem RunState.rank_le_two (s : RunState) : s.rank ≤ 2 := by
  cases s <;> decide

namespace RunStatus

/-- The status `t` is no earlier than `s`: nothing has moved, or state and version both have. -/
def Ahead (s t : RunStatus) : Prop :=
  (t.state = s.state ∧ t.version = s.version) ∨ (s.state < t.state ∧ s.version < t.version)

namespace Ahead

variable {s t u : RunStatus}

theorem refl (s : RunStatus) : s.Ahead s := .inl ⟨rfl, rfl⟩

theorem trans (h : s.Ahead t) (h' : t.Ahead u) : s.Ahead u := by
  rcases h with ⟨hst, hv⟩ | ⟨hst, hv⟩ <;> rcases h' with ⟨hst', hv'⟩ | ⟨hst', hv'⟩
  · exact .inl ⟨hst'.trans hst, hv'.trans hv⟩
  · exact .inr ⟨hst ▸ hst', hv ▸ hv'⟩
  · exact .inr ⟨hst' ▸ hst, hv' ▸ hv⟩
  · exact .inr ⟨Nat.lt_trans hst hst', Nat.lt_trans hv hv'⟩

/-- **The versions are the same just if the states are.** -/
theorem version_eq_iff (h : s.Ahead t) : s.version = t.version ↔ t.state = s.state := by
  rcases h with ⟨hst, hv⟩ | ⟨hst, hv⟩
  · exact ⟨fun _ => hst, fun _ => hv.symm⟩
  · refine ⟨fun heq => absurd heq (Nat.ne_of_lt hv), fun heq => ?_⟩
    rw [heq] at hst
    exact absurd hst (Nat.lt_irrefl _)

theorem state_le (h : s.Ahead t) : s.state ≤ t.state := by
  rcases h with ⟨hst, -⟩ | ⟨hst, -⟩
  · rw [hst]
    exact Nat.le_refl _
  · exact Nat.le_of_lt hst

end Ahead

theorem advance_of_canAdvance {s : RunStatus} {next : RunState} (h : s.canAdvance next = true) :
    s.advance next = { s with state := next, version := s.version + 1 } :=
  if_pos h

theorem advance_of_not_canAdvance {s : RunStatus} {next : RunState}
    (h : s.canAdvance next = false) : s.advance next = s :=
  if_neg (by simp [h])

theorem ahead_advance (s : RunStatus) (next : RunState) : s.Ahead (s.advance next) := by
  cases h : s.canAdvance next with
  | true =>
    rw [advance_of_canAdvance h]
    exact .inr ⟨of_decide_eq_true h, Nat.lt_succ_self _⟩
  | false =>
    rw [advance_of_not_canAdvance h]
    exact .refl s

/-- Whatever a status is to be moved to is reached, or was passed. -/
theorem le_state_advance (s : RunStatus) (next : RunState) : next ≤ (s.advance next).state := by
  cases h : s.canAdvance next with
  | true =>
    rw [advance_of_canAdvance h]
    exact Nat.le_refl _
  | false =>
    rw [advance_of_not_canAdvance h]
    exact Nat.le_of_not_lt (of_decide_eq_false h)

theorem state_advance (s : RunStatus) (next : RunState) :
    (s.advance next).state = next ∨ (s.advance next).state = s.state := by
  unfold advance
  split
  · exact .inl rfl
  · exact .inr rfl

end RunStatus

/-! ## Uses -/

namespace Watch

variable {w : Watch} {uses past past' : List Use} {u : Use} {i : Nat} {r : Receiver}

theorem run_concat (w : Watch) (uses : List Use) (u : Use) :
    w.run (uses ++ [u]) = (w.run uses).step u := by
  simp [run]

theorem ahead_step (w : Watch) (u : Use) : w.status.Ahead (w.step u).status := by
  cases u with
  | advance next => exact w.status.ahead_advance next
  | subscribe | read => exact .refl _

theorem ahead_run (w : Watch) (uses : List Use) : w.status.Ahead (w.run uses).status := by
  induction uses using List.reverseRecOn with
  | nil => exact .refl _
  | append_singleton uses u ih =>
    rw [run_concat]
    exact ih.trans (ahead_step _ u)

/-- A status is ahead of what it was earlier. -/
theorem ahead_of_earlier (w : Watch) (h : past <+: uses) :
    (w.run past).status.Ahead (w.run uses).status := by
  obtain ⟨rest, rfl⟩ := h
  rw [show w.run (past ++ rest) = (w.run past).run rest from List.foldl_append]
  exact ahead_run _ rest

/-- **The state is the greatest that it was to be moved to.** -/
theorem isGreatest_state (uses : List Use) :
    IsGreatest {s | s = .notStarted ∨ .advance s ∈ uses} (run {} uses).status.state := by
  induction uses using List.reverseRecOn with
  | nil =>
    refine ⟨.inl rfl, ?_⟩
    rintro s (rfl | hs)
    · exact Nat.le_refl _
    · cases hs
  | append_singleton uses u ih =>
    obtain ⟨hmem, hmax⟩ := ih
    have hle := (ahead_step (run {} uses) u).state_le
    rw [run_concat]
    refine ⟨?_, ?_⟩
    · have hkeep := hmem.imp_right (List.mem_append_left [u])
      cases u with
      | advance next =>
        rcases (run {} uses).status.state_advance next with hs | hs
        · refine .inr (List.mem_append_right _ (List.mem_singleton.2 ?_))
          rw [step, hs]
        · rwa [step, hs]
      | subscribe | read => exact hkeep
    · rintro s (rfl | hs)
      · exact Nat.zero_le _
      · rcases List.mem_append.1 hs with hs | hs
        · exact Nat.le_trans (hmax (.inr hs)) hle
        · rw [← List.mem_singleton.1 hs]
          exact RunStatus.le_state_advance _ s

/-! ## Moves -/

/-- A move counts in the version. -/
theorem version_step (w : Watch) (u : Use) : (w.step u).status.version =
    w.status.version + if w.reply? u = some (.moved true) then 1 else 0 := by
  cases u with
  | advance next =>
    cases h : w.status.canAdvance next with
    | true => simp [step, reply?, RunStatus.advance_of_canAdvance h, h]
    | false => simp [step, reply?, RunStatus.advance_of_not_canAdvance h, h]
  | subscribe => rfl
  | read i => simp [step, reply?]

/-- **The version counts the moves.** -/
theorem count_moved (w : Watch) (uses : List Use) :
    w.status.version + (w.replies uses).count (some (.moved true)) =
      (w.run uses).status.version := by
  induction uses generalizing w with
  | nil => rfl
  | cons u uses ih =>
    rw [replies, List.count_cons, show w.run (u :: uses) = (w.step u).run uses from rfl, ← ih,
      version_step]
    simp only [beq_iff_eq]
    omega

/-- Each move is to a later state, so there are no more moves than states to move to. -/
theorem version_le_rank (uses : List Use) :
    (run {} uses).status.version ≤ (run {} uses).status.state.rank := by
  induction uses using List.reverseRecOn with
  | nil => exact Nat.le_refl _
  | append_singleton uses u ih =>
    rw [run_concat]
    rcases ahead_step (run {} uses) u with ⟨hs, hv⟩ | ⟨hs, -⟩
    · rw [hs, hv]
      exact ih
    · rw [version_step]
      have hs : (run {} uses).status.state.rank < ((run {} uses).step u).status.state.rank := hs
      split <;> omega

/-- What moves the state lies ahead of all states so far. -/
theorem moved_iff (uses : List Use) (next : RunState) :
    (run {} uses).reply? (.advance next) = some (.moved true) ↔
      ∀ past, past <+: uses → (run {} past).status.state < next := by
  have hreply : (run {} uses).reply? (.advance next) = some (.moved true) ↔
      (run {} uses).status.state < next := by
    simp [reply?, RunStatus.canAdvance]
  rw [hreply]
  exact ⟨fun h past hp => Nat.lt_of_le_of_lt (ahead_of_earlier {} hp).state_le h,
    fun h => h uses List.prefix_rfl⟩

/-! ## Looks -/

/-- Whether a use makes the receiver `i`, or reads it. -/
def looks (w : Watch) (i : Nat) : Use → Bool
  | .advance _ => false
  | .subscribe => w.receivers.length = i
  | .read j => j = i ∧ i < w.receivers.length

/-- After the uses `past` the receiver `i` was made, or read. -/
def Looked (uses : List Use) (i : Nat) (past : List Use) : Prop :=
  ∃ u, past ++ [u] <+: uses ∧ (run {} past).looks i u = true

/-- And not again since. -/
structure LookedLast (uses : List Use) (i : Nat) (past : List Use) : Prop where
  looked : Looked uses i past
  last : ∀ past', Looked uses i past' → past' <+: past

theorem LookedLast.unique (h : LookedLast uses i past) (h' : LookedLast uses i past') :
    past = past' :=
  (h'.last past h.looked).eq_of_length
    (Nat.le_antisymm (h'.last past h.looked).length_le (h.last past' h'.looked).length_le)

theorem looked_concat : Looked (uses ++ [u]) i past ↔
    Looked uses i past ∨ (past = uses ∧ (run {} uses).looks i u = true) := by
  constructor
  · rintro ⟨v, hp, hl⟩
    rcases List.prefix_concat_iff.1 hp with heq | hp
    · obtain ⟨rfl, hv⟩ := List.append_inj' heq rfl
      obtain rfl := (List.cons.inj hv).1
      exact .inr ⟨rfl, hl⟩
    · exact .inl ⟨v, hp, hl⟩
  · rintro (⟨v, hp, hl⟩ | ⟨rfl, hl⟩)
    · exact ⟨v, hp.trans (List.prefix_append _ _), hl⟩
    · exact ⟨u, List.prefix_rfl, hl⟩

theorem Looked.earlier (h : Looked uses i past) : past <+: uses := by
  obtain ⟨u, hp, -⟩ := h
  exact (List.prefix_append _ _).trans hp

/-- A use that looks is the last that does. -/
theorem lookedLast_of_looks (h : (run {} uses).looks i u = true) :
    LookedLast (uses ++ [u]) i uses := by
  refine ⟨looked_concat.2 (.inr ⟨rfl, h⟩), fun past' hp => ?_⟩
  rcases looked_concat.1 hp with hp | ⟨rfl, -⟩
  · exact hp.earlier
  · exact List.prefix_rfl

/-- A use that does not look leaves the last look where it was. -/
theorem LookedLast.concat (hl : LookedLast uses i past) (h : (run {} uses).looks i u = false) :
    LookedLast (uses ++ [u]) i past := by
  refine ⟨looked_concat.2 (.inl hl.looked), fun past' hp => ?_⟩
  rcases looked_concat.1 hp with hp | ⟨-, hu⟩
  · exact hl.last past' hp
  · rw [h] at hu
    cases hu

/-- A receiver that a use looks at has the version; any other was there before. -/
theorem receiver_step (h : (w.step u).receivers[i]? = some r) :
    (w.looks i u = true ∧ r.seen = w.status.version) ∨
      (w.looks i u = false ∧ w.receivers[i]? = some r) := by
  cases u with
  | advance next => exact .inr ⟨rfl, h⟩
  | subscribe =>
    by_cases hi : w.receivers.length = i
    · subst hi
      rw [step, List.getElem?_concat_length, Option.some.injEq] at h
      exact .inl ⟨decide_eq_true rfl, h ▸ rfl⟩
    · have hlt : i < w.receivers.length := by
        obtain ⟨hlt, -⟩ := List.getElem?_eq_some_iff.1 h
        rw [step, List.length_append, List.length_singleton] at hlt
        omega
      rw [step, List.getElem?_append_left hlt] at h
      exact .inr ⟨decide_eq_false hi, h⟩
  | read j =>
    rw [step, List.getElem?_set] at h
    by_cases hj : j = i
    · subst hj
      rw [if_pos rfl] at h
      split at h
      · next hlt => exact .inl ⟨decide_eq_true ⟨rfl, hlt⟩, (Option.some.inj h) ▸ rfl⟩
      · cases h
    · rw [if_neg hj] at h
      exact .inr ⟨decide_eq_false fun hl => hj hl.1, h⟩

/-- **A receiver has the version of its last look.** -/
theorem exists_lookedLast (h : (run {} uses).receivers[i]? = some r) :
    ∃ past, LookedLast uses i past ∧ r.seen = (run {} past).status.version := by
  induction uses using List.reverseRecOn generalizing r with
  | nil => cases h
  | append_singleton uses u ih =>
    rw [run_concat] at h
    rcases receiver_step h with ⟨hl, hseen⟩ | ⟨hl, hr⟩
    · exact ⟨uses, lookedLast_of_looks hl, hseen⟩
    · obtain ⟨past, hlast, hseen⟩ := ih hr
      exact ⟨past, hlast.concat hl, hseen⟩

/-- **A receiver has a change to see just if the state has changed since its last look.** -/
theorem hasChanged_iff (h : (run {} uses).receivers[i]? = some r) (hl : LookedLast uses i past) :
    (run {} uses).status.hasChanged r = true ↔
      (run {} uses).status.state ≠ (run {} past).status.state := by
  obtain ⟨past', hl', hseen⟩ := exists_lookedLast h
  obtain rfl := hl.unique hl'
  rw [RunStatus.hasChanged, hseen, decide_eq_true_iff, ne_eq, ne_eq,
    (ahead_of_earlier {} hl.looked.earlier).version_eq_iff]

/-- **A status is a cell that only moves forward, and its receivers miss no change of it.**
    After any uses of a fresh one the state is the greatest of the first one and those that it
    was to be moved to.  It moves just to what lies ahead of every state so far, so at most
    twice; a move that is refused changes nothing, for no receiver either.  And a receiver has
    a change to see just if the state is another than when it was made, or read last; whoever
    reads it is told so, and gets the state as it is now. -/
theorem watchers_miss_nothing (uses : List Use) :
    IsGreatest {s | s = .notStarted ∨ .advance s ∈ uses} (run {} uses).status.state ∧
      (∀ next, (run {} uses).reply? (.advance next) = some (.moved true) ↔
        ∀ past, past <+: uses → (run {} past).status.state < next) ∧
      (replies {} uses).count (some (.moved true)) ≤ 2 ∧
      (∀ next, (run {} uses).reply? (.advance next) = some (.moved false) →
        (run {} uses).step (.advance next) = run {} uses) ∧
      ∀ i r, (run {} uses).receivers[i]? = some r →
        (∃ past, LookedLast uses i past) ∧
        ∀ past, LookedLast uses i past →
          ((run {} uses).status.hasChanged r = true ↔
            (run {} uses).status.state ≠ (run {} past).status.state) ∧
          (run {} uses).reply? (.read i) = some (.seen
            (decide ((run {} uses).status.state ≠ (run {} past).status.state))
            (run {} uses).status.state) := by
  refine ⟨isGreatest_state uses, moved_iff uses, ?_, fun next h => ?_, fun i r hr => ⟨?_, ?_⟩⟩
  · have hcount := count_moved {} uses
    have hle := version_le_rank uses
    have htwo := (run {} uses).status.state.rank_le_two
    have hzero : ({} : Watch).status.version = 0 := rfl
    omega
  · have hno : (run {} uses).status.canAdvance next = false := by simpa [reply?] using h
    rw [step, RunStatus.advance_of_not_canAdvance hno]
  · obtain ⟨past, hl, -⟩ := exists_lookedLast hr
    exact ⟨past, hl⟩
  · intro past hl
    have hiff := hasChanged_iff hr hl
    refine ⟨hiff, ?_⟩
    rw [reply?, hr, Option.map_some, Bool.eq_iff_iff.2 (hiff.trans decide_eq_true_iff.symm)]

/-- Two receivers: one was made before the start, and is never read; one was made while the run
    went on, and is read at the end. -/
def twoReceivers : List Use :=
  [.subscribe, .advance .running, .subscribe, .advance .running, .advance .finished, .read 1]

/-- The first one has missed the state between, and yet has the end to see; the second one has
    seen it. -/
theorem watchers_miss_nothing_twoReceivers :
    LookedLast twoReceivers 0 [] ∧ LookedLast twoReceivers 1 (twoReceivers.take 5) ∧
      (run {} twoReceivers).reply? (.read 0) = some (.seen true .finished) ∧
      (run {} twoReceivers).reply? (.read 1) = some (.seen false .finished) := by
  have hmade : LookedLast ([] ++ [.subscribe]) 0 [] := lookedLast_of_looks rfl
  have hfirst : LookedLast twoReceivers 0 [] :=
    ((((hmade.concat (u := .advance .running) rfl).concat (u := .subscribe) rfl).concat
      (u := .advance .running) rfl).concat (u := .advance .finished) rfl).concat (u := .read 1) rfl
  have hsecond : LookedLast (twoReceivers.take 5 ++ [.read 1]) 1 (twoReceivers.take 5) :=
    lookedLast_of_looks rfl
  obtain ⟨-, -, -, -, hseen⟩ := watchers_miss_nothing twoReceivers
  exact ⟨hfirst, hsecond, ((hseen 0 _ rfl).2 _ hfirst).2, ((hseen 1 _ rfl).2 _ hsecond).2⟩

end Watch

end Supervisor
