/-
  What a settings file sets.

  * `Value.IsReadable`: no number in a value is out of range;
  * `Settings.runner?` is the table `runner` of a document, `Limit.entry?` the value in it for
    a limit, and `Settings.given` what such a table sets;
  * a fold over entries in the order of their keys passes over those that set nothing
    (`foldlM_eq_filter`), and those that are left are determined by the four keys
    (`filter_sortEntries_eq`);
  * `ofSection_eq_given`, `ofDocument_eq`: what a table, and what a document sets;
  * `reads_the_four_keys` puts these together.
-/
import Mathlib
import Supervisor.Proofs.DistinctKeys
import Supervisor.Settings.Load

namespace Supervisor

/-! ## Folds that may fail -/

section
variable {σ α ε : Type} {step : σ → α → Except ε σ} {as : List α} {s : σ}

/-- A fold passes over what changes nothing. -/
theorem foldlM_eq_filter {p : α → Bool} (h : ∀ a ∈ as, p a = false → ∀ s, step s a = .ok s) :
    as.foldlM step s = (as.filter p).foldlM step s := by
  induction as generalizing s with
  | nil => rfl
  | cons a as ih =>
    have ih := fun s => ih (s := s) fun b hb => h b (List.mem_cons_of_mem _ hb)
    cases hp : p a with
    | true =>
      rw [List.filter_cons_of_pos hp, List.foldlM_cons, List.foldlM_cons]
      exact bind_congr ih
    | false =>
      rw [List.filter_cons_of_neg (by simp [hp]), List.foldlM_cons, h a List.mem_cons_self hp]
      exact ih s

/-- A fold fails where one step does, whatever it has come to. -/
theorem exists_foldlM_eq_error {a : α} (ha : a ∈ as) (h : ∀ s, ∃ e, step s a = .error e) :
    ∃ e, as.foldlM step s = .error e := by
  induction as generalizing s with
  | nil => cases ha
  | cons b as ih =>
    rw [List.foldlM_cons]
    rcases List.mem_cons.1 ha with rfl | ha
    · obtain ⟨e, he⟩ := h s
      exact ⟨e, by rw [he]; rfl⟩
    · cases hb : step s b with
      | error e => exact ⟨e, rfl⟩
      | ok s' => exact ih ha

theorem foldlM_eq_ok {g : σ → α → σ} (h : ∀ a ∈ as, ∀ s, step s a = .ok (g s a)) :
    as.foldlM step s = .ok (as.foldl g s) := by
  induction as generalizing s with
  | nil => rfl
  | cons a as ih =>
    rw [List.foldlM_cons, h a List.mem_cons_self, List.foldl_cons]
    exact ih fun b hb => h b (List.mem_cons_of_mem _ hb)

end

namespace Toml

/-! ## Numbers out of range -/

mutual

/-- No number in a value is out of range. -/
def Value.IsReadable : Value → Prop
  | .integer n => -Int.pow 2 127 ≤ n ∧ n < Int.pow 2 128
  | .unreadable => False
  | .float x => x.text?.isSome = true
  | .array items => readableItems items
  | .table entries => readableEntries entries
  | _ => True

/-- Nor is any in the items of an array. -/
def readableItems : List Value → Prop
  | [] => True
  | v :: rest => v.IsReadable ∧ readableItems rest

/-- Nor is any in the entries of a table. -/
def readableEntries : List (List Char × Value) → Prop
  | [] => True
  | (_, v) :: rest => v.IsReadable ∧ readableEntries rest

end

theorem ignore_integer (n : Int) :
    (Value.integer n).ignore = .ok () ↔ (Value.integer n).IsReadable := by
  have h63 : Int.pow 2 63 = 9223372036854775808 := rfl
  have h64 : Int.pow 2 64 = 18446744073709551616 := rfl
  have h127 : Int.pow 2 127 = 170141183460469231731687303715884105728 := rfl
  have h128 : Int.pow 2 128 = 340282366920938463463374607431768211456 := rfl
  simp only [Value.ignore, Value.found, Value.IsReadable]
  split
  · simp only [Except.map, true_iff]
    omega
  · split
    · simpa only [Except.map, true_iff]
    · simpa only [Except.map, reduceCtorEq, false_iff]

mutual

/-- **A value can be ignored just if no number in it is out of range.** -/
theorem Value.ignore_eq_ok : ∀ v : Value, v.ignore = .ok () ↔ v.IsReadable
  | .boolean _ | .text _ | .moment => by simp [Value.ignore, Value.found, Value.IsReadable, Except.map]
  | .integer n => ignore_integer n
  | .unreadable => by simp [Value.ignore, Value.found, Value.IsReadable, Except.map]
  | .float x => by
    cases hx : x.text? <;> simp [Value.ignore, Value.found, Value.IsReadable, Except.map, hx]
  | .array items => by
    simp only [Value.ignore, Value.IsReadable]
    exact ignoreItems_eq_ok items
  | .table entries => by
    simp only [Value.ignore, Value.IsReadable]
    exact ignoreEntries_eq_ok entries

theorem ignoreItems_eq_ok : ∀ vs : List Value, ignoreItems vs = .ok () ↔ readableItems vs
  | [] => by simp [ignoreItems, readableItems]
  | v :: rest => by
    rw [ignoreItems, readableItems, bind_eq_ok, ← v.ignore_eq_ok, ← ignoreItems_eq_ok rest]
    exact ⟨fun ⟨_, h, h'⟩ => ⟨h, h'⟩, fun ⟨h, h'⟩ => ⟨(), h, h'⟩⟩

theorem ignoreEntries_eq_ok :
    ∀ es : List (List Char × Value), ignoreEntries es = .ok () ↔ readableEntries es
  | [] => by simp [ignoreEntries, readableEntries]
  | (_, v) :: rest => by
    rw [ignoreEntries, readableEntries, bind_eq_ok, ← v.ignore_eq_ok, ← ignoreEntries_eq_ok rest]
    exact ⟨fun ⟨_, h, h'⟩ => ⟨h, h'⟩, fun ⟨h, h'⟩ => ⟨(), h, h'⟩⟩

end

theorem exists_ignore_eq_error {v : Value} (h : ¬ v.IsReadable) : ∃ f, v.ignore = .error f := by
  rw [← v.ignore_eq_ok] at h
  cases hv : v.ignore with
  | error f => exact ⟨f, rfl⟩
  | ok _ => exact absurd hv h

/-! ## Entries in order -/

section
variable {es es' : List (List Char × Value)} {k : List Char} {v : Value}

theorem sortEntries_perm (es : List (List Char × Value)) : (sortEntries es).Perm es :=
  List.mergeSort_perm _ _

theorem pairwise_sortEntries (es : List (List Char × Value)) :
    (sortEntries es).Pairwise fun a b => ¬ b.1 < a.1 := by
  have htrans : ∀ k₁ k₂ k₃ : List Char, ¬ k₂ < k₁ → ¬ k₃ < k₂ → ¬ k₃ < k₁ :=
    fun _ _ _ h h' => List.le_trans (α := Char) h h'
  have htotal : ∀ k₁ k₂ : List Char, ¬ k₂ < k₁ ∨ ¬ k₁ < k₂ :=
    fun k₁ k₂ => List.le_total (α := Char) k₁ k₂
  have h := @List.pairwise_mergeSort _ (fun a b : List Char × Value => decide (¬ b.1 < a.1))
    (fun a b c => by simpa only [decide_eq_true_eq] using htrans a.1 b.1 c.1)
    (fun a b => by
      simpa only [Bool.or_eq_true, decide_eq_true_eq] using htotal a.1 b.1) es
  exact h.imp fun hab => of_decide_eq_true hab

theorem lookup_of_mem (hd : (es.map (·.1)).Nodup) (h : (k, v) ∈ es) : es.lookup k = some v := by
  induction es with
  | nil => cases h
  | cons e es ih =>
    obtain ⟨hfirst, hd⟩ := List.nodup_cons.1 hd
    rcases List.mem_cons.1 h with rfl | h
    · simp
    · have hne : (k == e.1) = false :=
        beq_eq_false_iff_ne.2 fun hk => hfirst (List.mem_map.2 ⟨_, h, hk⟩)
      rw [List.lookup_cons, hne]
      exact ih hd h

theorem mem_iff_lookup (hd : (es.map (·.1)).Nodup) : (k, v) ∈ es ↔ es.lookup k = some v :=
  ⟨lookup_of_mem hd, mem_of_lookup⟩

/-- **What is left of two tables in the order of their keys is the same** if they agree on
    the keys that are left. -/
theorem filter_sortEntries_eq {p : List Char → Bool} (hd : (es.map (·.1)).Nodup)
    (hd' : (es'.map (·.1)).Nodup) (h : ∀ k, p k = true → es.lookup k = es'.lookup k) :
    (sortEntries es).filter (fun e => p e.1) = (sortEntries es').filter (fun e => p e.1) := by
  have hsort : ∀ es : List (List Char × Value), (es.map (·.1)).Nodup →
      ((sortEntries es).map (·.1)).Nodup := fun es hd =>
    ((sortEntries_perm es).map _).nodup_iff.2 hd
  have hkeys : ∀ a b : List Char × Value, a ∈ (sortEntries es).filter (fun e => p e.1) →
      b ∈ (sortEntries es').filter (fun e => p e.1) → ¬ b.1 < a.1 → ¬ a.1 < b.1 → a = b := by
    intro a b ha hb hab hba
    obtain ⟨ha, hpa⟩ := List.mem_filter.1 ha
    obtain ⟨hb, -⟩ := List.mem_filter.1 hb
    have hk : a.1 = b.1 := List.le_antisymm (α := Char) hab hba
    have hla := (mem_iff_lookup hd).1 ((sortEntries_perm es).mem_iff.1 ha)
    have hlb := (mem_iff_lookup hd').1 ((sortEntries_perm es').mem_iff.1 hb)
    rw [h a.1 hpa, hk, hlb] at hla
    exact Prod.ext hk (Option.some.inj hla).symm
  refine List.Perm.eq_of_pairwise hkeys ((pairwise_sortEntries es).filter _)
    ((pairwise_sortEntries es').filter _) ?_
  refine (List.perm_ext_iff_of_nodup ((List.Nodup.of_map _ (hsort es hd)).filter _)
    ((List.Nodup.of_map _ (hsort es' hd')).filter _)).2 fun a => ?_
  simp only [List.mem_filter, (sortEntries_perm _).mem_iff]
  refine and_congr_left fun hp => ?_
  rw [mem_iff_lookup hd, mem_iff_lookup hd', h a.1 hp]

end

/-! ## Values of limits -/

/-- An integer of 64 bits without a sign, and not below `low`. -/
def Value.IsWithin (low : Int) (v : Value) : Prop :=
  ∃ n, v = .integer n ∧ low ≤ n ∧ n < Int.pow 2 64

/-- The number that a value sets a limit to. -/
def Value.setting? : Value → Option Nat
  | .integer n => if 0 ≤ n ∧ n < Int.pow 2 64 then some n.toNat else none
  | _ => none

theorem Value.setting?_eq_none {v : Value} : v.setting? = none ↔ ¬ v.IsWithin 0 := by
  cases v with
  | integer n => simp [setting?, IsWithin]
  | _ => simp [setting?, IsWithin]

theorem Value.setting?_eq_some {v : Value} {n : Nat} :
    v.setting? = some n ↔ v = .integer n ∧ (n : Int) < Int.pow 2 64 := by
  cases v with
  | integer i =>
    simp only [setting?, Value.integer.injEq]
    split
    · simp only [Option.some.injEq]
      omega
    · simp only [reduceCtorEq, false_iff]
      omega
  | _ => simp [setting?]

end Toml

namespace Limit

open Toml (Value)

variable {l : Limit} {v : Value} {runner : List (List Char × Value)}

/-- The value for a limit in the table `runner`. -/
def entry? (l : Limit) (runner : List (List Char × Value)) : Option Value :=
  runner.lookup l.key.toList

/-- The number that the table `runner` sets a limit to. -/
def number? (l : Limit) (runner : List (List Char × Value)) : Option Nat :=
  (l.entry? runner).bind Value.setting?

theorem ofKey?_eq_some {key : List Char} : ofKey? key = some l ↔ key = l.key.toList := by
  constructor
  · intro h
    have := List.find?_some h
    exact (of_decide_eq_true this).symm
  · rintro rfl
    cases l <;> decide

theorem ofKey?_eq_none {key : List Char} : ofKey? key = none ↔ ∀ l : Limit, key ≠ l.key.toList := by
  rw [Option.eq_none_iff_forall_ne_some]
  exact forall_congr' fun l => not_congr ofKey?_eq_some

theorem read_eq_ok {n : Nat} (h : v.setting? = some n) : l.read v = .ok n := by
  obtain ⟨rfl, hlt⟩ := Value.setting?_eq_some.1 h
  rw [read, if_pos ⟨by omega, hlt⟩]
  rfl

theorem exists_read_eq_error (l : Limit) (h : v.setting? = none) : ∃ f, l.read v = .error f := by
  cases v with
  | integer n =>
    have hout : ¬ (0 ≤ n ∧ n < Int.pow 2 64) := by simpa [Value.setting?] using h
    rw [read, if_neg hout]
    split
    · exact ⟨_, rfl⟩
    · exact ⟨_, rfl⟩
  | _ => exact ⟨_, rfl⟩

end Limit

namespace Settings

open Toml (Value sortEntries)

variable {s t : Settings} {l : Limit} {v : Value} {es runner runner' : List (List Char × Value)}
  {doc : List (List Char × Value)}

@[simp] theorem get_set (s : Settings) (l m : Limit) (n : Nat) :
    (s.set l n).get m = if m = l then n else s.get m := by
  cases l <;> cases m <;> rfl

@[simp] theorem get_ofValues (value : Limit → Nat) (l : Limit) :
    (ofValues value).get l = value l := by
  cases l <;> rfl

@[simp] theorem get_default (l : Limit) : ({} : Settings).get l = l.default := by
  cases l <;> rfl

theorem ext_get (h : ∀ l, s.get l = t.get l) : s = t := by
  obtain ⟨a, b, c, d⟩ := s
  obtain ⟨a', b', c', d'⟩ := t
  have := h .gracePeriod
  have := h .stopTimeout
  have := h .joinTimeout
  have := h .bufferSize
  simp_all [get]

/-! ## The table `runner` -/

/-- The table `runner` of a document, empty if it is absent; `none` if it is something else
    than a table. -/
def runner? (doc : List (List Char × Value)) : Option (List (List Char × Value)) :=
  match doc.lookup "runner".toList with
  | none => some []
  | some (.table entries) => some entries
  | some _ => none

/-- What the table `runner` sets. -/
def given (runner : List (List Char × Value)) : Settings :=
  ofValues fun l => (l.number? runner).getD l.default

/-- Settings behind one entry that sets a limit, or does not. -/
def setEntry (s : Settings) (entry : List Char × Value) : Settings :=
  match Limit.ofKey? entry.1, entry.2.setting? with
  | some l, some n => s.set l n
  | _, _ => s

theorem get_setEntry_of_ne {e : List Char × Value} (h : e.1 ≠ l.key.toList) :
    (s.setEntry e).get l = s.get l := by
  unfold setEntry
  split
  · next m n hm _ =>
    have hne : l ≠ m := by
      rintro rfl
      exact h (Limit.ofKey?_eq_some.1 hm)
    rw [get_set, if_neg hne]
  · rfl

theorem get_foldl_of_notMem (h : l.key.toList ∉ es.map (·.1)) :
    (es.foldl setEntry s).get l = s.get l := by
  induction es generalizing s with
  | nil => rfl
  | cons e es ih =>
    rw [List.map_cons, List.mem_cons, not_or] at h
    rw [List.foldl_cons, ih h.2, get_setEntry_of_ne (Ne.symm h.1)]

theorem get_foldl_of_mem {n : Nat} (hd : (es.map (·.1)).Nodup) (hm : (l.key.toList, v) ∈ es)
    (hv : v.setting? = some n) : (es.foldl setEntry s).get l = n := by
  induction es generalizing s with
  | nil => cases hm
  | cons e es ih =>
    obtain ⟨hfirst, hd⟩ := List.nodup_cons.1 hd
    rw [List.foldl_cons]
    rcases List.mem_cons.1 hm with rfl | hm
    · have hset : s.setEntry (l.key.toList, v) = s.set l n := by
        simp only [setEntry, Limit.ofKey?_eq_some.2 rfl, hv]
      rw [get_foldl_of_notMem hfirst, hset, get_set, if_pos rfl]
    · exact ih hd hm

/-- The entries of the table `runner` that set no limit hold no number out of range. -/
def ReadableBeside (runner : List (List Char × Value)) : Prop :=
  ∀ e ∈ runner, (∀ l : Limit, e.1 ≠ l.key.toList) → e.2.IsReadable

/-- Whether an entry sets a limit. -/
def setsLimit (key : List Char) : Bool := (Limit.ofKey? key).isSome

/-- Only the entries that set limits count. -/
theorem ofSection_eq_filter (h : ReadableBeside runner) :
    ofSection (.table runner) =
      ((sortEntries runner).filter fun e => setsLimit e.1).foldlM readEntry {} := by
  refine foldlM_eq_filter fun e he hkey s => ?_
  have hnone : Limit.ofKey? e.1 = none := by simpa [setsLimit] using hkey
  have hread := h e ((Toml.sortEntries_perm runner).mem_iff.1 he) (Limit.ofKey?_eq_none.1 hnone)
  rw [readEntry, hnone]
  simp only [e.2.ignore_eq_ok.2 hread]
  rfl

/-- **What a table sets depends on its four keys alone.** -/
theorem ofSection_congr (hd : (runner.map (·.1)).Nodup) (hd' : (runner'.map (·.1)).Nodup)
    (h : ReadableBeside runner) (h' : ReadableBeside runner')
    (hsame : ∀ l : Limit, l.entry? runner = l.entry? runner') :
    ofSection (.table runner) = ofSection (.table runner') := by
  rw [ofSection_eq_filter h, ofSection_eq_filter h',
    Toml.filter_sortEntries_eq hd hd' fun k hk => ?_]
  obtain ⟨l, hl⟩ := Option.isSome_iff_exists.1 hk
  rw [Limit.ofKey?_eq_some.1 hl]
  exact hsame l

/-- **A table whose values fit sets what they say**, and the rest to the defaults. -/
theorem ofSection_eq_given (hd : (runner.map (·.1)).Nodup) (h : ReadableBeside runner)
    (hfit : ∀ (l : Limit) v, l.entry? runner = some v → v.IsWithin 0) :
    ofSection (.table runner) = .ok (given runner) := by
  have hmem := fun e => (Toml.sortEntries_perm runner).mem_iff (a := e)
  have hd' : ((sortEntries runner).map (·.1)).Nodup :=
    ((Toml.sortEntries_perm runner).map _).nodup_iff.2 hd
  have hstep : ∀ e ∈ sortEntries runner, ∀ s, readEntry s e = .ok (s.setEntry e) := by
    intro e he s
    unfold readEntry setEntry
    cases hk : Limit.ofKey? e.1 with
    | none =>
      have hread := h e ((hmem e).1 he) (Limit.ofKey?_eq_none.1 hk)
      simp only [e.2.ignore_eq_ok.2 hread]
      rfl
    | some l =>
      have hl : l.entry? runner = some e.2 := by
        rw [Limit.entry?, ← Limit.ofKey?_eq_some.1 hk]
        exact Toml.lookup_of_mem hd ((hmem e).1 he)
      cases hn : e.2.setting? with
      | none => exact absurd (hfit l e.2 hl) (Value.setting?_eq_none.1 hn)
      | some n => simp only [Limit.read_eq_ok hn, Except.map]
  have hfold : ofSection (.table runner) = .ok ((sortEntries runner).foldl setEntry {}) :=
    foldlM_eq_ok hstep
  rw [hfold]
  refine congrArg Except.ok (ext_get fun l => ?_)
  rw [given, get_ofValues, Limit.number?]
  cases hl : l.entry? runner with
  | none =>
    have hkey : l.key.toList ∉ (sortEntries runner).map (·.1) := by
      rw [((Toml.sortEntries_perm runner).map _).mem_iff]
      intro hm
      obtain ⟨e, he, hek⟩ := List.mem_map.1 hm
      have := Toml.lookup_of_mem (k := e.1) (v := e.2) hd he
      rw [hek] at this
      rw [Limit.entry?, this] at hl
      cases hl
    rw [get_foldl_of_notMem hkey, get_default]
    rfl
  | some v =>
    cases hn : v.setting? with
    | none => exact absurd (hfit l v hl) (Value.setting?_eq_none.1 hn)
    | some n =>
      have hin := (hmem _).2 ((Toml.mem_iff_lookup hd).2 hl)
      rw [get_foldl_of_mem hd' hin hn, Option.bind_some, hn, Option.getD_some]

/-- A value that does not fit its limit is refused. -/
theorem exists_ofSection_eq_error (hd : (runner.map (·.1)).Nodup) (hl : l.entry? runner = some v)
    (hv : ¬ v.IsWithin 0) : ∃ f, ofSection (.table runner) = .error f := by
  have hin := (Toml.sortEntries_perm runner).mem_iff.2 ((Toml.mem_iff_lookup hd).2 hl)
  refine exists_foldlM_eq_error hin fun s => ?_
  obtain ⟨f, hf⟩ := l.exists_read_eq_error (Value.setting?_eq_none.2 hv)
  exact ⟨f, by simp only [readEntry, Limit.ofKey?_eq_some.2 rfl, hf, Except.map]⟩

/-- A number out of range is refused beside the limits. -/
theorem exists_ofSection_eq_error_beside (h : ¬ ReadableBeside runner) :
    ∃ f, ofSection (.table runner) = .error f := by
  simp only [ReadableBeside, not_forall] at h
  obtain ⟨e, he, hkey, hread⟩ := h
  refine exists_foldlM_eq_error ((Toml.sortEntries_perm runner).mem_iff.2 he) fun s => ?_
  obtain ⟨f, hf⟩ := Toml.exists_ignore_eq_error hread
  exact ⟨f, by simp only [readEntry, Limit.ofKey?_eq_none.2 hkey, hf, Except.map]⟩

/-! ## Documents -/

/-- Nothing in a document but the table `runner` holds a number out of range, nor does
    anything in that table but the limits. -/
def ReadableElsewhere (doc runner : List (List Char × Value)) : Prop :=
  (∀ e ∈ doc, e.1 ≠ "runner".toList → e.2.IsReadable) ∧ ReadableBeside runner

theorem filter_eq_of_lookup {k : List Char} (hd : (es.map (·.1)).Nodup) :
    es.filter (fun e => decide (e.1 = k)) = ((es.lookup k).map (k, ·)).toList := by
  induction es with
  | nil => rfl
  | cons e es ih =>
    obtain ⟨j, v⟩ := e
    obtain ⟨hfirst, hd⟩ := List.nodup_cons.1 hd
    have ih := ih hd
    by_cases hj : j = k
    · subst hj
      have hnone : es.lookup j = none := by
        rw [List.lookup_eq_none_iff]
        exact fun x hx => bne_iff_ne.2 fun h => hfirst (List.mem_map.2 ⟨x, hx, h.symm⟩)
      rw [List.filter_cons_of_pos (by simp), ih, hnone]
      simp
    · have hne : (k == j) = false := beq_eq_false_iff_ne.2 (Ne.symm hj)
      rw [List.filter_cons_of_neg (by simpa using hj), ih, List.lookup_cons, hne]

theorem readTop_runner (s : Settings) (v : Value) : readTop s ("runner".toList, v) = ofSection v :=
  if_pos rfl

/-- **A document sets what its table `runner` sets.** -/
theorem ofDocument_eq (hd : (doc.map (·.1)).Nodup) (hr : runner? doc = some runner)
    (h : ∀ e ∈ doc, e.1 ≠ "runner".toList → e.2.IsReadable) :
    ofDocument doc = ofSection (.table runner) := by
  have hskip : ofDocument doc =
      ((sortEntries doc).filter fun e => decide (e.1 = "runner".toList)).foldlM readTop {} := by
    refine foldlM_eq_filter fun e he hkey s => ?_
    have hne : e.1 ≠ "runner".toList := of_decide_eq_false hkey
    have hread := h e ((Toml.sortEntries_perm doc).mem_iff.1 he) hne
    rw [readTop, if_neg hne, e.2.ignore_eq_ok.2 hread]
    rfl
  have hperm := (Toml.sortEntries_perm doc).filter fun e => decide (e.1 = "runner".toList)
  rw [filter_eq_of_lookup hd] at hperm
  unfold runner? at hr
  rw [hskip]
  split at hr
  · next hl =>
    cases hr
    rw [hl] at hperm
    rw [List.perm_nil.1 hperm, ofSection, List.perm_nil.1 (Toml.sortEntries_perm [])]
    rfl
  · next entries hl =>
    cases hr
    rw [hl, Option.map_some, Option.toList_some, List.perm_singleton] at hperm
    rw [hperm, List.foldlM_cons, readTop_runner]
    cases ofSection (.table runner) <;> rfl
  · cases hr

/-- A number out of range anywhere else is refused. -/
theorem exists_ofDocument_eq_error (hr : runner? doc = some runner)
    (h : ¬ ReadableElsewhere doc runner) : ∃ f, ofDocument doc = .error f := by
  simp only [ReadableElsewhere, not_and_or, not_forall] at h
  rcases h with ⟨e, he, hne, hread⟩ | h
  · refine exists_foldlM_eq_error ((Toml.sortEntries_perm doc).mem_iff.2 he) fun s => ?_
    obtain ⟨f, hf⟩ := Toml.exists_ignore_eq_error hread
    exact ⟨f, by rw [readTop, if_neg hne, hf]; rfl⟩
  · unfold runner? at hr
    split at hr
    · cases hr
      exact absurd nofun h
    · next entries hl =>
      cases hr
      refine exists_foldlM_eq_error ((Toml.sortEntries_perm doc).mem_iff.2
        (Toml.mem_of_lookup hl)) fun s => ?_
      obtain ⟨f, hf⟩ := exists_ofSection_eq_error_beside h
      exact ⟨f, by rw [readTop_runner, hf]⟩
    · cases hr

/-- No key stands twice in the table `runner` of a document. -/
theorem nodup_runner (hd : (Value.table doc).Distinct) (hr : runner? doc = some runner) :
    (runner.map (·.1)).Nodup := by
  unfold runner? at hr
  split at hr
  · cases hr
    exact List.nodup_nil
  · next entries hl =>
    cases hr
    have hv := Toml.distinctEntries_iff.1 hd.2 _ ((Toml.mem_iff_lookup hd.1).2 hl)
    exact hv.1
  · cases hr

/-! ## Files -/

/-- The result of loading a table `runner`, with nothing out of range besides. -/
structure FollowsRunner (runner : List (List Char × Value)) (result : Except Error Settings) :
    Prop where
  ok : (∃ s, result = .ok s) ↔ ∀ (l : Limit) v, l.entry? runner = some v → v.IsWithin 1
  values : ∀ s, result = .ok s → ∀ l : Limit,
    (∀ n, l.entry? runner = some (.integer n) → (s.get l : Int) = n) ∧
    (l.entry? runner = none → s.get l = l.default)
  /-- a value that does not fit counts before one that is zero -/
  toml : (∃ f, result = .error (.toml f)) ↔
    ∃ (l : Limit) (v : Value), l.entry? runner = some v ∧ ¬ v.IsWithin 0
  zero : (∀ (l : Limit) v, l.entry? runner = some v → v.IsWithin 0) →
    ∀ l, (Limit.all.find? fun l => l.number? runner = some 0) = some l →
      result = .error (.zeroLimit l) ∧ (Error.zeroLimit l).kind = .config ∧
      (Error.zeroLimit l).message =
        "Configuration error: runner." ++ l.key ++ " must be greater than zero"

theorem get_given_eq_zero (runner : List (List Char × Value)) (l : Limit) :
    (given runner).get l = 0 ↔ l.number? runner = some 0 := by
  rw [given, get_ofValues]
  cases l.number? runner with
  | none => cases l <;> decide
  | some n => simp

theorem firstZero_given (runner : List (List Char × Value)) :
    (given runner).firstZero = Limit.all.find? fun l => l.number? runner = some 0 := by
  simp only [firstZero, get_given_eq_zero]

/-- A value that is within the limits of 64 bits and not zero is at least one. -/
theorem isWithin_one_iff : v.IsWithin 1 ↔ v.IsWithin 0 ∧ v.setting? ≠ some 0 := by
  constructor
  · rintro ⟨n, rfl, hlo, hhi⟩
    refine ⟨⟨n, rfl, by omega, hhi⟩, fun h => ?_⟩
    have := (Value.setting?_eq_some.1 h).1
    simp only [Value.integer.injEq] at this
    omega
  · rintro ⟨⟨n, rfl, hlo, hhi⟩, h⟩
    refine ⟨n, rfl, ?_, hhi⟩
    by_contra hlt
    have hn : n = 0 := by omega
    subst hn
    exact h rfl

/-- **What is loaded from a table `runner`** is told by its four keys. -/
theorem followsRunner (hd : (runner.map (·.1)).Nodup) (h : ReadableBeside runner) :
    FollowsRunner runner (((ofSection (.table runner)).mapError .toml).bind validate) := by
  by_cases hfit : ∀ (l : Limit) v, l.entry? runner = some v → v.IsWithin 0
  · have hload : ((ofSection (.table runner)).mapError Error.toml).bind validate =
        validate (given runner) := by
      rw [ofSection_eq_given hd h hfit]
      rfl
    have hnone : ¬ ∃ (l : Limit) (v : Value), l.entry? runner = some v ∧ ¬ v.IsWithin 0 :=
      fun ⟨l, v, hl, hv⟩ => hv (hfit l v hl)
    rw [hload, validate, firstZero_given]
    cases hz : Limit.all.find? fun l => l.number? runner = some 0 with
    | none =>
      have hpos : ∀ (l : Limit) v, l.entry? runner = some v → v.IsWithin 1 := by
        intro l v hl
        refine isWithin_one_iff.2 ⟨hfit l v hl, fun h0 => ?_⟩
        have hnz := List.find?_eq_none.1 hz l (by cases l <;> decide)
        simp [Limit.number?, hl, h0] at hnz
      refine ⟨⟨fun _ => hpos, fun _ => ⟨_, rfl⟩⟩, fun s hs l => ?_, ⟨nofun, fun h => absurd h hnone⟩,
        fun _ l hl => by rw [hz] at hl; cases hl⟩
      cases hs
      rw [given, get_ofValues, Limit.number?]
      refine ⟨fun n hl => ?_, fun hl => by rw [hl]; rfl⟩
      obtain ⟨i, hi, hlo, hhi⟩ := hfit l _ hl
      cases hi
      rw [hl, Option.bind_some, Value.setting?, if_pos ⟨hlo, hhi⟩, Option.getD_some,
        Int.toNat_of_nonneg hlo]
    | some l =>
      have hl0 : l.number? runner = some 0 := by simpa using List.find?_some hz
      refine ⟨⟨nofun, fun hpos => ?_⟩, nofun, ⟨nofun, fun h => absurd h hnone⟩, fun _ m hm => ?_⟩
      · obtain ⟨v, hv, hv0⟩ := Option.bind_eq_some_iff.1 hl0
        exact absurd hv0 (isWithin_one_iff.1 (hpos l v hv)).2
      · rw [hz] at hm
        cases hm
        exact ⟨rfl, rfl, by cases l <;> rfl⟩
  · have hbad : ∃ (l : Limit) (v : Value), l.entry? runner = some v ∧ ¬ v.IsWithin 0 := by
      simpa only [not_forall, exists_prop] using hfit
    obtain ⟨l, v, hl, hv⟩ := hbad
    obtain ⟨f, hf⟩ := exists_ofSection_eq_error hd hl hv
    rw [hf]
    refine ⟨⟨nofun, fun hpos => ?_⟩, nofun, ⟨fun _ => ⟨l, v, hl, hv⟩, fun _ => ⟨f, rfl⟩⟩,
      fun h => absurd h hfit⟩
    exact absurd (isWithin_one_iff.1 (hpos l v hl)).1 hv

/-- What is loaded from bytes that are a document. -/
theorem loadValid_ok {bs : Bytes} {text : List Char} (ht : Utf8.decode? bs = some text)
    (hp : Toml.Document.parse text = .ok doc) :
    loadValid (.ok bs) = ((ofDocument doc).mapError .toml).bind validate := by
  have hbytes : ofBytes bs = (ofDocument doc).mapError .toml := by
    rw [ofBytes, ht]
    simp only [hp]
    rfl
  rw [← hbytes]
  rfl

/-- Without a file there are the settings of an empty one. -/
theorem loadValid_nil : loadValid (.ok []) = .ok {} := by cbv

/-- The bytes of a file that are not a text are not a file that is missing. -/
theorem loadOrDefault_eq (file : Except Fault Bytes)
    (h : ∀ f, file = .error f → f.kind ≠ .notFound) :
    loadOrDefault file = loadValid file := by
  unfold loadOrDefault
  split
  · next f hf =>
    have hkind : f.kind ≠ .notFound := by
      cases file with
      | error g =>
        cases hf
        exact h _ rfl
      | ok bs =>
        have hbytes : (ofBytes bs).bind validate = .error (.io f) := hf
        unfold ofBytes at hbytes
        split at hbytes
        · cases hbytes
          decide
        · next text _ =>
          cases hd : (Toml.Document.parse text).bind ofDocument with
          | error g => rw [hd] at hbytes; cases hbytes
          | ok s =>
            rw [hd] at hbytes
            simp only [Except.mapError, Except.bind, validate] at hbytes
            split at hbytes <;> cases hbytes
    rw [if_neg hkind, hf]
  · rfl

/-- **Of a settings file four keys count, and all of them are validated.**  Take any document
    in which `runner` is absent or a table.  A number out of range anywhere but under the four keys
    is refused.  If there is none, what is loaded is told by the four keys, and is the same for
    every document that agrees on them; and where there is no file the settings of an empty
    one are taken, if they may be. -/
theorem reads_the_four_keys {bs : Bytes} {text : List Char} (ht : Utf8.decode? bs = some text)
    (hp : Toml.Document.parse text = .ok doc) (hr : runner? doc = some runner) :
    (¬ ReadableElsewhere doc runner → ∃ f, loadValid (.ok bs) = .error (.toml f)) ∧
      (ReadableElsewhere doc runner →
        FollowsRunner runner (loadValid (.ok bs)) ∧
        ∀ bs' text' doc' runner', Utf8.decode? bs' = some text' →
          Toml.Document.parse text' = .ok doc' → runner? doc' = some runner' →
          ReadableElsewhere doc' runner' →
          (∀ l : Limit, l.entry? runner = l.entry? runner') →
          loadValid (.ok bs) = loadValid (.ok bs')) ∧
      (∀ f, f.kind = .notFound → loadOrDefault (.error f) = loadValid (.ok [])) ∧
      ∀ file, (∀ f, file = .error f → f.kind ≠ .notFound) → loadOrDefault file = loadValid file := by
  have hd := Toml.Document.distinct_of_parse hp
  have hN := nodup_runner hd hr
  refine ⟨fun h => ?_, fun h => ⟨?_, ?_⟩, fun f hf => ?_, loadOrDefault_eq⟩
  · obtain ⟨f, hf⟩ := exists_ofDocument_eq_error hr h
    exact ⟨f, by rw [loadValid_ok ht hp, hf]; rfl⟩
  · rw [loadValid_ok ht hp, ofDocument_eq hd.1 hr h.1]
    exact followsRunner hN h.2
  · intro bs' text' doc' runner' ht' hp' hr' h' hsame
    have hd' := Toml.Document.distinct_of_parse hp'
    rw [loadValid_ok ht hp, loadValid_ok ht' hp', ofDocument_eq hd.1 hr h.1,
      ofDocument_eq hd'.1 hr' h'.1, ofSection_congr hN (nodup_runner hd' hr') h.2 h'.2 hsame]
  · have hload : loadValid (.error f) = .error (.io f) := rfl
    rw [loadValid_nil, loadOrDefault, hload]
    simp only [hf, if_true]

/-- A file that sets one limit, beside a number that takes more than 64 bits and another
    key. -/
def mixedFile : Bytes := Utf8.ofString
  "[other]\nx = 18446744073709551616\n[runner]\nstop_timeout_ms = 7\nother = 'x'\n"

/-- The table `runner` in it. -/
def mixedRunner : List (List Char × Value) :=
  [("stop_timeout_ms".toList, .integer 7), ("other".toList, .text ['x'])]

theorem entry?_mixedRunner (l : Limit) :
    l.entry? mixedRunner = if l = .stopTimeout then some (.integer 7) else none := by
  cases l <;> rfl

/-- What the file does not set has its default. -/
theorem reads_the_four_keys_mixedFile : ∃ s, loadValid (.ok mixedFile) = .ok s ∧
    (s.get .stopTimeout : Int) = 7 ∧ s.get .gracePeriod = 10000 ∧ s.get .bufferSize = 8192 := by
  have ht : Utf8.decode? mixedFile = some
      "[other]\nx = 18446744073709551616\n[runner]\nstop_timeout_ms = 7\nother = 'x'\n".toList := by
    cbv
  have hp : Toml.Document.parse
      "[other]\nx = 18446744073709551616\n[runner]\nstop_timeout_ms = 7\nother = 'x'\n".toList =
      .ok [("other".toList, .table [(['x'], .integer 18446744073709551616)]),
        ("runner".toList, .table mixedRunner)] := by
    cbv
  have helsewhere : ReadableElsewhere [("other".toList,
      .table [(['x'], .integer 18446744073709551616)]), ("runner".toList, .table mixedRunner)]
      mixedRunner := by
    refine ⟨fun e he hne => ?_, fun e he hkey => ?_⟩
    · rcases List.mem_cons.1 he with rfl | he
      · exact ⟨⟨by decide, by decide⟩, trivial⟩
      · exact absurd (congrArg Prod.fst (List.mem_singleton.1 he)) hne
    · rcases List.mem_cons.1 he with rfl | he
      · exact absurd rfl (hkey .stopTimeout)
      · rw [List.mem_singleton.1 he]
        trivial
  obtain ⟨-, hfollows, -, -⟩ := reads_the_four_keys ht hp (show runner? _ = some mixedRunner from rfl)
  have hF := (hfollows helsewhere).1
  obtain ⟨s, hs⟩ := hF.ok.2 fun l v hl => by
    rw [entry?_mixedRunner] at hl
    split at hl
    · cases hl
      exact ⟨7, rfl, by decide, by decide⟩
    · cases hl
  have hvalue := fun l => hF.values s hs l
  simp only [entry?_mixedRunner] at hvalue
  exact ⟨s, hs, (hvalue .stopTimeout).1 7 rfl, (hvalue .gracePeriod).2 rfl,
    (hvalue .bufferSize).2 rfl⟩

/-- A file with one number that no type holds, under a key that nobody asks for. -/
def hugeFile : Bytes := Utf8.ofString "x = 999999999999999999999999999999999999999999\n"

/-- The document in it. -/
def hugeDocument : List (List Char × Value) :=
  [(['x'], .integer 999999999999999999999999999999999999999999)]

/-- **Not everything beside the four keys is ignored**: none of them is in the file, and yet it
    is refused. -/
theorem hugeFile_is_refused :
    (Utf8.decode? hugeFile).map Toml.Document.parse = some (.ok hugeDocument) ∧
      runner? hugeDocument = some [] ∧
      ¬ ((∃ s, loadValid (.ok hugeFile) = .ok s) ↔
        ∀ (l : Limit) v, l.entry? [] = some v → v.IsWithin 1) := by
  have ht : Utf8.decode? hugeFile =
      some "x = 999999999999999999999999999999999999999999\n".toList := by cbv
  have hp : Toml.Document.parse "x = 999999999999999999999999999999999999999999\n".toList =
      .ok hugeDocument := by cbv
  refine ⟨by rw [ht, Option.map_some, hp], rfl, fun h => ?_⟩
  obtain ⟨s, hs⟩ := h.2 fun l v hl => by cases hl
  have hunreadable : ¬ ReadableElsewhere hugeDocument [] := fun hR =>
    absurd (hR.1 _ List.mem_cons_self (by decide)).2 (by decide)
  obtain ⟨f, hf⟩ := exists_ofDocument_eq_error rfl hunreadable
  rw [loadValid_ok ht hp, hf] at hs
  cases hs

end Settings

end Supervisor
