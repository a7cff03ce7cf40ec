/-
  No table of a document has a key twice.

  * `Value.Distinct`: no table in a value has a key twice; `Entries.Distinct` says the same of an
    open table, by the value that it is so far;
  * `reach`: the table that a path leads to.  `within` changes just that one
    (`within_spec`), which is why a header can check its key when it opens a table and not
    when it closes it (`Reader.Sound`);
  * `Written.distinct_of_read`: values are read so;
  * `Document.distinct_of_parse`: and so are documents.
-/
import Mathlib.Tactic.Common
import Mathlib.Data.List.Nodup
import Supervisor.Toml.Document

namespace Supervisor.Toml

/-! ## Values -/

mutual

/-- No table in a value has a key twice. -/
def Value.Distinct : Value → Prop
  | .array items => distinctItems items
  | .table entries => (entries.map (·.1)).Nodup ∧ distinctEntries entries
  | _ => True

/-- Nor has any in the items of an array. -/
def distinctItems : List Value → Prop
  | [] => True
  | v :: rest => v.Distinct ∧ distinctItems rest

/-- Nor has any in the entries of a table. -/
def distinctEntries : List (List Char × Value) → Prop
  | [] => True
  | (_, v) :: rest => v.Distinct ∧ distinctEntries rest

end

theorem distinctItems_iff {vs : List Value} : distinctItems vs ↔ ∀ v ∈ vs, v.Distinct := by
  induction vs with
  | nil => simp [distinctItems]
  | cons v vs ih => simp [distinctItems, ih]

theorem distinctEntries_iff {es : List (List Char × Value)} :
    distinctEntries es ↔ ∀ e ∈ es, e.2.Distinct := by
  induction es with
  | nil => simp [distinctEntries]
  | cons e es ih => simp [distinctEntries, ih]

theorem entryValues_eq (es : Entries) : entryValues es = es.map fun e => (e.1, e.2.toValue) := by
  induction es with
  | nil => rfl
  | cons e es ih => rw [entryValues, ih, List.map_cons]

theorem tableValues_eq (items : List Entries) :
    tableValues items = items.map fun es => .table (entryValues es) := by
  induction items with
  | nil => rfl
  | cons es items ih => rw [tableValues, ih, List.map_cons]

/-! ## Open tables -/

/-- No table in an open table has a key twice, nor has it itself. -/
def Entries.Distinct (es : Entries) : Prop :=
  (es.map (·.1)).Nodup ∧ ∀ e ∈ es, e.2.toValue.Distinct

theorem distinct_entryValues {es : Entries} :
    (Value.table (entryValues es)).Distinct ↔ Entries.Distinct es := by
  simp only [Value.Distinct, distinctEntries_iff, entryValues_eq, Entries.Distinct, List.map_map,
    List.forall_mem_map]
  rfl

theorem distinct_tables {items : List Entries} :
    (Node.tables items).toValue.Distinct ↔ ∀ es ∈ items, Entries.Distinct es := by
  simp only [Node.toValue, Value.Distinct, distinctItems_iff, tableValues_eq, List.mem_reverse,
    List.forall_mem_map, ← distinct_entryValues]

theorem distinct_table {origin : Origin} {es : Entries} :
    (Node.table origin es).toValue.Distinct ↔ Entries.Distinct es :=
  distinct_entryValues

theorem mem_of_lookup {α β : Type} [BEq α] [LawfulBEq α] {l : List (α × β)} {a : α} {b : β}
    (h : l.lookup a = some b) : (a, b) ∈ l := by
  obtain ⟨l₁, l₂, rfl, -⟩ := List.lookup_eq_some_iff.1 h
  exact List.mem_append_right _ List.mem_cons_self

section
variable {es : Entries} {key : List Char} {n : Node}

theorem lookup_eq_none_iff : es.lookup key = none ↔ key ∉ es.map (·.1) := by
  simp only [List.lookup_eq_none_iff, bne_iff_ne, List.mem_map, not_exists, not_and]
  exact ⟨fun h e he heq => h e he heq.symm, fun h e he heq => h e he heq.symm⟩

theorem lookup_append (h : es.lookup key = none) : (es ++ [(key, n)]).lookup key = some n := by
  simp [List.lookup_append, h]

theorem lookup_replaceAt (h : (es.lookup key).isSome = true) :
    (replaceAt key n es).lookup key = some n := by
  induction es with
  | nil => cases h
  | cons e es ih =>
    obtain ⟨k, m⟩ := e
    by_cases hk : key = k
    · subst hk
      simp [replaceAt]
    · have hne : (key == k) = false := by simpa using hk
      have hne' : k ≠ key := fun h => hk h.symm
      rw [List.lookup_cons, hne] at h
      simp only [replaceAt, List.map_cons, hne', if_false, List.lookup_cons, hne]
      exact ih h

theorem Entries.Distinct.append (hd : Entries.Distinct es) (h : es.lookup key = none)
    (hn : n.toValue.Distinct) : Entries.Distinct (es ++ [(key, n)]) := by
  refine ⟨?_, fun e he => ?_⟩
  · rw [List.map_append, List.nodup_append]
    refine ⟨hd.1, by simp, fun a ha b hb => ?_⟩
    have : b = key := by simpa using hb
    rw [this]
    rintro rfl
    exact lookup_eq_none_iff.1 h ha
  · rcases List.mem_append.1 he with he | he
    · exact hd.2 e he
    · rw [List.mem_singleton.1 he]
      exact hn

theorem Entries.Distinct.replaceAt (hd : Entries.Distinct es) (hn : n.toValue.Distinct) :
    Entries.Distinct (replaceAt key n es) := by
  have hkeys : (Toml.replaceAt key n es).map (·.1) = es.map (·.1) := by
    simp only [Toml.replaceAt, List.map_map]
    refine List.map_congr_left fun e _ => ?_
    simp only [Function.comp_apply]
    split <;> rfl
  refine ⟨by rw [hkeys]; exact hd.1, fun e he => ?_⟩
  obtain ⟨x, hx, rfl⟩ := List.mem_map.1 he
  dsimp only
  split
  · exact hn
  · exact hd.2 x hx

theorem Entries.Distinct.removeAt (hd : Entries.Distinct es) :
    Entries.Distinct (removeAt key es) :=
  ⟨hd.1.sublist (List.filter_sublist.map _), fun e he => hd.2 e (List.mem_filter.1 he).1⟩

theorem Entries.Distinct.lookup (hd : Entries.Distinct es) (h : es.lookup key = some n) :
    n.toValue.Distinct :=
  hd.2 _ (mem_of_lookup h)

theorem Entries.Distinct.nil : Entries.Distinct [] := ⟨List.nodup_nil, nofun⟩

theorem lookup_removeAt : (removeAt key es).lookup key = none := by
  refine lookup_eq_none_iff.2 fun h => ?_
  obtain ⟨e, he, hk⟩ := List.mem_map.1 h
  have := (List.mem_filter.1 he).2
  simp [hk] at this

end

/-! ## Paths -/

/-- The table that a path leads to; one that is missing is empty. -/
def reach : List (List Char) → Entries → Option Entries
  | [], es => some es
  | k :: path, es =>
    match es.lookup k with
    | none => reach path []
    | some (.table _ inner) => reach path inner
    | some (.tables (last :: _)) => reach path last
    | some _ => none

section
variable {α β ε : Type} {x : Except ε α}

/-- A result behind two steps comes from the results of both. -/
theorem bind_eq_ok {g : α → Except ε β} {b : β} :
    x >>= g = .ok b ↔ ∃ a, x = .ok a ∧ g a = .ok b := by
  cases x with
  | error e => exact ⟨nofun, fun ⟨_, h, _⟩ => nomatch h⟩
  | ok y => exact ⟨fun h => ⟨y, rfl, h⟩, fun ⟨_, hy, h⟩ => by cases hy; exact h⟩

theorem map_eq_ok {g : α → β} {b : β} : x.map g = .ok b ↔ ∃ a, x = .ok a ∧ g a = b := by
  cases x with
  | error e => exact ⟨nofun, fun ⟨_, h, _⟩ => nomatch h⟩
  | ok y => exact ⟨fun h => ⟨y, rfl, Except.ok.inj h⟩, fun ⟨_, hy, h⟩ => by cases hy; rw [← h]; rfl⟩

end

section
variable {α : Type} {d : Bool} {f : Origin → Entries → Except Fault (α × Entries)}
  {path : List (List Char)} {origin : Origin} {es es' : Entries} {a : α}

/-- **What is changed within a table is what the path leads to**, and nothing else has to be
    looked at. -/
theorem within_spec (h : within d f path origin es = .ok (a, es')) :
    ∃ o inner inner', reach path es = some inner ∧ f o inner = .ok (a, inner') ∧
      reach path es' = some inner' ∧
      (Entries.Distinct es → Entries.Distinct inner ∧
        (Entries.Distinct inner' → Entries.Distinct es')) := by
  induction path generalizing origin es es' with
  | nil => exact ⟨origin, es, es', rfl, h, rfl, fun hd => ⟨hd, id⟩⟩
  | cons k path ih =>
    unfold within at h
    split at h
    · next hl =>
      obtain ⟨⟨a', made⟩, hmade, h⟩ := bind_eq_ok.1 h
      cases h
      obtain ⟨o, inner, inner', hreach, hf, hreach', hdist⟩ := ih hmade
      refine ⟨o, inner, inner', by rw [reach, hl]; exact hreach, hf,
        by rw [reach, lookup_append hl]; exact hreach',
        fun hd => ⟨(hdist .nil).1, fun hi => ?_⟩⟩
      exact hd.append hl (distinct_table.2 ((hdist .nil).2 hi))
    · next o₀ sub hl =>
      split at h
      · cases h
      · obtain ⟨⟨a', made⟩, hmade, h⟩ := bind_eq_ok.1 h
        cases h
        obtain ⟨o, inner, inner', hreach, hf, hreach', hdist⟩ := ih hmade
        have hnew : (replaceAt k (.table o₀ made) es).lookup k = some (.table o₀ made) :=
          lookup_replaceAt (by rw [hl]; rfl)
        refine ⟨o, inner, inner', by rw [reach, hl]; exact hreach, hf,
          by rw [reach, hnew]; exact hreach',
          fun hd => ?_⟩
        have hsub := distinct_table.1 (hd.lookup hl)
        exact ⟨(hdist hsub).1, fun hi => hd.replaceAt (distinct_table.2 ((hdist hsub).2 hi))⟩
    · next last earlier hl =>
      obtain ⟨⟨a', made⟩, hmade, h⟩ := bind_eq_ok.1 h
      cases h
      obtain ⟨o, inner, inner', hreach, hf, hreach', hdist⟩ := ih hmade
      have hnew : (replaceAt k (.tables (made :: earlier)) es).lookup k =
          some (.tables (made :: earlier)) := lookup_replaceAt (by rw [hl]; rfl)
      refine ⟨o, inner, inner', by rw [reach, hl]; exact hreach, hf,
        by rw [reach, hnew]; exact hreach',
        fun hd => ?_⟩
      obtain ⟨hlast, hearlier⟩ := List.forall_mem_cons.1 (distinct_tables.1 (hd.lookup hl))
      exact ⟨(hdist hlast).1, fun hi => hd.replaceAt
        (distinct_tables.2 (List.forall_mem_cons.2 ⟨(hdist hlast).2 hi, hearlier⟩))⟩
    · cases h

end

/-! ## Reading values -/

section
variable {es es' : Entries} {path : List (List Char)} {key : List Char} {v : Value}

/-- An entry is added where its key is new. -/
theorem Entries.Distinct.insertEntry (hd : Entries.Distinct es) (hv : v.Distinct)
    (h : insertEntry path key v es = .ok es') : Entries.Distinct es' := by
  unfold Toml.insertEntry at h
  obtain ⟨⟨_, _⟩, hw, rfl⟩ := map_eq_ok.1 h
  obtain ⟨o, inner, inner', -, hadd, -, hdist⟩ := within_spec hw
  split at hadd
  · cases hadd
  · next hfree =>
    cases hadd
    simp only [Bool.or_eq_true, not_or, Bool.not_eq_true, Option.isSome_eq_false_iff,
      Option.isNone_iff_eq_none] at hfree
    exact (hdist hd).2 ((hdist hd).1.append hfree.2 hv)

mutual

/-- **No table in a value that is read has a key twice.** -/
theorem Written.distinct_of_read : ∀ (w : Written) {v : Value}, w.read = .ok v → v.Distinct
  | .bare cs, v, h => by
    unfold Written.read at h
    split at h
    · next b _ => cases h; cases b <;> trivial
    · cases h
  | .quoted q, v, h => by
    unfold Written.read at h
    obtain ⟨cs, -, rfl⟩ := map_eq_ok.1 h
    trivial
  | .array items, v, h => by
    unfold Written.read at h
    obtain ⟨vs, hi, rfl⟩ := map_eq_ok.1 h
    exact distinctItems_of_readItems items hi
  | .table entries, v, h => by
    unfold Written.read at h
    obtain ⟨es, hi, rfl⟩ := map_eq_ok.1 h
    exact distinct_entryValues.2 (distinct_of_readEntries entries .nil hi)

theorem distinctItems_of_readItems :
    ∀ (ws : List Written) {vs : List Value}, readItems ws = .ok vs → distinctItems vs
  | [], vs, h => by cases h; trivial
  | w :: ws, vs, h => by
    unfold readItems at h
    obtain ⟨v, hv, h⟩ := bind_eq_ok.1 h
    obtain ⟨rest, hrest, h⟩ := bind_eq_ok.1 h
    cases h
    exact ⟨w.distinct_of_read hv, distinctItems_of_readItems ws hrest⟩

theorem distinct_of_readEntries : ∀ (ws : List (List Key × Written)) {es es' : Entries},
    Entries.Distinct es → readEntries ws es = .ok es' → Entries.Distinct es'
  | [], es, es', hd, h => by cases h; exact hd
  | (keys, w) :: ws, es, es', hd, h => by
    unfold readEntries at h
    obtain ⟨⟨path, key⟩, -, h⟩ := bind_eq_ok.1 h
    obtain ⟨v, hv, h⟩ := bind_eq_ok.1 h
    obtain ⟨next, hnext, h⟩ := bind_eq_ok.1 h
    exact distinct_of_readEntries ws (hd.insertEntry (w.distinct_of_read hv) hnext) h

end

end

/-! ## Documents -/

namespace Reader

variable {r r' : Reader} {root : Entries} {h : Header}

/-- No table of a reader has a key twice, and the key of the open table is free. -/
structure Sound (r : Reader) : Prop where
  root : Entries.Distinct r.root
  current : Entries.Distinct r.current
  free : ∀ h, r.header = some h → h.many = false →
    ∃ es, reach h.path r.root = some es ∧ es.lookup h.key = none

theorem Sound.closeTable (hS : r.Sound) (hc : r.closeTable = .ok root) :
    Entries.Distinct root := by
  unfold Reader.closeTable at hc
  split at hc
  · cases hc
    exact hS.current
  · next h hh =>
    obtain ⟨⟨_, _⟩, hw, rfl⟩ := map_eq_ok.1 hc
    obtain ⟨o, inner, inner', hreach, hput, -, hdist⟩ := within_spec hw
    obtain ⟨hinner, hwhole⟩ := hdist hS.root
    refine hwhole ?_
    split at hput
    · -- A repeated header adds a table to those that are there.
      split at hput
      · next hl =>
        cases hput
        exact hinner.append hl (distinct_tables.2 (by simpa using hS.current))
      · next items hl =>
        cases hput
        exact hinner.replaceAt (distinct_tables.2
          (List.forall_mem_cons.2 ⟨hS.current, distinct_tables.1 (hinner.lookup hl)⟩))
      · cases hput
    · next hmany =>
      cases hput
      obtain ⟨es, hes, hfree⟩ := hS.free h hh (by simpa using hmany)
      rw [hreach] at hes
      cases hes
      exact hinner.append hfree (distinct_table.2 hS.current)

theorem sound_of_openTable (hd : Entries.Distinct root) (ho : openTable root h = .ok r) :
    r.Sound := by
  unfold openTable at ho
  split at ho
  · next hmany =>
    cases ho
    refine ⟨hd, .nil, fun h' hh hm => ?_⟩
    cases hh
    rw [hmany] at hm
    cases hm
  · obtain ⟨⟨current, root'⟩, hw, ho⟩ := bind_eq_ok.1 ho
    cases ho
    obtain ⟨o, inner, inner', -, htake, hreach', hdist⟩ := within_spec hw
    obtain ⟨hinner, hwhole⟩ := hdist hd
    split at htake
    · next hl =>
      cases htake
      exact ⟨hwhole hinner, .nil, fun h' hh _ => by cases hh; exact ⟨inner, hreach', hl⟩⟩
    · next sub hl =>
      cases htake
      exact ⟨hwhole hinner.removeAt, distinct_table.1 (hinner.lookup hl),
        fun h' hh _ => by cases hh; exact ⟨_, hreach', lookup_removeAt⟩⟩
    · cases htake

/-- **Each statement keeps the keys apart.** -/
theorem Sound.feed {st : Statement} (hS : r.Sound) (hf : r.feed st = .ok r') : r'.Sound := by
  cases st with
  | header keys many =>
    unfold Reader.feed at hf
    obtain ⟨root, hroot, hf⟩ := bind_eq_ok.1 hf
    obtain ⟨⟨path, key⟩, -, hf⟩ := bind_eq_ok.1 hf
    exact sound_of_openTable (hS.closeTable hroot) hf
  | entry keys value =>
    unfold Reader.feed at hf
    obtain ⟨⟨path, key⟩, -, hf⟩ := bind_eq_ok.1 hf
    obtain ⟨v, hv, hf⟩ := bind_eq_ok.1 hf
    obtain ⟨next, hnext, hf⟩ := bind_eq_ok.1 hf
    cases hf
    exact ⟨hS.root, hS.current.insertEntry (value.distinct_of_read hv) hnext, hS.free⟩

theorem Sound.feeds {sts : List Statement} (hS : r.Sound)
    (hf : sts.foldlM Reader.feed r = .ok r') : r'.Sound := by
  induction sts generalizing r with
  | nil => cases hf; exact hS
  | cons st sts ih =>
    rw [List.foldlM_cons] at hf
    obtain ⟨v, hv, hf⟩ := bind_eq_ok.1 hf
    exact ih (hS.feed hv) hf

end Reader

/-- **No table of a document has a key twice.** -/
theorem Document.distinct_of_parse {text : List Char} {doc : List (List Char × Value)}
    (h : Document.parse text = .ok doc) : (Value.table doc).Distinct := by
  unfold Document.parse at h
  split at h
  · cases h
  · obtain ⟨r, hr, h⟩ := bind_eq_ok.1 h
    obtain ⟨es, hes, h⟩ := bind_eq_ok.1 h
    cases h
    have hS : ({} : Reader).Sound := ⟨.nil, .nil, nofun⟩
    exact distinct_entryValues.2 ((hS.feeds hr).closeTable hes)

end Supervisor.Toml
