/-
  What can be heard of a stream.

  * `Payload.ends`: the end of a stream, or a failure that closes it;
  * `Source.met d`: what a reader that keeps up meets before the deadline `d`, up to
    the first payload that ends the stream; `Source.heard d` are the bytes of it
    and `Source.failure? d` the failure that closes the stream, if one does;
  * `Source.closing`: when the end can be read at the earliest;
  * `Source.Read`: the ways one read can go (`Source.read_of_eq_some`), and what is
    left to hear after each.
-/
import Mathlib.Tactic.Common
import Supervisor.Source

namespace Supervisor

/-- Whether a time lies before a deadline, of which there may be none. -/
def isBefore (t : Nat) (d : Option Nat) : Bool := d.all (t < ·)

theorem isBefore_of_le {t u : Nat} {d : Option Nat} (h : isBefore u d = true) (hle : t ≤ u) :
    isBefore t d = true := by
  cases d with
  | none => rfl
  | some v => simp only [isBefore, Option.all_some, decide_eq_true_eq] at h ⊢; omega

namespace Payload

/-- The bytes that are read. -/
def bytes : Payload → Bytes
  | .data bs => bs
  | .failure _ => []

/-- The failure that closes a stream: an interrupted read does not. -/
def fault? : Payload → Option Fault
  | .failure f => if f.kind = .interrupted then none else some f
  | .data _ => none

/-- Whether a stream is closed by it: a read of no bytes is the end. -/
def ends : Payload → Bool
  | .data bs => bs.isEmpty
  | .failure f => f.kind ≠ .interrupted

theorem bytes_of_ends {p : Payload} (h : p.ends = true) : p.bytes = [] := by
  cases p with
  | data bs => exact List.isEmpty_iff.1 h
  | failure f => rfl

theorem fault?_of_not_ends {p : Payload} (h : p.ends = false) : p.fault? = none := by
  cases p with
  | data bs => rfl
  | failure f => simpa [ends, fault?] using h

end Payload

namespace Source

/-! ## What is met -/

/-- What a reader that keeps up meets before a deadline, up to the end. -/
def meet (d : Option Nat) : List Arrival → List Payload
  | [] => []
  | a :: rest =>
    if isBefore a.time d then a.payload :: (if a.payload.ends then [] else meet d rest) else []

/-- What is met of a stream, which may not be open. -/
def met (d : Option Nat) (o : Option Source) : List Payload :=
  (o.map fun s => meet d s.arrivals).getD []

/-- The bytes that are heard before a deadline. -/
def heard (d : Option Nat) (o : Option Source) : Bytes := (met d o).flatMap Payload.bytes

/-- The failure that closes a stream before a deadline. -/
def failure? (d : Option Nat) (o : Option Source) : Option Fault :=
  (met d o).findSome? Payload.fault?

/-- When the end behind some arrivals can be read at the earliest. -/
def closingAfter (ending : Option Nat) : List Arrival → Option Nat
  | [] => ending
  | a :: rest =>
    if a.payload.ends then some a.time else later (some a.time) (closingAfter ending rest)

/-- When a reader that keeps up reads the end; `none` is never. -/
def closing (s : Source) : Option Nat := closingAfter s.ending s.arrivals

/-- The times at which something can be read for the first time. -/
def moments (s : Source) : List Nat := s.arrivals.map (·.time) ++ s.ending.toList

section
variable {d : Option Nat} {s : Source} {a : Arrival} {as : List Arrival} {now : Nat}

@[simp] theorem met_none : met d none = [] := rfl

@[simp] theorem heard_none : heard d none = [] := rfl

@[simp] theorem failure?_none : failure? d none = none := rfl

theorem heard_eq_nil {o : Option Source} (h : met d o = []) : heard d o = [] := by
  rw [heard, h]; rfl

theorem failure?_eq_none {o : Option Source} (h : met d o = []) : failure? d o = none := by
  rw [failure?, h]; rfl

theorem met_put (hb : isBefore a.time d = true) :
    met d (some { s with arrivals := a :: as }) = a.payload ::
      (if a.payload.ends then [] else met d (some { s with arrivals := as })) := by
  simp [met, meet, hb]

theorem met_cons (h : s.arrivals = a :: as) (hb : isBefore a.time d = true) :
    met d (some s) = a.payload ::
      (if a.payload.ends then [] else met d (some { s with arrivals := as })) := by
  rw [← met_put hb, ← h]

/-- Nothing is met of a stream that has nothing to read before the deadline. -/
theorem met_eq_nil (h : s.isReady now = false) (hd : isBefore now d = false ∨ d = some (now + 1)) :
    met d (some s) = [] := by
  cases has : s.arrivals with
  | nil => simp [met, has, meet]
  | cons a as =>
    have hlt : now < a.time := by simpa [isReady, has] using h
    have hb : isBefore a.time d = false := by
      rcases hd with hd | rfl
      · cases d with
        | none => cases hd
        | some t => simp [isBefore] at hd ⊢; omega
      · simp [isBefore]; omega
    simp [met, has, meet, hb]

end

/-! ## Times -/

section
variable {x y : Option Nat} {t u : Nat}

@[simp] theorem later_some (t u : Nat) : later (some t) (some u) = some (max t u) := rfl

@[simp] theorem later_none_left : later none x = none := by cases x <;> rfl

@[simp] theorem later_none_right : later x none = none := by cases x <;> rfl

theorem later_eq_right (h : y.all (t ≤ ·) = true) : later (some t) y = y := by
  cases y with
  | none => rfl
  | some u => simp at h; simp [h]

theorem later_absorb (h : t ≤ u) : later (some u) (later (some t) x) = later (some u) x := by
  cases x with
  | none => rfl
  | some v => simp; omega

end

/-- The end is never read before what is next. -/
theorem nextTime_le_closing {s : Source} {t : Nat} (h : s.nextTime.all (t ≤ ·) = true) :
    s.closing.all (t ≤ ·) = true := by
  unfold nextTime at h
  unfold closing
  cases has : s.arrivals with
  | nil => simpa [has, closingAfter] using h
  | cons a as =>
    have ht : t ≤ a.time := by simpa [has] using h
    simp only [closingAfter]
    split
    · simpa using ht
    · cases closingAfter s.ending as with
      | none => rfl
      | some u => simp; omega

/-- A stream whose next time has not come has nothing to read. -/
theorem isReady_eq_false {s : Source} {now : Nat} (h : s.nextTime.all (now < ·) = true) :
    s.isReady now = false := by
  unfold nextTime at h
  unfold isReady
  cases has : s.arrivals with
  | nil =>
    cases he : s.ending with
    | none => rfl
    | some t => simp [has, he] at h; simp; omega
  | cons a as => simp [has] at h; simp; omega

theorem lt_of_nextTime {s : Source} {now t : Nat} (h : s.isReady now = false)
    (ht : s.nextTime = some t) : now < t := by
  unfold nextTime at ht
  unfold isReady at h
  cases has : s.arrivals with
  | nil => simpa [has, show s.ending = some t by simpa [has] using ht] using h
  | cons a as =>
    have : a.time = t := by simpa [has] using ht
    rw [has] at h
    simp only [decide_eq_false_iff_not] at h
    omega

theorem nextTime_mem_moments {s : Source} {t : Nat} (h : s.nextTime = some t) :
    t ∈ s.moments := by
  unfold nextTime at h
  unfold moments
  cases has : s.arrivals with
  | nil => simp_all
  | cons a as => simp_all

/-! ## Reads -/

/-- The ways one read of at most `size` bytes can go: the end, an arrival as a
    whole, or a part of one. -/
inductive Read (now size : Nat) (s : Source) : Payload → Source → Prop where
  | finish (t : Nat) : s.arrivals = [] → s.ending = some t → t ≤ now → Read now size s (.data []) s
  | whole (a : Arrival) (as : List Arrival) : s.arrivals = a :: as → a.time ≤ now →
      a.payload.bytes.length ≤ size → Read now size s a.payload { s with arrivals := as }
  | part (a : Arrival) (as : List Arrival) (bs : Bytes) : s.arrivals = a :: as → a.time ≤ now →
      a.payload = .data bs → 0 < size → size < bs.length →
      Read now size s (.data (bs.take size))
        { s with arrivals := { a with payload := .data (bs.drop size) } :: as }

section
variable {now size : Nat} {s rest : Source} {p : Payload} {d : Option Nat}

/-- **A read goes in one of these ways.** -/
theorem read_of_eq_some (hs : 0 < size) (h : s.read now size = some (p, rest)) :
    Read now size s p rest := by
  unfold read at h
  split at h
  · next hr =>
    cases has : s.arrivals with
    | nil =>
      simp only [has, Option.some.injEq, Prod.mk.injEq] at h
      obtain ⟨rfl, rfl⟩ := h
      simp only [isReady, has, Option.any_eq_true, decide_eq_true_eq] at hr
      obtain ⟨t, ht, hle⟩ := hr
      exact .finish t has ht hle
    | cons a as =>
      have hle : a.time ≤ now := by simpa [isReady, has] using hr
      cases hp : a.payload with
      | failure f =>
        simp only [has, hp, Option.some.injEq, Prod.mk.injEq] at h
        obtain ⟨rfl, rfl⟩ := h
        have hw : Read now size s a.payload { s with arrivals := as } :=
          .whole a as has hle (by simp [hp, Payload.bytes])
        rwa [hp] at hw
      | data bs =>
        simp only [has, hp] at h
        split at h
        · next hd =>
          simp only [Option.some.injEq, Prod.mk.injEq] at h
          obtain ⟨rfl, rfl⟩ := h
          have hw : Read now size s a.payload { s with arrivals := as } := .whole a as has hle
            (by simpa [hp, Payload.bytes, List.drop_eq_nil_iff] using hd)
          rwa [hp] at hw
        · next hd =>
          simp only [Option.some.injEq, Prod.mk.injEq] at h
          obtain ⟨rfl, rfl⟩ := h
          exact .part a as bs has hle hp hs (by simpa [List.drop_eq_nil_iff] using hd)
  · cases h

theorem read_isSome (size : Nat) (h : s.isReady now = true) : (s.read now size).isSome = true := by
  unfold read
  rw [if_pos h]
  split
  · rfl
  · split
    · rfl
    · dsimp only
      split <;> rfl

namespace Read

theorem isReady (h : Read now size s p rest) : s.isReady now = true := by
  cases h with
  | finish t has ht hle => simp [Source.isReady, has, ht, hle]
  | whole a as has hle _ => simp [Source.isReady, has, hle]
  | part a as bs has hle _ _ _ => simp [Source.isReady, has, hle]

theorem length_le (h : Read now size s p rest) : p.bytes.length ≤ size := by
  cases h with
  | finish => exact Nat.zero_le _
  | whole a as _ _ hl => exact hl
  | part a as bs _ _ _ _ hl => exact List.length_take_le _ _

/-- What can be read later could be read before. -/
theorem moments_subset (h : Read now size s p rest) : rest.moments ⊆ s.moments := by
  cases h with
  | finish => exact List.Subset.refl _
  | whole a as has _ _ =>
    intro t ht
    simp only [moments, has, List.map_cons, List.cons_append]
    exact List.mem_cons_of_mem _ ht
  | part a as bs has _ _ _ _ =>
    intro t ht
    rw [moments, has]
    exact ht

/-- A part that is left is no end. -/
theorem ends_drop {bs : Bytes} (hl : size < bs.length) :
    (Payload.data (bs.drop size)).ends = false := by
  have : bs.drop size ≠ [] := by simpa [List.drop_eq_nil_iff] using hl
  simpa [Payload.ends] using this

theorem ends_of_lt {bs : Bytes} (hl : size < bs.length) : (Payload.data bs).ends = false := by
  have : bs ≠ [] := by rintro rfl; simp at hl
  simpa [Payload.ends] using this

/-- **A read that does not end the stream takes the bytes that are heard first.** -/
theorem heard (h : Read now size s p rest) (he : p.ends = false) (hd : isBefore now d = true) :
    Source.heard d (some s) = p.bytes ++ Source.heard d (some rest) := by
  cases h with
  | finish => cases he
  | whole a as has hle _ =>
    rw [Source.heard, met_cons has (isBefore_of_le hd hle), he]
    rfl
  | part a as bs has hle hp _ hl =>
    have hb := isBefore_of_le hd hle
    rw [Source.heard, met_cons has hb, hp, ends_of_lt hl, Source.heard,
      met_put (a := { a with payload := .data (bs.drop size) }) hb, ends_drop hl]
    simp [Payload.bytes, ← List.append_assoc]

/-- A read that does not end the stream leaves the failure that will. -/
theorem failure? (h : Read now size s p rest) (he : p.ends = false)
    (hd : isBefore now d = true) : Source.failure? d (some s) = Source.failure? d (some rest) := by
  cases h with
  | finish => cases he
  | whole a as has hle _ =>
    rw [Source.failure?, met_cons has (isBefore_of_le hd hle), he]
    simp [Payload.fault?_of_not_ends he, Source.failure?]
  | part a as bs has hle hp _ hl =>
    have hb := isBefore_of_le hd hle
    rw [Source.failure?, met_cons has hb, hp, ends_of_lt hl, Source.failure?,
      met_put (a := { a with payload := .data (bs.drop size) }) hb, ends_drop hl]
    rfl

/-- A read that ends the stream leaves nothing to hear, and is the failure if
    there is one. -/
theorem met_of_ends (h : Read now size s p rest) (he : p.ends = true)
    (hd : isBefore now d = true) :
    Source.heard d (some s) = [] ∧ Source.failure? d (some s) = p.fault? := by
  cases h with
  | finish t has _ _ => simp [Source.heard, Source.failure?, met, has, meet, Payload.fault?]
  | whole a as has hle _ =>
    rw [Source.heard, Source.failure?, met_cons has (isBefore_of_le hd hle), he]
    simp [Payload.bytes_of_ends he]
  | part a as bs _ _ _ hs hl =>
    have hlen : (bs.take size).length = size := List.length_take_of_le (by omega)
    rw [Payload.ends, List.isEmpty_iff] at he
    rw [he] at hlen
    simp at hlen
    omega

/-- The end of what is left lies where it lay. -/
theorem closing (h : Read now size s p rest) (he : p.ends = false) :
    later (some now) s.closing = later (some now) rest.closing := by
  cases h with
  | finish => cases he
  | whole a as has hle _ =>
    rw [Source.closing, has, closingAfter, he]
    exact later_absorb hle
  | part a as bs has hle hp _ hl =>
    rw [Source.closing, has, closingAfter, hp, ends_of_lt hl, Source.closing]
    simp only [closingAfter, ends_drop hl]
    rfl

/-- Who reads the end reads it when it is there. -/
theorem closing_of_ends (h : Read now size s p rest) (he : p.ends = true) :
    s.closing.any (· ≤ now) = true := by
  cases h with
  | finish t has ht hle => simpa [Source.closing, has, closingAfter, ht] using hle
  | whole a as has hle _ => simpa [Source.closing, has, closingAfter, he] using hle
  | part a as bs _ _ _ hs hl =>
    have hlen : (bs.take size).length = size := List.length_take_of_le (by omega)
    rw [Payload.ends, List.isEmpty_iff] at he
    rw [he] at hlen
    simp at hlen
    omega

end Read

end

end Source

end Supervisor
