/-
  What a byte string stands for, whether it is well-formed or not.

  * `Begins bs`: the bytes are the beginning of a character; `IllFormed bad rest`: no
    character begins where `bad` does, and `bad` is the longest part there that is one byte
    or the beginning of a character (a maximal ill-formed subpart);
  * `Lossy bs cs`: the characters stand for the bytes, one for each character that is
    written there and one U+FFFD for each maximal ill-formed subpart;
  * `ofString_eq`: a string is written as its UTF-8 bytes; `decode?_encode`: what was encoded
    is decoded;
  * `lossy_iff`: every byte string stands for exactly one text, and `decodeLossy` gives it;
  * `Pending.Opens p bs`: the reader is in a sequence that began with these bytes; this is
    what each byte keeps, and what relates the ranges of the reader to the characters;
  * `Lossy.append_newline`: a newline cuts a text into two that do not know of each other.
-/
import Mathlib.Algebra.Group.Nat.Defs
import Mathlib.Tactic.Common
import Supervisor.Text.Utf8

namespace Supervisor

namespace Utf8

theorem toNat_ofNat {n : Nat} (h : n.isValidChar) : (Char.ofNat n).toNat = n := by
  rw [Char.ofNat, dif_pos h]
  rfl

theorem isValidChar_iff {n : Nat} : n.isValidChar ↔ n < 0xD800 ∨ 0xDFFF < n ∧ n < 0x110000 :=
  Iff.rfl

theorem isValidChar_toNat (c : Char) : c.toNat.isValidChar := c.valid

theorem toNat_toUInt8 {n : Nat} (h : n < 256) : n.toUInt8.toNat = n :=
  UInt8.toNat_ofNat_of_lt' h

/-! ## How characters are written -/

/-- The last `k` bytes of a long character, which hold six bits each. -/
def tailBytes : Nat → Nat → Bytes
  | 0, _ => []
  | k + 1, n => (0x80 + n / 64 ^ k % 64).toUInt8 :: tailBytes k n

/-- What marks the first byte of a character that has `k` more. -/
def mark : Nat → Nat
  | 0 => 0
  | 1 => 0xC0
  | 2 => 0xE0
  | _ => 0xF0

/-- The characters that take `k` bytes more than one. -/
def Takes (n : Nat) : Nat → Prop
  | 0 => n < 0x80
  | 1 => 0x80 ≤ n ∧ n < 0x800
  | 2 => 0x800 ≤ n ∧ n < 0x10000
  | _ => 0x10000 ≤ n ∧ n < 0x110000

theorem encodeChar_eq {c : Char} {k : Nat} (hk : k ≤ 3) (h : Takes c.toNat k) :
    encodeChar c = (mark k + c.toNat / 64 ^ k).toUInt8 :: tailBytes k c.toNat := by
  match k, hk with
  | 0, _ =>
    rw [encodeChar, if_pos (show c.toNat < 0x80 from h)]
    simp [tailBytes, mark]
  | 1, _ =>
    rw [encodeChar, if_neg (Nat.not_lt.2 h.1), if_pos h.2]
    simp [tailBytes, mark]
  | 2, _ =>
    have := h.1
    rw [encodeChar, if_neg (by omega), if_neg (by omega), if_pos h.2]
    simp [tailBytes, mark]
  | 3, _ =>
    have := h.1
    rw [encodeChar, if_neg (by omega), if_neg (by omega), if_neg (by omega)]
    simp [tailBytes, mark]

theorem exists_takes (c : Char) : ∃ k ≤ 3, Takes c.toNat k := by
  have := isValidChar_iff.1 (isValidChar_toNat c)
  by_cases h1 : c.toNat < 0x80
  · exact ⟨0, by decide, h1⟩
  by_cases h2 : c.toNat < 0x800
  · exact ⟨1, by decide, by omega, h2⟩
  by_cases h3 : c.toNat < 0x10000
  · exact ⟨2, by decide, by omega, h3⟩
  · exact ⟨3, by decide, by omega, by omega⟩

/-- A character is written as UTF-8 has it. -/
theorem encodeChar_eq_utf8EncodeChar (c : Char) : encodeChar c = String.utf8EncodeChar c := by
  have hv := isValidChar_iff.1 (isValidChar_toNat c)
  rw [encodeChar, String.utf8EncodeChar, show c.val.toNat = c.toNat from rfl]
  by_cases h1 : c.toNat < 0x80
  · rw [if_pos h1, if_pos (by omega)]
  by_cases h2 : c.toNat < 0x800
  · rw [if_neg h1, if_pos h2, if_neg (by omega), if_pos (by omega),
      Nat.mod_eq_of_lt (show c.toNat / 64 < 32 by omega)]
    simp only [Nat.add_comm]
  by_cases h3 : c.toNat < 0x10000
  · rw [if_neg h1, if_neg h2, if_pos h3, if_neg (by omega), if_neg (by omega), if_pos (by omega),
      Nat.mod_eq_of_lt (show c.toNat / 4096 < 16 by omega)]
    simp only [Nat.add_comm]
  · rw [if_neg h1, if_neg h2, if_neg h3, if_neg (by omega), if_neg (by omega), if_neg (by omega),
      Nat.mod_eq_of_lt (show c.toNat / 262144 < 8 by omega)]
    simp only [Nat.add_comm]

/-- **A string is written as its UTF-8 bytes.** -/
theorem ofString_eq (s : String) : ofString s = s.toUTF8.data.toList := by
  rw [String.toUTF8_eq_toByteArray, ← String.utf8Encode_toList, List.utf8Encode,
    List.toList_data_toByteArray, ofString, encode, funext encodeChar_eq_utf8EncodeChar]

/-! ## How the reader goes on -/

/-- What the reader makes of several bytes. -/
def run (q : Option Pending) : Bytes → List (Option Char) × Option Pending
  | [] => ([], q)
  | b :: bs => ((step q b).1 ++ (run (step q b).2 bs).1, (run (step q b).2 bs).2)

theorem run_append (q : Option Pending) (as bs : Bytes) : run q (as ++ bs) =
    ((run q as).1 ++ (run (run q as).2 bs).1, (run (run q as).2 bs).2) := by
  induction as generalizing q with
  | nil => rfl
  | cons a as ih => simp [run, ih]

theorem foldl_feed (r : Reader) (bs : Bytes) : bs.foldl Reader.feed r =
    ⟨(run r.pending bs).2, (run r.pending bs).1.reverse ++ r.behind⟩ := by
  induction bs generalizing r with
  | nil => rfl
  | cons b bs ih => simp [ih, run, Reader.feed]

theorem step_last {p : Pending} {b : UInt8} (h : p.low ≤ b ∧ b ≤ p.high) (hp : p.missing ≤ 1) :
    step (some p) b = ([some (Char.ofNat (p.bits * 64 + (b.toNat - 0x80)))], none) := by
  simp only [step, if_pos h, if_pos hp]

theorem step_more {p : Pending} {b : UInt8} (h : p.low ≤ b ∧ b ≤ p.high) (hp : ¬ p.missing ≤ 1) :
    step (some p) b =
      ([], some ⟨p.missing - 1, 0x80, 0xBF, p.bits * 64 + (b.toNat - 0x80)⟩) := by
  simp only [step, if_pos h, if_neg hp]

theorem step_of_not_mem {p : Pending} {b : UInt8} (h : ¬ (p.low ≤ b ∧ b ≤ p.high)) :
    step (some p) b = (none :: (start b).1, (start b).2) := by
  simp only [step, if_neg h]

/-- The next of the last bytes of a character. -/
theorem step_tailByte {k n : Nat} {low high : UInt8}
    (hlow : low.toNat ≤ 0x80 + n / 64 ^ k % 64) (hhigh : 0x80 + n / 64 ^ k % 64 ≤ high.toNat) :
    step (some ⟨k + 1, low, high, n / 64 ^ (k + 1)⟩) (0x80 + n / 64 ^ k % 64).toUInt8 =
      if k = 0 then ([some (Char.ofNat n)], none)
      else ([], some ⟨k, 0x80, 0xBF, n / 64 ^ k⟩) := by
  have hb : (0x80 + n / 64 ^ k % 64).toUInt8.toNat = 0x80 + n / 64 ^ k % 64 := by
    have := Nat.mod_lt (n / 64 ^ k) (show 64 > 0 by decide)
    exact toNat_toUInt8 (by omega)
  have hmem : low ≤ (0x80 + n / 64 ^ k % 64).toUInt8 ∧ (0x80 + n / 64 ^ k % 64).toUInt8 ≤ high := by
    rw [UInt8.le_iff_toNat_le, UInt8.le_iff_toNat_le, hb]
    exact ⟨hlow, hhigh⟩
  have hn : n / 64 ^ (k + 1) * 64 + (0x80 + n / 64 ^ k % 64 - 0x80) = n / 64 ^ k := by
    rw [Nat.pow_succ, ← Nat.div_div_eq_div_mul]
    omega
  simp only [step, if_pos hmem, hb, hn]
  cases k with
  | zero => simp
  | succ k => simp

/-- The last bytes of a character complete it. -/
theorem run_tailBytes {k n : Nat} {low high : UInt8}
    (hlow : low.toNat ≤ 0x80 + n / 64 ^ k % 64) (hhigh : 0x80 + n / 64 ^ k % 64 ≤ high.toNat) :
    run (some ⟨k + 1, low, high, n / 64 ^ (k + 1)⟩) (tailBytes (k + 1) n) =
      ([some (Char.ofNat n)], none) := by
  induction k generalizing low high with
  | zero => rw [tailBytes, run, step_tailByte hlow hhigh, if_pos rfl]; rfl
  | succ k ih =>
    have hlt := Nat.mod_lt (n / 64 ^ k) (show 64 > 0 by decide)
    have hrest := @ih 0x80 0xBF (Nat.le_add_right _ _) (by simp only [UInt8.reduceToNat]; omega)
    rw [tailBytes, run, step_tailByte hlow hhigh, if_neg (Nat.succ_ne_zero k), hrest]
    rfl

theorem toNat_lead {n k : Nat} (hk : k ≤ 3) (h : Takes n k) :
    (mark k + n / 64 ^ k).toUInt8.toNat = mark k + n / 64 ^ k := by
  apply toNat_toUInt8
  match k, hk with
  | 0, _ => have : n < 0x80 := h; simp only [mark, Nat.pow_zero, Nat.div_one]; omega
  | 1, _ => have := h.2; simp only [mark, Nat.pow_one]; omega
  | 2, _ => have := h.2; simp only [mark, Nat.reducePow]; omega
  | 3, _ => have := h.2; simp only [mark, Nat.reducePow]; omega

theorem start_ascii {b : UInt8} (h : b.toNat < 0x80) :
    start b = ([some (Char.ofNat b.toNat)], none) := by
  rw [start, if_pos (UInt8.lt_iff_toNat_lt.2 h)]

theorem start_two {b : UInt8} (h : 0xC2 ≤ b.toNat ∧ b.toNat < 0xE0) :
    start b = ([], some ⟨1, 0x80, 0xBF, b.toNat - 0xC0⟩) := by
  simp only [start, UInt8.lt_iff_toNat_lt, UInt8.reduceToNat]
  rw [if_neg (by omega), if_neg (by omega), if_pos h.2]

theorem start_three {b : UInt8} (h : 0xE0 ≤ b.toNat ∧ b.toNat < 0xF0) :
    start b = ([], some ⟨2, if b.toNat = 0xE0 then 0xA0 else 0x80,
      if b.toNat = 0xED then 0x9F else 0xBF, b.toNat - 0xE0⟩) := by
  simp only [start, UInt8.lt_iff_toNat_lt, ← UInt8.toNat_inj, UInt8.reduceToNat]
  rw [if_neg (by omega), if_neg (by omega), if_neg (by omega)]
  by_cases h0 : b.toNat = 0xE0
  · simp [h0]
  · by_cases hD : b.toNat = 0xED
    · simp [hD]
    · simp [h0, hD, h.2]

theorem start_four {b : UInt8} (h : 0xF0 ≤ b.toNat ∧ b.toNat < 0xF5) :
    start b = ([], some ⟨3, if b.toNat = 0xF0 then 0x90 else 0x80,
      if b.toNat = 0xF4 then 0x8F else 0xBF, b.toNat - 0xF0⟩) := by
  simp only [start, UInt8.lt_iff_toNat_lt, ← UInt8.toNat_inj, UInt8.reduceToNat]
  rw [if_neg (by omega), if_neg (by omega), if_neg (by omega), if_neg (by omega),
    if_neg (by omega), if_neg (by omega)]
  by_cases h0 : b.toNat = 0xF0
  · simp [h0]
  · by_cases h4 : b.toNat = 0xF4
    · simp [h4]
    · rw [if_neg h0, if_pos (by omega), if_neg h0, if_neg h4]

theorem start_other {b : UInt8} (h : 0x80 ≤ b.toNat) (hC : b.toNat < 0xC2 ∨ 0xF5 ≤ b.toNat) :
    start b = ([none], none) := by
  simp only [start, UInt8.lt_iff_toNat_lt, ← UInt8.toNat_inj, UInt8.reduceToNat]
  rw [if_neg (by omega)]
  by_cases hlt : b.toNat < 0xC2
  · rw [if_pos hlt]
  · rw [if_neg hlt, if_neg (by omega), if_neg (by omega), if_neg (by omega), if_neg (by omega),
      if_neg (by omega), if_neg (by omega), if_neg (by omega)]

/-- The first byte of a long character opens it. -/
theorem start_lead {n k : Nat} (hv : n.isValidChar) (hk : k + 1 ≤ 3) (h : Takes n (k + 1)) :
    ∃ low high : UInt8, start (mark (k + 1) + n / 64 ^ (k + 1)).toUInt8 =
      ([], some ⟨k + 1, low, high, n / 64 ^ (k + 1)⟩) ∧
      low.toNat ≤ 0x80 + n / 64 ^ k % 64 ∧ 0x80 + n / 64 ^ k % 64 ≤ high.toNat := by
  have hb := toNat_lead hk h
  have hv := isValidChar_iff.1 hv
  match k, hk with
  | 0, _ =>
    have hlo := h.1
    have hhi := h.2
    simp only [mark, Nat.reduceAdd, Nat.reducePow] at hb ⊢
    refine ⟨_, _, by rw [start_two (by omega), hb, Nat.add_sub_cancel_left], ?_, ?_⟩
    · simp only [UInt8.reduceToNat]; omega
    · simp only [UInt8.reduceToNat]; omega
  | 1, _ =>
    have hlo := h.1
    have hhi := h.2
    simp only [mark, Nat.reduceAdd, Nat.reducePow] at hb ⊢
    refine ⟨_, _, by rw [start_three (by omega), hb, Nat.add_sub_cancel_left], ?_, ?_⟩
    · split <;> simp only [UInt8.reduceToNat] <;> omega
    · split <;> simp only [UInt8.reduceToNat] <;> omega
  | 2, _ =>
    have hlo := h.1
    have hhi := h.2
    simp only [mark, Nat.reduceAdd, Nat.reducePow] at hb ⊢
    refine ⟨_, _, by rw [start_four (by omega), hb, Nat.add_sub_cancel_left], ?_, ?_⟩
    · split <;> simp only [UInt8.reduceToNat] <;> omega
    · split <;> simp only [UInt8.reduceToNat] <;> omega

/-- **The bytes of a character are read as that character.** -/
theorem run_encodeChar (c : Char) : run none (encodeChar c) = ([some c], none) := by
  obtain ⟨k, hk, ht⟩ := exists_takes c
  rw [encodeChar_eq hk ht]
  cases k with
  | zero =>
    have ht' : c.toNat < 0x80 := ht
    have hb : (mark 0 + c.toNat / 64 ^ 0).toUInt8.toNat = c.toNat := by
      rw [toNat_lead hk ht]
      simp [mark]
    have hs : start (mark 0 + c.toNat / 64 ^ 0).toUInt8 = ([some c], none) := by
      rw [start, if_pos (UInt8.lt_iff_toNat_lt.2 (by rw [hb]; exact ht')), hb, Char.ofNat_toNat]
    rw [run, show step none = start from rfl, hs]
    rfl
  | succ k =>
    obtain ⟨low, high, hs, hlow, hhigh⟩ := start_lead (isValidChar_toNat c) hk ht
    rw [run, show step none = start from rfl, hs, run_tailBytes hlow hhigh, Char.ofNat_toNat]
    rfl

theorem run_encode (cs : List Char) : run none (encode cs) = (cs.map some, none) := by
  induction cs with
  | nil => rfl
  | cons c cs ih =>
    rw [encode, List.flatMap_cons, run_append, run_encodeChar]
    exact congrArg (fun r : List (Option Char) × Option Pending => (some c :: r.1, r.2)) ih

/-- **A text that was encoded is decoded.** -/
theorem decode?_encode (cs : List Char) : decode? (encode cs) = some cs := by
  have hpieces : pieces (encode cs) = cs.map some := by
    rw [pieces, foldl_feed, run_encode]
    simp [Reader.finish]
  have hread : ∀ cs : List Char, (cs.map some).mapM id = some cs := by
    intro cs
    induction cs with
    | nil => rfl
    | cons c cs ih => simp [ih]
  rw [decode?, hpieces, hread]

/-! ## Beginnings -/

/-- The bytes are the beginning of a character. -/
def Begins (bs : Bytes) : Prop := ∃ c, bs <+: encodeChar c

theorem Begins.of_prefix {as bs : Bytes} (hb : Begins bs) (h : as <+: bs) : Begins as :=
  hb.imp fun _ hc => h.trans hc

/-- Nothing is ill-formed in the beginning of a character. -/
theorem Begins.none_not_mem {bs : Bytes} (h : Begins bs) : none ∉ (run none bs).1 := by
  obtain ⟨c, t, hc⟩ := h
  have hrun := run_encodeChar c
  rw [← hc, run_append] at hrun
  have hout : (run none bs).1 ++ (run (run none bs).2 t).1 = [some c] := congrArg Prod.fst hrun
  intro hmem
  have : (none : Option Char) ∈ [some c] := hout ▸ List.mem_append_left _ hmem
  simp at this

/-- Bytes that begin with a whole character are read as that character first. -/
theorem run_of_prefix {c : Char} {bs : Bytes} (h : encodeChar c <+: bs) :
    (run none bs).1.head? = some (some c) := by
  obtain ⟨t, rfl⟩ := h
  rw [run_append, run_encodeChar]
  rfl

/-- A sequence that has begun with these bytes: all bytes that complete a number in its
    range make a character of it. -/
structure Pending.Opens (p : Pending) (bs : Bytes) : Prop where
  missing : 1 ≤ p.missing
  range : 0x80 ≤ p.low.toNat ∧ p.low.toNat ≤ p.high.toNat ∧ p.high.toNat ≤ 0xBF
  reads : run none bs = ([], some p)
  completes : ∀ n, n / 64 ^ p.missing = p.bits →
    p.low.toNat ≤ 0x80 + n / 64 ^ (p.missing - 1) % 64 →
    0x80 + n / 64 ^ (p.missing - 1) % 64 ≤ p.high.toNat →
    encodeChar (Char.ofNat n) = bs ++ tailBytes p.missing n ∧ n.isValidChar

/-- A byte opens a sequence if every number that it begins is a character. -/
theorem opens_of_start {b low high : UInt8} {k : Nat} (hk : k + 1 ≤ 3)
    (hs : start b = ([], some ⟨k + 1, low, high, b.toNat - mark (k + 1)⟩))
    (hb : mark (k + 1) ≤ b.toNat)
    (hrange : 0x80 ≤ low.toNat ∧ low.toNat ≤ high.toNat ∧ high.toNat ≤ 0xBF)
    (hn : ∀ n, n / 64 ^ (k + 1) = b.toNat - mark (k + 1) → low.toNat ≤ 0x80 + n / 64 ^ k % 64 →
      0x80 + n / 64 ^ k % 64 ≤ high.toNat → Takes n (k + 1) ∧ n.isValidChar) :
    Pending.Opens ⟨k + 1, low, high, b.toNat - mark (k + 1)⟩ [b] := by
  refine ⟨Nat.le_add_left 1 k, hrange, ?_, fun n hbits hlow hhigh => ?_⟩
  · rw [run, show step none = start from rfl, hs]
    rfl
  · obtain ⟨ht, hv⟩ := hn n hbits hlow hhigh
    rw [encodeChar_eq hk (by rwa [toNat_ofNat hv]), toNat_ofNat hv, hbits,
      Nat.add_sub_cancel' hb, Nat.toUInt8_eq, UInt8.ofNat_toNat]
    exact ⟨rfl, hv⟩

/-- Every byte that is not itself a character or ill-formed opens a sequence. -/
theorem start_cases (b : UInt8) :
    (∃ c, encodeChar c = [b] ∧ start b = ([some c], none)) ∨ start b = ([none], none) ∨
      ∃ p : Pending, start b = ([], some p) ∧ p.Opens [b] := by
  by_cases h80 : b.toNat < 0x80
  · have hv : b.toNat.isValidChar := .inl (by omega)
    refine .inl ⟨Char.ofNat b.toNat, ?_, start_ascii h80⟩
    rw [encodeChar, toNat_ofNat hv, if_pos h80, Nat.toUInt8_eq, UInt8.ofNat_toNat]
  by_cases hC2 : b.toNat < 0xC2
  · exact .inr (.inl (start_other (by omega) (.inl hC2)))
  by_cases hE0 : b.toNat < 0xE0
  · have hs := start_two ⟨by omega, hE0⟩
    refine .inr (.inr ⟨_, hs, opens_of_start (k := 0) (by decide) hs ?_ (by decide) ?_⟩)
    · simp only [mark]; omega
    · intro n hbits _ _
      simp only [mark] at hbits
      exact ⟨⟨by omega, by omega⟩, .inl (by omega)⟩
  by_cases hF0 : b.toNat < 0xF0
  · have hs := start_three ⟨by omega, hF0⟩
    refine .inr (.inr ⟨_, hs, opens_of_start (k := 1) (by decide) hs ?_ ?_ ?_⟩)
    · simp only [mark]; omega
    · split <;> split <;> simp only [UInt8.reduceToNat] <;> omega
    · intro n hbits hlow hhigh
      simp only [mark, Nat.reduceAdd, Nat.reducePow] at hbits hlow hhigh
      have hlow' : b.toNat = 0xE0 → 0xA0 ≤ 0x80 + n / 64 % 64 := fun h => by
        rwa [if_pos h] at hlow
      have hhigh' : b.toNat = 0xED → 0x80 + n / 64 % 64 ≤ 0x9F := fun h => by
        rwa [if_pos h] at hhigh
      exact ⟨⟨by omega, by omega⟩, isValidChar_iff.2 (by omega)⟩
  by_cases hF5 : b.toNat < 0xF5
  · have hs := start_four ⟨by omega, hF5⟩
    refine .inr (.inr ⟨_, hs, opens_of_start (k := 2) (by decide) hs ?_ ?_ ?_⟩)
    · simp only [mark]; omega
    · split <;> split <;> simp only [UInt8.reduceToNat] <;> omega
    · intro n hbits hlow hhigh
      simp only [mark, Nat.reduceAdd, Nat.reducePow] at hbits hlow hhigh
      have hlow' : b.toNat = 0xF0 → 0x90 ≤ 0x80 + n / 4096 % 64 := fun h => by
        rwa [if_pos h] at hlow
      have hhigh' : b.toNat = 0xF4 → 0x80 + n / 4096 % 64 ≤ 0x8F := fun h => by
        rwa [if_pos h] at hhigh
      exact ⟨⟨by omega, by omega⟩, isValidChar_iff.2 (by omega)⟩
  · exact .inr (.inl (start_other (by omega) (.inr (by omega))))

namespace Pending.Opens

variable {p : Pending} {bs : Bytes} (h : p.Opens bs)
include h

/-- A byte in the range is the next one of every character with these bits. -/
theorem completes_of_mem {b : UInt8} (hb : p.low ≤ b ∧ b ≤ p.high) {n : Nat}
    (hn : n / 64 ^ (p.missing - 1) = p.bits * 64 + (b.toNat - 0x80)) :
    encodeChar (Char.ofNat n) = bs ++ b :: tailBytes (p.missing - 1) n ∧ n.isValidChar := by
  obtain ⟨hlo, -, hhi⟩ := h.range
  obtain ⟨hlow, hhigh⟩ := And.imp UInt8.le_iff_toNat_le.1 UInt8.le_iff_toNat_le.1 hb
  obtain ⟨k, hk⟩ : ∃ k, p.missing = k + 1 := ⟨p.missing - 1, by have := h.missing; omega⟩
  have hdiv : n / 64 ^ (k + 1) = n / 64 ^ k / 64 := by rw [Nat.pow_succ, Nat.div_div_eq_div_mul]
  have hall := h.completes n
  rw [hk, Nat.add_sub_cancel] at hn hall ⊢
  have hdigit : 0x80 + n / 64 ^ k % 64 = b.toNat := by omega
  rw [tailBytes, hdigit, Nat.toUInt8_eq, UInt8.ofNat_toNat] at hall
  exact hall (by omega) hlow hhigh

/-- The byte that ends a sequence makes it a character. -/
theorem encodeChar_of_last {b : UInt8} (hb : p.low ≤ b ∧ b ≤ p.high) (hlast : p.missing ≤ 1) :
    encodeChar (Char.ofNat (p.bits * 64 + (b.toNat - 0x80))) = bs ++ [b] := by
  have hone : p.missing - 1 = 0 := by omega
  have := (h.completes_of_mem hb (n := p.bits * 64 + (b.toNat - 0x80)) (by simp [hone])).1
  rwa [hone] at this

/-- Any other byte in the range goes on with it. -/
theorem next {b : UInt8} (hb : p.low ≤ b ∧ b ≤ p.high) (hmore : ¬ p.missing ≤ 1) :
    Pending.Opens ⟨p.missing - 1, 0x80, 0xBF, p.bits * 64 + (b.toNat - 0x80)⟩ (bs ++ [b]) := by
  refine ⟨?_, ?_, ?_, fun n hbits _ _ => ?_⟩
  · show 1 ≤ p.missing - 1
    omega
  · simp only [UInt8.reduceToNat]
    decide
  · simp only [run_append, h.reads, run, step_more hb hmore, List.append_nil]
  · rw [List.append_assoc]
    exact h.completes_of_mem hb hbits

theorem begins : Begins bs := by
  have hmem : p.low ≤ p.low ∧ p.low ≤ p.high :=
    ⟨UInt8.le_refl _, UInt8.le_iff_toNat_le.2 h.range.2.1⟩
  have hdiv : (p.bits * 64 + (p.low.toNat - 0x80)) * 64 ^ (p.missing - 1) / 64 ^ (p.missing - 1) =
      p.bits * 64 + (p.low.toNat - 0x80) := Nat.mul_div_cancel _ (Nat.pow_pos (by decide))
  exact ⟨_, _, (h.completes_of_mem hmem hdiv).1.symm⟩

/-- It is none of the characters yet. -/
theorem not_encodeChar_prefix (c : Char) : ¬ encodeChar c <+: bs := fun hc => by
  have := run_of_prefix hc
  rw [h.reads] at this
  cases this

/-- No byte outside the range goes on with it. -/
theorem not_begins {b : UInt8} (hb : ¬ (p.low ≤ b ∧ b ≤ p.high)) : ¬ Begins (bs ++ [b]) :=
  fun hbegins => hbegins.none_not_mem (by
    simp only [run_append, h.reads, run, step_of_not_mem hb]
    simp)

end Pending.Opens

/-! ## What a text is read as -/

/-- The bytes can stand for one replacement character: a single byte, or the beginning of
    a character. -/
def Subpart (bs : Bytes) : Prop := bs ≠ [] ∧ (bs.length = 1 ∨ Begins bs)

/-- The text `bad ++ rest` begins with no character, and `bad` is the longest beginning of
    it that one replacement character can stand for. -/
structure IllFormed (bad rest : Bytes) : Prop where
  unreadable : ∀ c, ¬ encodeChar c <+: bad ++ rest
  subpart : Subpart bad
  longest : ∀ p, p <+: bad ++ rest → Subpart p → p.length ≤ bad.length

/-- The characters that stand for bytes of any kind: each character for its bytes, and
    U+FFFD for every maximal ill-formed part. -/
inductive Lossy : Bytes → List Char → Prop
  | nil : Lossy [] []
  | char {c rest cs} : Lossy rest cs → Lossy (encodeChar c ++ rest) (c :: cs)
  | bad {bad rest cs} : IllFormed bad rest → Lossy rest cs →
      Lossy (bad ++ rest) (replacement :: cs)

/-- A prefix of two parts lies in the first, or goes on into the second. -/
theorem prefix_append_cases {p as bs : Bytes} (h : p <+: as ++ bs) :
    p <+: as ∨ ∃ b t, bs = b :: t ∧ as ++ [b] <+: p := by
  obtain hpa | hap := List.prefix_or_prefix_of_prefix h (List.prefix_append as bs)
  · exact .inl hpa
  · obtain ⟨u, rfl⟩ := hap
    cases u with
    | nil => exact .inl (by simp)
    | cons b u =>
      obtain ⟨t, ht⟩ := (List.prefix_append_right_inj as).1 h
      exact .inr ⟨b, u ++ t, ht.symm, u, by simp⟩

/-- A maximal part stays maximal if nothing behind it can belong to it. -/
theorem IllFormed.append {bad rest bs : Bytes} (h : IllFormed bad rest)
    (hstop : ∀ b t, bs = b :: t → ¬ Begins (bad ++ rest ++ [b])) : IllFormed bad (rest ++ bs) := by
  refine ⟨fun c hc => ?_, h.subpart, fun p hp hsub => ?_⟩
  · rw [← List.append_assoc] at hc
    obtain hc | ⟨b, t, hbs, hb⟩ := prefix_append_cases hc
    · exact h.unreadable c hc
    · exact hstop b t hbs ⟨c, hb⟩
  · rw [← List.append_assoc] at hp
    obtain hp | ⟨b, t, hbs, hb⟩ := prefix_append_cases hp
    · exact h.longest p hp hsub
    · -- longer than one byte, it would have to be the beginning of a character
      obtain ⟨-, hone | hbegins⟩ := hsub
      · have hlen := hb.length_le
        have := List.length_pos_iff.2 h.subpart.1
        simp only [List.length_append, List.length_singleton, hone] at hlen
        omega
      · exact absurd (hbegins.of_prefix hb) (hstop b t hbs)

/-- A part is maximal if the next byte does not belong to it. -/
theorem IllFormed.of_stop {bad rest : Bytes} (hread : ∀ c, ¬ encodeChar c <+: bad)
    (hsub : Subpart bad) (hstop : ∀ b t, rest = b :: t → ¬ Begins (bad ++ [b])) :
    IllFormed bad rest := by
  have hend : IllFormed bad [] := by
    refine ⟨fun c => ?_, hsub, fun p hp _ => ?_⟩
    · rw [List.append_nil]
      exact hread c
    · rw [List.append_nil] at hp
      exact hp.length_le
  exact hend.append (by rwa [List.append_nil])

/-- A byte that begins no character is ill-formed by itself. -/
theorem illFormed_single {b : UInt8} (hs : start b = ([none], none)) (rest : Bytes) :
    IllFormed [b] rest := by
  have hrun : run none [b] = ([none], none) := by
    rw [run, show step none = start from rfl, hs]
    rfl
  have hb : ¬ Begins [b] := fun h => h.none_not_mem (by rw [hrun]; exact List.mem_singleton_self _)
  refine .of_stop (fun c hc => ?_) ⟨List.cons_ne_nil _ _, .inl rfl⟩ fun x t _ h => ?_
  · have := run_of_prefix hc
    rw [hrun] at this
    cases this
  · exact hb (h.of_prefix (List.prefix_append _ _))

theorem Pending.Opens.ne_nil {p : Pending} {bs : Bytes} (h : p.Opens bs) : bs ≠ [] := by
  rintro rfl
  cases h.reads

/-- A sequence that does not go on is ill-formed as far as it came. -/
theorem Pending.Opens.illFormed {p : Pending} {bs rest : Bytes} (h : p.Opens bs)
    (hstop : ∀ b t, rest = b :: t → ¬ (p.low ≤ b ∧ b ≤ p.high)) : IllFormed bs rest :=
  .of_stop h.not_encodeChar_prefix ⟨h.ne_nil, .inr h.begins⟩ fun b t hrest =>
    h.not_begins (hstop b t hrest)

/-! ## The reader finds it -/

/-- The text that a reader makes of several bytes and the end behind them. -/
def text (q : Option Pending) (bs : Bytes) : List Char :=
  let cut : List (Option Char) := if (run q bs).2.isSome then [none] else []
  ((run q bs).1 ++ cut).map (·.getD replacement)

theorem decodeLossy_eq (bs : Bytes) : decodeLossy bs = text none bs := by
  rw [decodeLossy, pieces, foldl_feed, Reader.finish, text]
  cases (run none bs).2 <;> simp

theorem text_of_step {q next : Option Pending} {b : UInt8} {out : List (Option Char)}
    (h : step q b = (out, next)) (bs : Bytes) :
    text q (b :: bs) = out.map (·.getD replacement) ++ text next bs := by
  simp only [text, run, h, List.map_append, List.append_assoc]

/-- A byte that is read from the start. -/
theorem lossy_start {b : UInt8} {bs : Bytes} (hnone : Lossy bs (text none bs))
    (hopen : ∀ p : Pending, p.Opens [b] → Lossy ([b] ++ bs) (text (some p) bs)) :
    Lossy (b :: bs) (text none (b :: bs)) := by
  obtain ⟨c, hc, hs⟩ | hs | ⟨p, hs, hp⟩ := start_cases b
  · rw [text_of_step (q := none) hs, ← List.singleton_append, ← hc]
    exact .char hnone
  · rw [text_of_step (q := none) hs, ← List.singleton_append]
    exact .bad (illFormed_single hs bs) hnone
  · rw [text_of_step (q := none) hs]
    exact hopen p hp

/-- The reader is right from the start, and in a sequence that has begun: a byte goes on
    with it, completes it, or ends it and is read from the start. -/
theorem lossy_text (bs : Bytes) : Lossy bs (text none bs) ∧
    ∀ (p : Pending) (pre : Bytes), p.Opens pre → Lossy (pre ++ bs) (text (some p) bs) := by
  induction bs with
  | nil => exact ⟨.nil, fun p pre hp => .bad (hp.illFormed (fun _ _ h => nomatch h)) .nil⟩
  | cons b bs ih =>
    obtain ⟨hnone, hsome⟩ := ih
    have hstart := lossy_start hnone fun p => hsome p [b]
    refine ⟨hstart, fun p pre hp => ?_⟩
    by_cases hb : p.low ≤ b ∧ b ≤ p.high
    · rw [List.append_cons]
      by_cases hlast : p.missing ≤ 1
      · rw [text_of_step (step_last hb hlast), List.map_singleton, Option.getD_some,
          List.singleton_append, ← hp.encodeChar_of_last hb hlast]
        exact .char hnone
      · rw [text_of_step (step_more hb hlast)]
        exact hsome _ _ (hp.next hb hlast)
    · have hill : IllFormed pre (b :: bs) :=
        hp.illFormed fun x t hx => by rwa [← (List.cons.inj hx).1]
      have hfresh : step none b = start b := rfl
      have htext : text (some p) (b :: bs) = replacement :: text none (b :: bs) := by
        rw [text_of_step (step_of_not_mem hb), text_of_step hfresh]
        rfl
      rw [htext]
      exact .bad hill hstart

/-- The first character of a text is determined by its bytes. -/
theorem encodeChar_append_inj {c d : Char} {as bs : Bytes}
    (h : encodeChar c ++ as = encodeChar d ++ bs) : c = d ∧ as = bs := by
  have hc := run_of_prefix (List.prefix_append (encodeChar c) as)
  have hd := run_of_prefix (List.prefix_append (encodeChar d) bs)
  rw [h, hd] at hc
  obtain rfl : d = c := Option.some.inj (Option.some.inj hc)
  exact ⟨rfl, List.append_cancel_left h⟩

theorem encodeChar_ne_nil (c : Char) : encodeChar c ≠ [] := by
  obtain ⟨k, hk, ht⟩ := exists_takes c
  rw [encodeChar_eq hk ht]
  exact List.cons_ne_nil _ _

theorem Lossy.nil_inv {cs : List Char} (h : Lossy [] cs) : cs = [] := by
  generalize hbs : ([] : Bytes) = bs at h
  cases h with
  | nil => rfl
  | char _ => exact absurd (List.append_eq_nil_iff.1 hbs.symm).1 (encodeChar_ne_nil _)
  | bad hbad _ => exact absurd (List.append_eq_nil_iff.1 hbs.symm).1 hbad.subpart.1

/-- Where a character stands, it is read, and the rest behind it. -/
theorem Lossy.char_inv {c : Char} {rest : Bytes} {cs : List Char}
    (h : Lossy (encodeChar c ++ rest) cs) : ∃ ds, cs = c :: ds ∧ Lossy rest ds := by
  generalize hbs : encodeChar c ++ rest = bs at h
  cases h with
  | nil => exact absurd (List.append_eq_nil_iff.1 hbs).1 (encodeChar_ne_nil c)
  | char hrest =>
    obtain ⟨rfl, rfl⟩ := encodeChar_append_inj hbs
    exact ⟨_, rfl, hrest⟩
  | bad hbad _ => exact absurd ⟨rest, hbs⟩ (hbad.unreadable c)

/-- Two maximal parts at the same place are the same. -/
theorem IllFormed.append_inj {bad rest bad' rest' : Bytes} (h : IllFormed bad rest)
    (h' : IllFormed bad' rest') (heq : bad ++ rest = bad' ++ rest') :
    bad = bad' ∧ rest = rest' := by
  have hle : bad.length ≤ bad'.length := h'.longest bad ⟨rest, heq⟩ h.subpart
  have hge : bad'.length ≤ bad.length := h.longest bad' ⟨rest', heq.symm⟩ h'.subpart
  exact List.append_inj heq (Nat.le_antisymm hle hge)

/-- Where no character stands, the maximal ill-formed part is replaced. -/
theorem Lossy.bad_inv {bad rest : Bytes} {cs : List Char} (hbad : IllFormed bad rest)
    (h : Lossy (bad ++ rest) cs) : ∃ ds, cs = replacement :: ds ∧ Lossy rest ds := by
  generalize hbs : bad ++ rest = bs at h
  cases h with
  | nil => exact absurd (List.append_eq_nil_iff.1 hbs).1 hbad.subpart.1
  | char _ => exact absurd ⟨_, hbs.symm⟩ (hbad.unreadable _)
  | bad hbad' hrest =>
    obtain ⟨rfl, rfl⟩ := hbad.append_inj hbad' hbs
    exact ⟨_, rfl, hrest⟩

/-- Bytes stand for one text only. -/
theorem Lossy.unique {bs : Bytes} {cs ds : List Char} (hc : Lossy bs cs) (hd : Lossy bs ds) :
    cs = ds := by
  induction hc generalizing ds with
  | nil => exact hd.nil_inv.symm
  | char _ ih =>
    obtain ⟨ds, rfl, hds⟩ := hd.char_inv
    rw [ih hds]
  | bad hbad _ ih =>
    obtain ⟨ds, rfl, hds⟩ := Lossy.bad_inv hbad hd
    rw [ih hds]

/-- **The decoder gives the one text that the bytes stand for.** -/
theorem lossy_iff {bs : Bytes} {cs : List Char} : Lossy bs cs ↔ cs = decodeLossy bs := by
  rw [decodeLossy_eq]
  exact ⟨fun h => h.unique (lossy_text bs).1, fun h => h ▸ (lossy_text bs).1⟩

/-- What was written is read back. -/
theorem lossy_encode (cs : List Char) : Lossy (encode cs) cs := by
  induction cs with
  | nil => exact .nil
  | cons c cs ih => exact .char ih

/-! ## Newlines -/

theorem le_of_mem_tailBytes {k n : Nat} {b : UInt8} (h : b ∈ tailBytes k n) : 0x80 ≤ b.toNat := by
  induction k with
  | zero => cases h
  | succ k ih =>
    obtain rfl | h := List.mem_cons.1 h
    · have := Nat.mod_lt (n / 64 ^ k) (show 64 > 0 by decide)
      rw [toNat_toUInt8 (by omega)]
      omega
    · exact ih h

/-- A byte of a character is the whole of it, or is not ASCII. -/
theorem encodeChar_of_mem {c : Char} {b : UInt8} (h : b ∈ encodeChar c) (hb : b.toNat < 0x80) :
    encodeChar c = [b] := by
  obtain ⟨k, hk, ht⟩ := exists_takes c
  rw [encodeChar_eq hk ht] at h ⊢
  obtain rfl | htail := List.mem_cons.1 h
  · rw [toNat_lead hk ht] at hb
    match k, hk with
    | 0, _ => rfl
    | 1, _ | 2, _ | 3, _ => simp only [mark] at hb; omega
  · have := le_of_mem_tailBytes htail
    omega

/-- A newline never goes on with a character. -/
theorem not_begins_newline {bs : Bytes} (h : bs ≠ []) : ¬ Begins (bs ++ [10]) := by
  rintro ⟨c, hc⟩
  have hmem : 10 ∈ encodeChar c := hc.subset (List.mem_append_right _ (List.mem_singleton_self _))
  have hlen := hc.length_le
  have := List.length_pos_iff.2 h
  rw [encodeChar_of_mem hmem (by decide), List.length_append] at hlen
  simp only [List.length_singleton] at hlen
  omega

/-- What comes behind a newline does not change what is ill-formed before it. -/
theorem IllFormed.append_newline {bad rest : Bytes} (h : IllFormed bad rest) (bs : Bytes) :
    IllFormed bad (rest ++ 10 :: bs) := by
  have hne : bad ++ rest ≠ [] := fun hnil => h.subpart.1 (List.append_eq_nil_iff.1 hnil).1
  refine h.append fun b t hb => ?_
  obtain ⟨rfl, -⟩ := List.cons.inj hb
  exact not_begins_newline hne

/-- **A text is read up to a newline as if nothing came behind, and behind it as if nothing
    had come before.** -/
theorem Lossy.append_newline {as bs : Bytes} {cs ds : List Char} (hc : Lossy as cs)
    (hd : Lossy bs ds) : Lossy (as ++ 10 :: bs) (cs ++ '\n' :: ds) := by
  induction hc with
  | nil => exact .char (c := '\n') hd
  | char _ ih =>
    rw [List.append_assoc]
    exact .char ih
  | bad hbad _ ih =>
    rw [List.append_assoc]
    exact .bad (hbad.append_newline bs) ih

theorem Lossy.eq_nil {bs : Bytes} (h : Lossy bs []) : bs = [] := by
  cases h
  rfl

/-- The last item of a list is that of its tail, if it has one. -/
theorem getLast?_cons_cases {α : Type} {a b : α} {l : List α} (h : (a :: l).getLast? = some b) :
    l.getLast? = some b ∨ (l = [] ∧ a = b) := by
  rw [List.getLast?_cons] at h
  cases hl : l.getLast? with
  | some c =>
    rw [hl] at h
    exact .inl h
  | none => exact .inr ⟨List.getLast?_eq_none_iff.1 hl, by simpa [hl] using h⟩

/-- A text ends in an ASCII character only where its bytes do. -/
theorem Lossy.getLast?_of_ascii {bs : Bytes} {cs : List Char} {c : Char} (h : Lossy bs cs)
    (hlast : cs.getLast? = some c) (hc : c.toNat < 0x80) : bs.getLast? = some c.toNat.toUInt8 := by
  induction h with
  | nil => cases hlast
  | @char d rest cs hrest ih =>
    obtain hcs | ⟨rfl, rfl⟩ := getLast?_cons_cases hlast
    · rw [List.getLast?_append, ih hcs, Option.some_or]
    · rw [hrest.eq_nil, encodeChar, if_pos hc]
      rfl
  | @bad bad rest cs _ hrest ih =>
    obtain hcs | ⟨rfl, rfl⟩ := getLast?_cons_cases hlast
    · rw [List.getLast?_append, ih hcs, Option.some_or]
    · exact absurd hc (by decide)

end Utf8

end Supervisor
