/-
  What is written as a settings file is read back.

  * `Toml.read?_of_digits`: digits without a needless zero before them are read as the number
    that they write;
  * `Toml.Mode.run`: what the scanner makes of several characters.  From the start of a line
    to the start of the next one it finds the tokens of that line (`run_line`), whatever was
    before and comes behind;
  * `scan_render`, `ofTokens?_render`, `parse_render`: the tokens, the statements and the
    entries of the text that `Settings.render` writes;
  * `loadValid_render`: what is loaded from it.
-/
import Supervisor.Proofs.Decoding
import Supervisor.Proofs.Limits

namespace Supervisor

namespace Toml

/-! ## Digits -/

section
variable {c : Char} {cs : List Char}

theorem digitBelow_of_isDigit (h : c.isDigit = true) :
    digitBelow 10 c = some (c.toNat - '0'.toNat) := by
  have hv : hexValue? c = some (c.toNat - '0'.toNat) := if_pos h
  have hlt : c.toNat - '0'.toNat < 10 := by
    have h0 : '0'.toNat = 48 := rfl
    have h9 : '9'.toNat = 57 := rfl
    have := Char.isDigit_iff_toNat.1 h
    omega
  rw [digitBelow, hv, Option.filter_some, if_pos (decide_eq_true hlt)]

theorem ne_of_isDigit {d : Char} (h : c.isDigit = true) (hd : d.isDigit = false) : c ≠ d := by
  rintro rfl
  rw [hd] at h
  cases h

/-- The digits of a word that consists of digits. -/
theorem digits?_of_isDigit (h : ∀ c ∈ cs, c.isDigit = true) (hne : cs ≠ []) :
    digits? 10 cs = some (cs.map fun c => c.toNat - '0'.toNat) := by
  have hfilter : cs.filter (· ≠ '_') = cs :=
    List.filter_eq_self.2 fun c hc => decide_eq_true (ne_of_isDigit (h c hc) rfl)
  have hmap : cs.mapM (digitBelow 10) = some (cs.map fun c => c.toNat - '0'.toNat) := by
    clear hne hfilter
    induction cs with
    | nil => rfl
    | cons c cs ih =>
      rw [List.mapM_cons, digitBelow_of_isDigit (h c List.mem_cons_self),
        ih fun d hd => h d (List.mem_cons_of_mem _ hd)]
      rfl
  rw [digits?, hfilter, hmap]
  cases cs with
  | nil => exact absurd rfl hne
  | cons c cs => rfl

theorem digitsValue_map (cs : List Char) :
    digitsValue 10 (cs.map fun c => c.toNat - '0'.toNat) = Nat.ofDigitChars 10 cs 0 := by
  rw [digitsValue, List.foldl_map, Nat.ofDigitChars]
  simp only [Nat.mul_comm 10]

theorem splitSign_of_isDigit (h : c.isDigit = true) :
    splitSign (c :: cs) = (false, false, c :: cs) := by
  unfold splitSign
  split
  · next heq => exact absurd (List.cons.inj heq).1 (ne_of_isDigit h rfl)
  · next heq => exact absurd (List.cons.inj heq).1 (ne_of_isDigit h rfl)
  · rfl

/-- **Digits are read as the number that they write**, if the first is not zero. -/
theorem read?_of_digits (h : ∀ c ∈ cs, c.isDigit = true) (hne : cs ≠ [])
    (hz : cs.head? ≠ some '0') : Bare.read? cs = some (.integer (Nat.ofDigitChars 10 cs 0)) := by
  have hvalue : integerOf 10 false cs = .integer (Nat.ofDigitChars 10 cs 0) := by
    rw [integerOf, digits?_of_isDigit h hne]
    simp only [digitsValue_map, Bool.false_eq_true, if_false]
  have hnumber : number? cs false cs = some (.integer (Nat.ofDigitChars 10 cs 0)) := by
    have hdrop : cs.dropWhile Char.isDigit = [] := List.dropWhile_eq_nil_iff.2 h
    rw [number?, hdrop]
    simp [hz, hvalue]
  cases cs with
  | nil => exact absurd rfl hne
  | cons c cs =>
    have hc : c.isDigit = true := h c List.mem_cons_self
    have hne : ∀ d, d.isDigit = false → c ≠ d := fun d => ne_of_isDigit hc
    have h0 : c ≠ '0' := fun h0 => hz (by rw [h0]; rfl)
    unfold Bare.read?
    rw [if_neg (by simp [hne 't' rfl]), if_neg (by simp [hne 'f' rfl]), splitSign_of_isDigit hc]
    split
    · next heq => simp [hne 'i' rfl] at heq
    · next heq => simp [hne 'n' rfl] at heq
    · next signed negative ds _ _ heq =>
      obtain ⟨rfl, rfl, rfl⟩ : signed = false ∧ negative = false ∧ ds = c :: cs := by
        simpa using heq.symm
      split
      · next heq => simp [h0] at heq
      · next heq =>
        obtain ⟨rfl, rfl⟩ := List.cons.inj heq
        simpa [hc] using hnumber
      · next heq => cases heq

/-- The digits of a number that is not zero do not begin with a zero. -/
theorem head?_toDigits {n : Nat} (hn : 0 < n) : (Nat.toDigits 10 n).head? ≠ some '0' := by
  induction n using Nat.strongRecOn with
  | _ n ih =>
    rw [Nat.toDigits_eq_if (by decide)]
    split
    · next hlt =>
      interval_cases n <;> decide
    · next hge =>
      rw [List.head?_append_of_ne_nil _ Nat.toDigits_ne_nil]
      exact ih (n / 10) (by omega) (by omega)

/-- **A number is read as it was written.** -/
theorem read?_toDigits {n : Nat} (hn : 0 < n) :
    Bare.read? (Nat.toDigits 10 n) = some (.integer n) := by
  rw [read?_of_digits (fun c => Nat.isDigit_of_mem_toDigits (by decide) (by decide))
    Nat.toDigits_ne_nil (head?_toDigits hn), Nat.ofDigitChars_ten_toDigits]

end

/-! ## How the scanner goes on -/

/-- What the scanner makes of several characters. -/
def Mode.run : Mode → List Char → Scan
  | mode, [] => ([], mode)
  | mode, c :: cs =>
    ((scanStep mode c).1 ++ (run (scanStep mode c).2 cs).1, (run (scanStep mode c).2 cs).2)

namespace Mode

variable {as bs cs ds : List Char} {mode mode' : Mode} {ts : List Token}

theorem run_append (h : mode.run as = (ts, mode')) :
    mode.run (as ++ bs) = (ts ++ (mode'.run bs).1, (mode'.run bs).2) := by
  induction as generalizing mode ts with
  | nil =>
    cases h
    rfl
  | cons a as ih =>
    simp only [run, Prod.mk.injEq] at h
    obtain ⟨rfl, hmode⟩ := h
    simp only [List.cons_append, run, ih (Prod.ext rfl hmode), List.append_assoc]

theorem foldl_feed (s : Scanner) (cs : List Char) : cs.foldl Scanner.feed s =
    ⟨(s.mode.run cs).2, (s.mode.run cs).1.reverse ++ s.found⟩ := by
  induction cs generalizing s with
  | nil => rfl
  | cons c cs ih => simp [ih, run, Scanner.feed]

/-- An atom goes on until a character ends it. -/
theorem run_atom (h : ∀ c ∈ cs, endsAtom c = false) :
    (Mode.atom ds).run cs = ([], .atom (cs.reverse ++ ds)) := by
  induction cs generalizing ds with
  | nil => rfl
  | cons c cs ih =>
    have hstep : scanStep (.atom ds) c = ([], .atom (c :: ds)) := by
      simp [scanStep, h c List.mem_cons_self]
    rw [run, hstep, ih fun d hd => h d (List.mem_cons_of_mem _ hd)]
    simp

end Mode

theorem ofMark?_of_isDigit {c : Char} (h : c.isDigit = true) : Token.ofMark? c = none := by
  unfold Token.ofMark?
  split
  all_goals first
    | rfl
    | exact absurd h (by decide)

theorem endsAtom_of_isDigit {c : Char} (h : c.isDigit = true) : endsAtom c = false := by
  have hne : ∀ d, d.isDigit = false → c ≠ d := fun d => ne_of_isDigit h
  simp [endsAtom, ofMark?_of_isDigit h, isSpacing, hne ' ' rfl, hne '\t' rfl, hne '#' rfl,
    hne '\r' rfl]

theorem groundStep_of_isDigit {c : Char} (h : c.isDigit = true) :
    groundStep c = ([], .atom [c]) := by
  have hne : ∀ d, d.isDigit = false → c ≠ d := fun d => ne_of_isDigit h
  simp [groundStep, ofMark?_of_isDigit h, isSpacing, hne ' ' rfl, hne '\t' rfl, hne '#' rfl,
    hne '\r' rfl, hne '"' rfl, hne '\'' rfl]

/-- Behind blanks, digits up to the end of the line are an atom. -/
theorem run_digits {cs : List Char} (h : ∀ c ∈ cs, c.isDigit = true) (hne : cs ≠ []) :
    (Mode.blanks [' ']).run (cs ++ ['\n']) =
      ([.blanks [' '], .atom cs, .newline], .ground) := by
  obtain ⟨c, cs, rfl⟩ := List.exists_cons_of_ne_nil hne
  have hc : c.isDigit = true := h c List.mem_cons_self
  have hcs : ∀ d ∈ cs, endsAtom d = false :=
    fun d hd => endsAtom_of_isDigit (h d (List.mem_cons_of_mem _ hd))
  have hstep : scanStep (.blanks [' ']) c = ([.blanks [' ']], .atom [c]) := by
    have hspace : isSpacing c = false := by
      simp [isSpacing, ne_of_isDigit hc (d := ' ') rfl, ne_of_isDigit hc (d := '\t') rfl]
    simp [scanStep, hspace, endWith, groundStep_of_isDigit hc]
  rw [List.cons_append, Mode.run, hstep, Mode.run_append (Mode.run_atom hcs)]
  simp [Mode.run, scanStep, endsAtom, Token.ofMark?, endWith, groundStep]

/-! ## The text of settings -/

/-- The line that sets a limit. -/
def limitLine (l : Limit) (n : Nat) : List Char :=
  l.key.toList ++ " = ".toList ++ Nat.toDigits 10 n ++ ['\n']

/-- Its tokens. -/
def limitTokens (l : Limit) (n : Nat) : List Token :=
  [.atom l.key.toList, .blanks [' '], .equals, .blanks [' '], .atom (Nat.toDigits 10 n), .newline]

/-- The statement that they make. -/
def limitStatement (l : Limit) (n : Nat) : Statement :=
  .entry [.bare l.key.toList] (.bare (Nat.toDigits 10 n))

/-- The key of the table that holds the limits. -/
def runnerKey : List Char := "runner".toList

/-- The tokens of its header. -/
def runnerTokens : List Token := [.openSquare, .atom runnerKey, .closeSquare, .newline]

/-- **The scanner finds the tokens of a line** between its start and the start of the next. -/
theorem run_line (l : Limit) (n : Nat) :
    Mode.ground.run (limitLine l n) = (limitTokens l n, .ground) := by
  have hkey : Mode.ground.run (l.key.toList ++ " = ".toList) =
      ([.atom l.key.toList, .blanks [' '], .equals], .blanks [' ']) := by
    cases l <;> rfl
  have hall : ∀ c ∈ Nat.toDigits 10 n, c.isDigit = true :=
    fun c => Nat.isDigit_of_mem_toDigits (by decide) (by decide)
  rw [limitLine, List.append_assoc, Mode.run_append hkey, run_digits hall Nat.toDigits_ne_nil]
  rfl

theorem run_lines (limits : List (Limit × Nat)) :
    Mode.ground.run (limits.flatMap fun p => limitLine p.1 p.2) =
      (limits.flatMap fun p => limitTokens p.1 p.2, .ground) := by
  induction limits with
  | nil => rfl
  | cons p limits ih =>
    rw [List.flatMap_cons, Mode.run_append (run_line p.1 p.2), ih]
    rfl

theorem dropMark_eq_self {cs : List Char} (h : cs.head? ≠ some (Char.ofNat 0xFEFF)) :
    dropMark cs = cs := by
  cases cs with
  | nil => rfl
  | cons c cs => exact if_neg fun hc => h (congrArg some hc)

/-- **The tokens of the text of settings.** -/
theorem scan_render (limits : List (Limit × Nat)) : Token.scan (Settings.render limits) =
    runnerTokens ++ limits.flatMap fun p => limitTokens p.1 p.2 := by
  have hheader : Mode.ground.run "[runner]\n".toList = (runnerTokens, .ground) := rfl
  have hfirst : (Settings.render limits).head? = some '[' := rfl
  have hdrop : dropMark (Settings.render limits) = Settings.render limits :=
    dropMark_eq_self (by rw [hfirst]; decide)
  have hrun : Mode.ground.run (Settings.render limits) =
      (runnerTokens ++ limits.flatMap fun p => limitTokens p.1 p.2, .ground) := by
    have hlines : Settings.render limits =
      "[runner]\n".toList ++ limits.flatMap fun p => limitLine p.1 p.2 := rfl
    rw [hlines, Mode.run_append hheader, run_lines]
  rw [Token.scan, hdrop, Mode.foldl_feed, hrun]
  simp [Scanner.finish, lastToken]

theorem feed_limitTokens (l : Limit) (n : Nat) (found : List Statement) :
    (limitTokens l n).foldlM Arranger.feed ⟨.lineStart, found⟩ =
      some ⟨.lineStart, limitStatement l n :: found⟩ := rfl

theorem feed_lines (limits : List (Limit × Nat)) (found : List Statement) :
    (limits.flatMap fun p => limitTokens p.1 p.2).foldlM Arranger.feed ⟨.lineStart, found⟩ =
      some ⟨.lineStart, (limits.map fun p => limitStatement p.1 p.2).reverse ++ found⟩ := by
  induction limits generalizing found with
  | nil => rfl
  | cons p limits ih =>
    rw [List.flatMap_cons, List.foldlM_append, feed_limitTokens]
    exact (ih _).trans (by simp)

/-- **The statements of the text of settings.** -/
theorem ofTokens?_render (limits : List (Limit × Nat)) :
    Statement.ofTokens? (Token.scan (Settings.render limits)) =
      some (.header [.bare runnerKey] false :: limits.map fun p => limitStatement p.1 p.2) := by
  have hheader : runnerTokens.foldlM Arranger.feed {} =
      some ⟨.lineStart, [.header [.bare runnerKey] false]⟩ := rfl
  rw [scan_render, Statement.ofTokens?, List.foldlM_append, hheader]
  simp [feed_lines, Arranger.finish, lastStatement?]

/-! ## The document -/

/-- The entry that a line makes. -/
def limitEntry (l : Limit) (n : Nat) : List Char × Value := (l.key.toList, .integer n)

/-- The entries that several lines make. -/
def limitEntries (limits : List (Limit × Nat)) : List (List Char × Value) :=
  limits.map fun p => limitEntry p.1 p.2

/-- The entry of a line in the table that is open. -/
def limitNode (l : Limit) (n : Nat) : List Char × Node := (l.key.toList, .value (.integer n))

theorem key_injective {l m : Limit} (h : l.key.toList = m.key.toList) : l = m :=
  Option.some.inj ((Limit.ofKey?_eq_some.2 rfl).symm.trans (Limit.ofKey?_eq_some.2 h))

theorem feed_limitStatement {r : Reader} {l : Limit} {n : Nat} (hn : 0 < n)
    (hnew : r.current.lookup l.key.toList = none) :
    r.feed (limitStatement l n) = .ok { r with current := r.current ++ [limitNode l n] } := by
  have hpath : readPath [.bare l.key.toList] = .ok ([], l.key.toList) := by cases l <;> rfl
  have hvalue : (Written.bare (Nat.toDigits 10 n)).read = .ok (.integer n) := by
    rw [Written.read, read?_toDigits hn]
    rfl
  have hinsert : insertEntry [] l.key.toList (.integer n) r.current =
      .ok (r.current ++ [limitNode l n]) := by
    simp [insertEntry, within, hnew, Except.map, limitNode]
  rw [limitStatement, Reader.feed, hpath, hvalue]
  simp [bind, Except.bind, pure, Except.pure, hinsert]

/-- Lines for limits of which none is set yet, and none twice. -/
theorem feed_limitStatements {r : Reader} {limits : List (Limit × Nat)}
    (hd : (limits.map (·.1)).Nodup) (hpos : ∀ p ∈ limits, 0 < p.2)
    (hnew : ∀ p ∈ limits, r.current.lookup p.1.key.toList = none) :
    (limits.map fun p => limitStatement p.1 p.2).foldlM Reader.feed r =
      .ok { r with current := r.current ++ limits.map fun p => limitNode p.1 p.2 } := by
  induction limits generalizing r with
  | nil => simp [pure, Except.pure]
  | cons p limits ih =>
    obtain ⟨hfirst, hd⟩ := List.nodup_cons.1 hd
    rw [List.map_cons, List.foldlM_cons, feed_limitStatement (hpos p List.mem_cons_self)
      (hnew p List.mem_cons_self)]
    refine (ih hd (fun q hq => hpos q (List.mem_cons_of_mem _ hq)) fun q hq => ?_).trans (by simp)
    have hne : (q.1.key.toList == p.1.key.toList) = false := beq_eq_false_iff_ne.2 fun h =>
      hfirst (List.mem_map.2 ⟨q, hq, key_injective h⟩)
    rw [List.lookup_append, hnew q (List.mem_cons_of_mem _ hq), Option.none_or, limitNode,
      List.lookup_cons, hne]
    rfl

/-- **The text of settings is a document** with one table, which has an entry for each
    limit. -/
theorem parse_render {limits : List (Limit × Nat)} (hd : (limits.map (·.1)).Nodup)
    (hpos : ∀ p ∈ limits, 0 < p.2) : Document.parse (Settings.render limits) =
      .ok [(runnerKey, .table (limitEntries limits))] := by
  have hheader : Reader.feed {} (.header [.bare runnerKey] false) =
      .ok ⟨[], some ⟨[], runnerKey, false⟩, []⟩ := rfl
  have hvalues : entryValues (limits.map fun p => limitNode p.1 p.2) = limitEntries limits := by
    rw [entryValues_eq, List.map_map]
    rfl
  rw [Document.parse, ofTokens?_render]
  simp only [List.foldlM_cons, hheader, bind, Except.bind]
  rw [feed_limitStatements hd hpos fun p _ => rfl]
  simp [Reader.closeTable, within, Except.map, pure, Except.pure, entryValues, Node.toValue,
    hvalues]

end Toml

/-! ## Files -/

namespace Settings

open Toml (Value limitEntries)

variable {limits : List (Limit × Nat)}

theorem nodup_limitEntries (hd : (limits.map (·.1)).Nodup) :
    ((limitEntries limits).map (·.1)).Nodup := by
  have hkeys : (limitEntries limits).map (·.1) = (limits.map (·.1)).map fun l => l.key.toList := by
    rw [limitEntries, List.map_map, List.map_map]
    rfl
  rw [hkeys]
  exact hd.map fun _ _ => Toml.key_injective

theorem entry?_limitEntries (l : Limit) (limits : List (Limit × Nat)) :
    l.entry? (limitEntries limits) = (limits.lookup l).map fun n => .integer n := by
  induction limits with
  | nil => rfl
  | cons p limits ih =>
    obtain ⟨m, n⟩ := p
    rw [limitEntries, List.map_cons, Limit.entry?, Toml.limitEntry, List.lookup_cons,
      List.lookup_cons]
    by_cases h : l = m
    · subst h
      simp
    · have hkey : (l.key.toList == m.key.toList) = false :=
        beq_eq_false_iff_ne.2 fun hk => h (Toml.key_injective hk)
      rw [hkey, beq_eq_false_iff_ne.2 h]
      exact ih

/-- A number of 64 bits fits every limit. -/
theorem setting?_integer {n : Nat} (h : n ≤ 2 ^ 64 - 1) :
    (Value.integer n).setting? = some n := by
  have h64 : Int.pow 2 64 = 18446744073709551616 := rfl
  exact Value.setting?_eq_some.2 ⟨rfl, by omega⟩

theorem given_limitEntries (hn : ∀ p ∈ limits, p.2 ≤ 2 ^ 64 - 1) :
    given (limitEntries limits) = ofValues fun l => (limits.lookup l).getD l.default := by
  refine ext_get fun l => ?_
  rw [given, get_ofValues, get_ofValues, Limit.number?, entry?_limitEntries]
  cases hl : limits.lookup l with
  | none => rfl
  | some n =>
    have hset := setting?_integer (hn _ (Toml.mem_of_lookup hl))
    rw [Option.map_some, Option.bind_some, hset]

/-- What is written for limits is read by the section. -/
theorem ofSection_limitEntries (hd : (limits.map (·.1)).Nodup)
    (hn : ∀ p ∈ limits, p.2 ≤ 2 ^ 64 - 1) : ofSection (.table (limitEntries limits)) =
      .ok (ofValues fun l => (limits.lookup l).getD l.default) := by
  rw [← given_limitEntries hn]
  refine ofSection_eq_given (nodup_limitEntries hd) (fun e he hne => ?_) fun l v hl => ?_
  · obtain ⟨p, -, rfl⟩ := List.mem_map.1 he
    exact absurd rfl (hne p.1)
  · rw [entry?_limitEntries, Option.map_eq_some_iff] at hl
    obtain ⟨n, hl, rfl⟩ := hl
    by_contra hout
    have hset := setting?_integer (hn _ (Toml.mem_of_lookup hl))
    rw [Value.setting?_eq_none.2 hout] at hset
    cases hset

theorem firstZero_eq_none (hpos : ∀ p ∈ limits, 1 ≤ p.2) :
    (ofValues fun l => (limits.lookup l).getD l.default).firstZero = none := by
  refine List.find?_eq_none.2 fun l _ => ?_
  rw [get_ofValues]
  cases hl : limits.lookup l with
  | none => cases l <;> decide
  | some n =>
    have hn := hpos _ (Toml.mem_of_lookup hl)
    simp only [Option.getD_some, decide_eq_true_eq]
    omega

/-- **Settings survive a trip through a file.**  Whatever limits are written, in any order,
    each once and each as a number of 64 bits that is not zero, they are loaded again, and the
    others have their defaults. -/
theorem reads_back_what_is_rendered (hd : (limits.map (·.1)).Nodup)
    (hn : ∀ p ∈ limits, 1 ≤ p.2 ∧ p.2 ≤ 2 ^ 64 - 1) :
    loadValid (.ok (Utf8.encode (render limits))) =
      .ok (ofValues fun l => (limits.lookup l).getD l.default) := by
  have hparse := Toml.parse_render hd fun p hp => (hn p hp).1
  have hdoc : ofDocument [(Toml.runnerKey, .table (limitEntries limits))] =
      ofSection (.table (limitEntries limits)) := by
    refine ofDocument_eq (List.nodup_singleton _) rfl fun e he hne => ?_
    exact absurd (congrArg Prod.fst (List.mem_singleton.1 he)) hne
  rw [loadValid_ok (Utf8.decode?_encode _) hparse, hdoc,
    ofSection_limitEntries hd fun p hp => (hn p hp).2]
  simp only [Except.mapError, Except.bind, validate, firstZero_eq_none fun p hp => (hn p hp).1]

/-- Three limits, not in their order, with the least and the greatest number and with the first
    one that would be negative in 64 bits with a sign. -/
theorem reads_back_what_is_rendered_largeValues :
    loadValid (.ok (Utf8.encode (render
      [(.bufferSize, 2 ^ 64 - 1), (.joinTimeout, 2 ^ 63), (.gracePeriod, 1)]))) =
      .ok { gracePeriod := 1, joinTimeout := 2 ^ 63, bufferSize := 2 ^ 64 - 1 } :=
  reads_back_what_is_rendered (by decide) (by decide)

end Settings

end Supervisor
