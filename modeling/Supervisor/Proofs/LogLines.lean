/-
  The log gives every line once, however the output was cut.

  * `IsCut bs lines rest`: the bytes are these lines, each with the newline that ends it,
    and a rest without one; there is one such cut, and `splitLines` finds it
    (`isCut_iff`);
  * `IsTextOf bs text`: the text of a line is its bytes decoded as a whole, without the
    line ends behind it; there is one such text (`isTextOf_iff`);
  * `LineLog.given`, `LineLog.after`: what a log gives while it is written to, and what is
    left of it then; together they are the cut of all that was written (`cut_of_writes`);
  * `log_keeps_every_line`: so the lines of a stream depend on its bytes only.
-/
import Mathlib.Data.List.Forall2
import Mathlib.Data.List.TakeWhile
import Mathlib.Tactic.Common
import Supervisor.LineLog

namespace Supervisor

/-! ## Cutting bytes into lines -/

/-- The bytes are these lines, each with the newline that ends it, and a rest without
    one. -/
structure IsCut (bs : Bytes) (lines : List Bytes) (rest : Bytes) : Prop where
  whole : lines.flatten ++ rest = bs
  ended : ∀ l ∈ lines, ∃ body, newline ∉ body ∧ l = body ++ [newline]
  unended : newline ∉ rest

theorem splitLines_cons (b : UInt8) (bs : Bytes) :
    splitLines (b :: bs) = consByte b (splitLines bs) := rfl

theorem consByte_newline (p : List Bytes × Bytes) :
    consByte newline p = ([newline] :: p.1, p.2) := rfl

theorem consByte_nil {b : UInt8} (hb : b ≠ newline) (rest : Bytes) :
    consByte b ([], rest) = ([], b :: rest) := if_neg hb

theorem consByte_cons {b : UInt8} (hb : b ≠ newline) (line : Bytes) (more : List Bytes)
    (rest : Bytes) : consByte b (line :: more, rest) = ((b :: line) :: more, rest) := if_neg hb

/-- Bytes without a newline are no line yet. -/
theorem splitLines_of_not_mem {bs : Bytes} (h : newline ∉ bs) : splitLines bs = ([], bs) := by
  induction bs with
  | nil => rfl
  | cons b bs ih =>
    obtain ⟨hb, hbs⟩ := not_or.1 (mt List.mem_cons.2 h)
    rw [splitLines_cons, ih hbs, consByte_nil (Ne.symm hb)]

/-- The first newline ends the first line. -/
theorem splitLines_line {body : Bytes} (h : newline ∉ body) (bs : Bytes) :
    splitLines (body ++ newline :: bs) =
      ((body ++ [newline]) :: (splitLines bs).1, (splitLines bs).2) := by
  induction body with
  | nil => rw [List.nil_append, splitLines_cons, consByte_newline, List.nil_append]
  | cons b body ih =>
    obtain ⟨hb, hbody⟩ := not_or.1 (mt List.mem_cons.2 h)
    rw [List.cons_append, splitLines_cons, ih hbody, consByte_cons (Ne.symm hb)]
    rfl

theorem IsCut.splitLines_eq {bs rest : Bytes} {lines : List Bytes} (h : IsCut bs lines rest) :
    splitLines bs = (lines, rest) := by
  induction lines generalizing bs with
  | nil =>
    obtain rfl : rest = bs := h.whole
    exact splitLines_of_not_mem h.unended
  | cons l lines ih =>
    obtain ⟨body, hbody, rfl⟩ := h.ended l List.mem_cons_self
    have hrest : splitLines (lines.flatten ++ rest) = (lines, rest) :=
      ih ⟨rfl, fun k hk => h.ended k (List.mem_cons_of_mem _ hk), h.unended⟩
    have hbs : bs = body ++ newline :: (lines.flatten ++ rest) := by
      rw [← h.whole]
      simp
    rw [hbs, splitLines_line hbody, hrest]

/-- One more byte in front of a cut is a line of its own, or belongs to the first piece. -/
theorem IsCut.cons {bs rest : Bytes} {lines : List Bytes} (h : IsCut bs lines rest) (b : UInt8) :
    IsCut (b :: bs) (consByte b (lines, rest)).1 (consByte b (lines, rest)).2 := by
  by_cases hb : b = newline
  · rw [hb, consByte_newline]
    refine ⟨congrArg (newline :: ·) h.whole, fun l hl => ?_, h.unended⟩
    rcases List.mem_cons.1 hl with rfl | hl
    · exact ⟨[], List.not_mem_nil, rfl⟩
    · exact h.ended l hl
  · cases lines with
    | nil =>
      rw [consByte_nil hb]
      refine ⟨congrArg (b :: ·) h.whole, nofun, fun hmem => ?_⟩
      rcases List.mem_cons.1 hmem with hmem | hmem
      · exact hb hmem.symm
      · exact h.unended hmem
    | cons line more =>
      rw [consByte_cons hb]
      refine ⟨congrArg (b :: ·) h.whole, fun l hl => ?_, h.unended⟩
      rcases List.mem_cons.1 hl with rfl | hl
      · obtain ⟨body, hbody, rfl⟩ := h.ended line List.mem_cons_self
        exact ⟨b :: body, by simp [hbody, Ne.symm hb], rfl⟩
      · exact h.ended l (List.mem_cons_of_mem _ hl)

theorem isCut_splitLines (bs : Bytes) : IsCut bs (splitLines bs).1 (splitLines bs).2 := by
  induction bs with
  | nil => exact ⟨rfl, nofun, nofun⟩
  | cons b bs ih => exact ih.cons b

/-- **There is one cut of some bytes.** -/
theorem isCut_iff {bs rest : Bytes} {lines : List Bytes} :
    IsCut bs lines rest ↔ splitLines bs = (lines, rest) := by
  refine ⟨IsCut.splitLines_eq, fun h => ?_⟩
  have := isCut_splitLines bs
  rwa [h] at this

/-- More bytes are cut where the rest of those before them begins. -/
theorem splitLines_append (as bs : Bytes) :
    splitLines (as ++ bs) =
      ((splitLines as).1 ++ (splitLines ((splitLines as).2 ++ bs)).1,
        (splitLines ((splitLines as).2 ++ bs)).2) := by
  have ha := isCut_splitLines as
  have hb := isCut_splitLines ((splitLines as).2 ++ bs)
  refine IsCut.splitLines_eq ⟨?_, fun l hl => ?_, hb.unended⟩
  · rw [List.flatten_append, List.append_assoc, hb.whole, ← List.append_assoc, ha.whole]
  · rcases List.mem_append.1 hl with hl | hl
    · exact ha.ended l hl
    · exact hb.ended l hl

/-! ## The text of a line -/

/-- Whether a character ends a line. -/
def isLineEnd (c : Char) : Bool := c = '\r' ∨ c = '\n'

/-- The text of some bytes: decoded as a whole, without the line ends behind it. -/
def IsTextOf (bs : Bytes) (text : String) : Prop :=
  (∃ ends, Utf8.decodeLossy bs = text.toList ++ ends ∧ ∀ c ∈ ends, isLineEnd c = true) ∧
    ∀ c, text.toList.getLast? = some c → isLineEnd c = false

theorem trimLineEnd_eq (cs : List Char) :
    trimLineEnd cs = (cs.reverse.dropWhile isLineEnd).reverse := rfl

theorem trimLineEnd_append {cs ends : List Char} (hends : ∀ c ∈ ends, isLineEnd c = true)
    (hlast : ∀ c, cs.getLast? = some c → isLineEnd c = false) : trimLineEnd (cs ++ ends) = cs := by
  have hdrop : (ends.reverse ++ cs.reverse).dropWhile isLineEnd = cs.reverse := by
    rw [List.dropWhile_append_of_pos fun c hc => hends c (List.mem_reverse.1 hc)]
    cases hcs : cs.reverse with
    | nil => rfl
    | cons c more =>
      have hc : isLineEnd c = false := hlast c (by rw [List.getLast?_eq_head?_reverse, hcs]; rfl)
      exact List.dropWhile_cons_of_neg (by simp [hc])
  rw [trimLineEnd_eq, List.reverse_append, hdrop, List.reverse_reverse]

/-- **There is one text of some bytes.** -/
theorem isTextOf_iff {bs : Bytes} {text : String} : IsTextOf bs text ↔ text = lineText bs := by
  constructor
  · rintro ⟨⟨ends, hbs, hends⟩, hlast⟩
    rw [lineText, hbs, trimLineEnd_append hends hlast, String.ofList_toList]
  · rintro rfl
    refine ⟨⟨((Utf8.decodeLossy bs).reverse.takeWhile isLineEnd).reverse, ?_, fun c hc => ?_⟩,
      fun c hc => ?_⟩
    · rw [lineText, String.toList_ofList, trimLineEnd_eq, ← List.reverse_append,
        List.takeWhile_append_dropWhile, List.reverse_reverse]
    · exact List.mem_takeWhile_imp (List.mem_reverse.1 hc)
    · rw [lineText, String.toList_ofList, trimLineEnd_eq, List.getLast?_reverse] at hc
      have hhead := List.head?_dropWhile_not isLineEnd (Utf8.decodeLossy bs).reverse
      rwa [hc] at hhead

/-! ## Writes on a log -/

/-- The bytes that were written to a stream. -/
def bytesOf (s : Stream) (ws : List (Stream × Bytes)) : Bytes :=
  (ws.filter (·.1 = s)).flatMap (·.2)

/-- The texts of the lines of a stream. -/
def textsOf (s : Stream) (ls : List Line) : List String := (ls.filter (·.stream = s)).map (·.text)

@[simp] theorem textsOf_append (s : Stream) (ls ms : List Line) :
    textsOf s (ls ++ ms) = textsOf s ls ++ textsOf s ms := by
  simp [textsOf]

theorem textsOf_ofBytes (s t : Stream) (lines : List Bytes) :
    textsOf s (lines.map (Line.ofBytes t)) = if t = s then lines.map lineText else [] := by
  by_cases h : t = s
  · rw [if_pos h, textsOf, List.filter_eq_self.2 (by simp [Line.ofBytes, h]), List.map_map]
    rfl
  · rw [if_neg h, textsOf, List.filter_eq_nil_iff.2 (by simp [Line.ofBytes, h]), List.map_nil]

theorem bytesOf_cons (s t : Stream) (bs : Bytes) (ws : List (Stream × Bytes)) :
    bytesOf s ((t, bs) :: ws) = (if t = s then bs else []) ++ bytesOf s ws := by
  by_cases h : t = s <;> simp [bytesOf, h]

namespace LineLog

/-- What a log gives while it is written to. -/
def given (l : LineLog) : List (Stream × Bytes) → List Line
  | [] => []
  | (s, bs) :: ws => (l.feed s bs).1 ++ (l.feed s bs).2.given ws

/-- What is left of a log that was written to. -/
def after (l : LineLog) (ws : List (Stream × Bytes)) : LineLog :=
  ws.foldl (fun l w => (l.feed w.1 w.2).2) l

theorem linesOf_eq (l : LineLog) (ws : List (Stream × Bytes)) :
    l.linesOf ws = l.given ws ++ (l.after ws).close := by
  induction ws generalizing l with
  | nil => rfl
  | cons w ws ih =>
    calc l.linesOf (w :: ws) = (l.feed w.1 w.2).1 ++ (l.feed w.1 w.2).2.linesOf ws := rfl
      _ = (l.feed w.1 w.2).1 ++ ((l.feed w.1 w.2).2.given ws ++
          ((l.feed w.1 w.2).2.after ws).close) := by rw [ih]
      _ = l.given (w :: ws) ++ (l.after (w :: ws)).close := (List.append_assoc _ _ _).symm

/-- A write gives the lines of its own stream that it completes. -/
theorem textsOf_feed (l : LineLog) (s t : Stream) (bs : Bytes) :
    textsOf s (l.feed t bs).1 =
      if t = s then (splitLines (l.pending.get s ++ bs)).1.map lineText else [] := by
  rw [feed, textsOf_ofBytes]
  by_cases h : t = s
  · rw [if_pos h, if_pos h, h]
  · rw [if_neg h, if_neg h]

theorem pending_feed (l : LineLog) (s t : Stream) (bs : Bytes) :
    (l.feed t bs).2.pending.get s =
      if t = s then (splitLines (l.pending.get s ++ bs)).2 else l.pending.get s := by
  rw [feed, PerStream.get_set]
  by_cases h : t = s
  · rw [if_pos h.symm, if_pos h, h]
  · rw [if_neg (Ne.symm h), if_neg h]

theorem textsOf_close (l : LineLog) (s : Stream) :
    textsOf s l.close = (if l.pending.get s = [] then [] else [l.pending.get s]).map lineText := by
  cases s <;> by_cases ho : l.pending.get .out = [] <;> by_cases he : l.pending.get .err = [] <;>
    simp [close, Stream.all, textsOf, Line.ofBytes, ho, he]

/-- **What a log has given and what is left of it are the cut of all that was written**,
    whatever was written to the other stream in between. -/
theorem cut_of_writes (l : LineLog) (s : Stream) (ws : List (Stream × Bytes))
    (h : newline ∉ l.pending.get s) :
    textsOf s (l.given ws) = (splitLines (l.pending.get s ++ bytesOf s ws)).1.map lineText ∧
      (l.after ws).pending.get s = (splitLines (l.pending.get s ++ bytesOf s ws)).2 := by
  induction ws generalizing l with
  | nil =>
    rw [show bytesOf s [] = [] from rfl, List.append_nil, splitLines_of_not_mem h]
    exact ⟨rfl, rfl⟩
  | cons w ws ih =>
    obtain ⟨t, bs⟩ := w
    -- what a write leaves pending is the rest of a cut, hence again without a newline
    obtain ⟨htexts, hpending⟩ := ih (l.feed t bs).2 (by
      rw [pending_feed]
      split
      · exact (isCut_splitLines _).unended
      · exact h)
    rw [given, textsOf_append, htexts, textsOf_feed,
      show l.after ((t, bs) :: ws) = (l.feed t bs).2.after ws from rfl, hpending, pending_feed,
      bytesOf_cons]
    by_cases hts : t = s
    · simp only [if_pos hts]
      rw [← List.append_assoc, splitLines_append (l.pending.get s ++ bs), List.map_append]
      exact ⟨rfl, rfl⟩
    · simp only [if_neg hts, List.nil_append]
      exact ⟨trivial, trivial⟩

/-- A new log has nothing left of anything before. -/
theorem cut_of_new (ws : List (Stream × Bytes)) (s : Stream) :
    textsOf s (given {} ws) = (splitLines (bytesOf s ws)).1.map lineText ∧
      (after {} ws).pending.get s = (splitLines (bytesOf s ws)).2 := by
  have hnew : ({} : LineLog).pending.get s = [] := PerStream.get_both [] s
  have := cut_of_writes {} s ws (by rw [hnew]; exact List.not_mem_nil)
  rwa [hnew, List.nil_append] at this

/-- The texts of a stream are those of the pieces of its cut. -/
theorem textsOf_linesOf (ws : List (Stream × Bytes)) (s : Stream) :
    textsOf s (linesOf {} ws) = ((splitLines (bytesOf s ws)).1 ++
      if (splitLines (bytesOf s ws)).2 = [] then [] else [(splitLines (bytesOf s ws)).2]).map
        lineText := by
  rw [linesOf_eq, textsOf_append, textsOf_close, (cut_of_new ws s).1, (cut_of_new ws s).2,
    List.map_append]

/-- Pieces and the texts of them. -/
theorem forall₂_isTextOf (pieces : List Bytes) :
    List.Forall₂ IsTextOf pieces (pieces.map lineText) :=
  List.forall₂_map_right_iff.2 (List.forall₂_same.2 fun _ _ => isTextOf_iff.2 rfl)

/-- **The log loses, doubles and reorders no line, however the output was cut.**  Whatever
    was written to both streams, all bytes of a stream have one cut into lines and a rest.
    The log has given the texts of exactly these lines, in order, and keeps exactly the
    rest; when it is closed it gives the text of the rest, if there is one.  So what it gives
    depends on nothing but the bytes of the stream. -/
theorem log_keeps_every_line (ws : List (Stream × Bytes)) (s : Stream) :
    ∃ lines rest, (∀ ls r, IsCut (bytesOf s ws) ls r ↔ ls = lines ∧ r = rest) ∧
      List.Forall₂ IsTextOf lines (textsOf s (given {} ws)) ∧
      (after {} ws).pending.get s = rest ∧ newline ∉ rest ∧
      List.Forall₂ IsTextOf (if rest = [] then [] else [rest]) (textsOf s (after {} ws).close) ∧
      linesOf {} ws = given {} ws ++ (after {} ws).close ∧
      List.Forall₂ IsTextOf (lines ++ if rest = [] then [] else [rest])
        (textsOf s (linesOf {} ws)) ∧
      ∀ ws', bytesOf s ws' = bytesOf s ws →
        textsOf s (linesOf {} ws') = textsOf s (linesOf {} ws) := by
  obtain ⟨htexts, hpending⟩ := cut_of_new ws s
  refine ⟨(splitLines (bytesOf s ws)).1, (splitLines (bytesOf s ws)).2, fun ls r => ?_, ?_,
    hpending, (isCut_splitLines _).unended, ?_, linesOf_eq {} ws, ?_, fun ws' hws => ?_⟩
  · rw [isCut_iff, Prod.ext_iff]
    exact ⟨fun h => ⟨h.1.symm, h.2.symm⟩, fun h => ⟨h.1.symm, h.2.symm⟩⟩
  · rw [htexts]
    exact forall₂_isTextOf _
  · rw [textsOf_close, hpending]
    exact forall₂_isTextOf _
  · rw [textsOf_linesOf]
    exact forall₂_isTextOf _
  · rw [textsOf_linesOf, textsOf_linesOf, hws]

/-- Output that is cut inside a character, and between the two bytes that end a line; the
    error side is written to in between. -/
def tornWrites : List (Stream × Bytes) :=
  [(.out, [0x63, 0xC3]), (.err, [0x21]), (.out, [0xA9, 13]), (.err, [10]), (.out, [10, 0x78])]

/-- The same output in one write. -/
def wholeWrite : List (Stream × Bytes) := [(.out, [0x63, 0xC3, 0xA9, 13, 10, 0x78])]

/-- Both give the same two lines. -/
theorem log_keeps_every_line_tornWrites :
    bytesOf .out wholeWrite = bytesOf .out tornWrites ∧
      textsOf .out (linesOf {} wholeWrite) = textsOf .out (linesOf {} tornWrites) ∧
      textsOf .out (linesOf {} tornWrites) = ["cé", "x"] := by
  have hbytes : bytesOf .out wholeWrite = bytesOf .out tornWrites := by decide
  obtain ⟨lines, rest, -, -, -, -, -, -, -, hdep⟩ := log_keeps_every_line tornWrites .out
  exact ⟨hbytes, hdep wholeWrite hbytes, by decide +kernel⟩

end LineLog

end Supervisor
