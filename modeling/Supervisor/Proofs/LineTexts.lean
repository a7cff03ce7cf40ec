/-
  The lines of the log, joined again, are the text of the whole output.

  * `lossy_lineText`, `lossy_restText`: a line that does not end in a carriage return is
    given as what its bytes stand for, and nothing else is taken from it;
  * `lossy_flatten`: the texts of the lines, each with its newline, are what all the bytes
    stand for, since a newline cuts a text into two that do not know of each other;
  * `texts_join_to_whole`: so decoding line by line agrees with decoding at once.
-/
import Supervisor.Proofs.Decoding
import Supervisor.Proofs.LogLines

namespace Supervisor

open Utf8

/-! ## Joining with newlines -/

/-- A text without the newline that ends it, if there is one. -/
def withoutFinalNewline (cs : List Char) : List Char :=
  if cs.getLast? = some '\n' then cs.dropLast else cs

theorem withoutFinalNewline_append (cs : List Char) : withoutFinalNewline (cs ++ ['\n']) = cs := by
  rw [withoutFinalNewline, List.getLast?_concat, if_pos rfl, List.dropLast_concat]

theorem flatMap_newline_append (texts : List (List Char)) (last : List Char) :
    texts.flatMap (· ++ ['\n']) ++ last = List.intercalate ['\n'] (texts ++ [last]) := by
  induction texts with
  | nil => exact List.intercalate_singleton.symm
  | cons text texts ih =>
    rw [List.flatMap_cons, List.append_assoc, ih, List.cons_append,
      List.intercalate_cons_of_ne_nil (List.append_ne_nil_of_right_ne_nil _ (List.cons_ne_nil _ _))]

/-- Texts that end in newlines, joined. -/
theorem intercalate_newline (texts : List (List Char)) :
    List.intercalate ['\n'] texts = withoutFinalNewline (texts.flatMap (· ++ ['\n'])) := by
  obtain rfl | ⟨init, last, rfl⟩ := List.eq_nil_or_concat' texts
  · rfl
  · rw [List.flatMap_append, List.flatMap_singleton, ← List.append_assoc,
      flatMap_newline_append, withoutFinalNewline_append]

/-! ## The texts of lines -/

/-- The byte of a carriage return. -/
def carriageReturn : UInt8 := 13

/-- No line ends in a carriage return, and neither does what stands behind the last one. -/
def NoReturns (bs : Bytes) : Prop :=
  ∀ bodies rest, IsCut bs (bodies.map (· ++ [newline])) rest →
    ∀ piece ∈ bodies ++ [rest], piece.getLast? ≠ some carriageReturn

/-- Nothing would be trimmed from the text of such bytes. -/
theorem isLineEnd_of_getLast? {bs : Bytes} {cs : List Char} {c : Char} (h : Lossy bs cs)
    (hnl : newline ∉ bs) (hcr : bs.getLast? ≠ some carriageReturn) (hc : cs.getLast? = some c) :
    isLineEnd c = false := by
  refine decide_eq_false fun hend => ?_
  obtain rfl | rfl := hend
  · exact hcr (h.getLast?_of_ascii hc (by decide))
  · exact hnl (List.mem_of_getLast? (h.getLast?_of_ascii hc (by decide)))

/-- What stands behind the last newline is given as a whole. -/
theorem lossy_restText {rest : Bytes} (hnl : newline ∉ rest)
    (hcr : rest.getLast? ≠ some carriageReturn) : Lossy rest (lineText rest).toList := by
  have hrest : Lossy rest (decodeLossy rest) := lossy_iff.2 rfl
  have htrim : trimLineEnd (decodeLossy rest ++ []) = decodeLossy rest :=
    trimLineEnd_append nofun fun c hc => isLineEnd_of_getLast? hrest hnl hcr hc
  rw [List.append_nil] at htrim
  rwa [lineText, String.toList_ofList, htrim]

/-- A line is given without its newline. -/
theorem lossy_lineText {body : Bytes} (hnl : newline ∉ body)
    (hcr : body.getLast? ≠ some carriageReturn) :
    Lossy body (lineText (body ++ [newline])).toList := by
  have hbody : Lossy body (decodeLossy body) := lossy_iff.2 rfl
  have hline : decodeLossy (body ++ [newline]) = decodeLossy body ++ ['\n'] :=
    (lossy_iff.1 (hbody.append_newline .nil)).symm
  have htrim : trimLineEnd (decodeLossy body ++ ['\n']) = decodeLossy body :=
    trimLineEnd_append (by simp [isLineEnd])
      fun c hc => isLineEnd_of_getLast? hbody hnl hcr hc
  rwa [lineText, String.toList_ofList, hline, htrim]

/-- Lines and a rest stand for their texts, each with a newline behind it, and that of the
    rest. -/
theorem lossy_flatten {bodies : List Bytes} {texts : List (List Char)} {rest : Bytes}
    {last : List Char} (h : List.Forall₂ Lossy bodies texts) (hrest : Lossy rest last) :
    Lossy ((bodies.map (· ++ [newline])).flatten ++ rest)
      (texts.flatMap (· ++ ['\n']) ++ last) := by
  induction h with
  | nil => exact hrest
  | cons hbody _ ih =>
    simp only [List.map_cons, List.flatten_cons, List.flatMap_cons, List.append_assoc]
    exact hbody.append_newline ih

/-- The bodies of the lines of a cut. -/
theorem IsCut.exists_bodies {bs rest : Bytes} {lines : List Bytes} (h : IsCut bs lines rest) :
    ∃ bodies : List Bytes, lines = bodies.map (· ++ [newline]) ∧
      ∀ body ∈ bodies, newline ∉ body := by
  refine ⟨lines.map List.dropLast, ?_, fun body hbody => ?_⟩
  · have hid : ∀ line ∈ lines, line.dropLast ++ [newline] = line := fun line hline => by
      obtain ⟨body, -, rfl⟩ := h.ended line hline
      rw [List.dropLast_concat]
    rw [List.map_map]
    exact ((List.map_congr_left hid).trans (List.map_id lines)).symm
  · obtain ⟨line, hline, rfl⟩ := List.mem_map.1 hbody
    obtain ⟨body, hnl, rfl⟩ := h.ended line hline
    rwa [List.dropLast_concat]

/-- Whether a line ends in a carriage return is seen from the one cut there is. -/
theorem noReturns_iff {bs : Bytes} : NoReturns bs ↔
    (∀ line ∈ (splitLines bs).1, line.dropLast.getLast? ≠ some carriageReturn) ∧
      (splitLines bs).2.getLast? ≠ some carriageReturn := by
  constructor
  · intro h
    obtain ⟨bodies, hlines, -⟩ := (isCut_splitLines bs).exists_bodies
    have hall := h bodies (splitLines bs).2 (hlines ▸ isCut_splitLines bs)
    refine ⟨fun line hline => ?_, hall _ (List.mem_append_right _ (List.mem_singleton_self _))⟩
    rw [hlines] at hline
    obtain ⟨body, hbody, rfl⟩ := List.mem_map.1 hline
    rw [List.dropLast_concat]
    exact hall body (List.mem_append_left _ hbody)
  · rintro ⟨hlines, hrest⟩ bodies rest hcut piece hpiece
    rw [hcut.splitLines_eq] at hlines hrest
    obtain hbody | hlast := List.mem_append.1 hpiece
    · have := hlines _ (List.mem_map_of_mem hbody)
      rwa [List.dropLast_concat] at this
    · rwa [List.mem_singleton.1 hlast]

instance (bs : Bytes) : Decidable (NoReturns bs) := decidable_of_iff _ noReturns_iff.symm

/-- The texts of the pieces of a cut, joined, are what all the bytes stand for without the
    final newline. -/
theorem IsCut.joined {bs rest : Bytes} {bodies : List Bytes} {texts : List (List Char)}
    {last whole : List Char} (hcut : IsCut bs (bodies.map (· ++ [newline])) rest)
    (htexts : List.Forall₂ Lossy bodies texts) (hlast : Lossy rest last)
    (hwhole : Lossy bs whole) :
    List.intercalate ['\n'] (texts ++ if rest = [] then [] else [last]) =
      withoutFinalNewline whole := by
  have hflat : Lossy bs (texts.flatMap (· ++ ['\n']) ++ last) :=
    hcut.whole ▸ lossy_flatten htexts hlast
  obtain rfl := hwhole.unique hflat
  by_cases hrest : rest = []
  · obtain rfl := (hrest ▸ hlast).nil_inv
    rw [if_pos hrest, List.append_nil, List.append_nil, intercalate_newline]
  · -- a final newline of the text would be one of the bytes behind the last line
    have hend : (texts.flatMap (· ++ ['\n']) ++ last).getLast? ≠ some '\n' := fun hc => by
      have hbs := hwhole.getLast?_of_ascii hc (by decide)
      rw [← hcut.whole, List.getLast?_append_of_ne_nil _ hrest] at hbs
      exact hcut.unended (List.mem_of_getLast? hbs)
    rw [if_neg hrest, ← flatMap_newline_append, withoutFinalNewline, if_neg hend]

namespace LineLog

/-- **Decoding line by line agrees with decoding the whole output at once.**  Let no line
    that is written to a stream end in a carriage return.  Then however the bytes of the
    stream were cut, and whatever was written to the other one in between, the texts that
    the log has given when it is closed, joined with newlines, are the one text that all
    bytes stand for without its final newline.  Bytes that were written for some characters
    give just these; and every text stands for the bytes of its own line alone, so what is
    ill-formed or torn off in one line has no part in another. -/
theorem texts_join_to_whole (ws : List (Stream × Bytes)) (s : Stream)
    (hcr : NoReturns (bytesOf s ws)) :
    (∀ cs, Lossy (bytesOf s ws) cs ↔ cs = decodeLossy (bytesOf s ws)) ∧
      ("\n".intercalate (textsOf s (linesOf {} ws))).toList =
        withoutFinalNewline (decodeLossy (bytesOf s ws)) ∧
      (∀ cs, bytesOf s ws = encode cs →
        ("\n".intercalate (textsOf s (linesOf {} ws))).toList = withoutFinalNewline cs) ∧
      ∃ bodies rest, IsCut (bytesOf s ws) (bodies.map (· ++ [newline])) rest ∧
        List.Forall₂ (fun piece text => Lossy piece text.toList)
          (bodies ++ if rest = [] then [] else [rest]) (textsOf s (linesOf {} ws)) := by
  have hcut := isCut_splitLines (bytesOf s ws)
  have htexts := textsOf_linesOf ws s
  obtain ⟨bodies, hlines, hbodies⟩ := hcut.exists_bodies
  generalize (splitLines (bytesOf s ws)).2 = rest at hcut htexts
  rw [hlines] at hcut htexts
  have hreturn := hcr bodies rest hcut
  have hlossy : List.Forall₂ (fun piece text => Lossy piece text.toList)
      bodies (bodies.map fun body => lineText (body ++ [newline])) := by
    rw [List.forall₂_map_right_iff, List.forall₂_same]
    exact fun body hbody =>
      lossy_lineText (hbodies body hbody) (hreturn body (List.mem_append_left _ hbody))
  have hrest : Lossy rest (lineText rest).toList :=
    lossy_restText hcut.unended (hreturn rest (List.mem_append_right _ (List.mem_singleton_self _)))
  have htexts : textsOf s (linesOf {} ws) = bodies.map (fun body => lineText (body ++ [newline])) ++
      if rest = [] then [] else [lineText rest] := by
    rw [htexts, List.map_append, List.map_map, apply_ite (List.map lineText)]
    rfl
  have hjoined : ∀ whole, Lossy (bytesOf s ws) whole →
      ("\n".intercalate (textsOf s (linesOf {} ws))).toList = withoutFinalNewline whole :=
    fun whole hwhole => by
      rw [← hcut.joined (List.forall₂_map_right_iff.2 hlossy) hrest hwhole,
        String.toList_intercalate, htexts, List.map_append, apply_ite (List.map String.toList)]
      rfl
  refine ⟨fun _ => lossy_iff, hjoined _ (lossy_iff.2 rfl), fun cs hcs => ?_, bodies, rest, hcut, ?_⟩
  · exact hjoined cs (hcs ▸ lossy_encode cs)
  · rw [htexts]
    refine List.rel_append hlossy ?_
    split
    · exact .nil
    · exact .cons hrest .nil

/-- Output that is ill-formed in three ways: a sequence that a newline tears, the beginning
    of a surrogate before the next one, and a sequence that the end tears.  It is cut inside
    all of them and written to the other stream in between. -/
def illFormedWrites : List (Stream × Bytes) :=
  [(.out, [0x61, 0xE2]), (.err, [0x82, 10]), (.out, [0x82, 10, 0xAC, 0x62, 10, 0xED]),
    (.err, [0xAC]), (.out, [0xA0, 10, 0xC3, 0xA9, 0xF0, 0x9F])]

theorem texts_join_to_whole_illFormedWrites :
    NoReturns (bytesOf .out illFormedWrites) ∧
      textsOf .out (linesOf {} illFormedWrites) =
        ["a\uFFFD", "\uFFFDb", "\uFFFD\uFFFD", "é\uFFFD"] ∧
      ("\n".intercalate (textsOf .out (linesOf {} illFormedWrites))).toList =
        "a\uFFFD\n\uFFFDb\n\uFFFD\uFFFD\né\uFFFD".toList := by
  have hcr : NoReturns (bytesOf .out illFormedWrites) := by decide +kernel
  have hjoined := (texts_join_to_whole illFormedWrites .out hcr).2.1
  exact ⟨hcr, by decide +kernel, by rw [hjoined]; decide +kernel⟩

end LineLog

end Supervisor
