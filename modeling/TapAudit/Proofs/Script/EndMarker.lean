import TapAudit.Proofs.Script.LineSearch
import TapAudit.Proofs.Script.Region

/-!
# Where the inline data begins

Three readers decide where the inline data of a script begins: the search for a line `__END__`, the
walk, and the cut of the text in front of the data. The walk stops at a line that is `__END__`
without the blanks around it, unless the line is in a heredoc. The cut is made at a line other than
the first that starts with `__END__`, be it in a heredoc or a longer word.

- `hasEndLine_iff`, `isMarker_of_stopLine`, `withoutPatch_eq`: what each of the three looks for.
- `strip_textBefore_inj`: texts that are cut at different lines differ.
- `markersAgree_iff`: **the three readers agree if walk and cut end at one line.**
-/

namespace TapAudit.Script

open Text

/-- The line that starts the inline data. -/
def endMarker : List Char :=
  "__END__".toList

theorem feed_not_mem_endMarker : '\n' ∉ endMarker := by
  decide

/-- The line of a text at which the walk stops. -/
def stopLine? (text : List Char) : Option Nat :=
  (List.range (lines text).length).find? fun k =>
    (Walk.after {} ((lines text).take (k + 1))).stopped

/-- The line of a text at which it is cut in front of the inline data. -/
def cutLine? (text : List Char) : Option Nat :=
  ((lines text).tail.findIdx? (startsWith "__END__")).map (· + 1)

/-- The text before a line, or all of it. -/
def textBefore (text : List Char) : Option Nat → List Char
  | some k => joinWith ['\n'] ((lines text).take k)
  | none => text

/-- The three readers of a text agree on where its inline data begins. -/
structure MarkersAgree (text : List Char) : Prop where
  /-- There is a line `__END__` exactly if the walk stops. -/
  search : hasEndLine text = true ↔ (stopLine? text).isSome
  /-- What is left without the data is the text before the line at which the walk stops. -/
  cut : ∀ k, stopLine? text = some k → withoutPatch text = strip (textBefore text (some k))
  /-- If the walk does not stop, everything is left. -/
  whole : stopLine? text = none → withoutPatch text = strip text

/-! ## The search -/

theorem startsEndLine_iff {text line : List Char} {rest : List (List Char)}
    (h : lines text = line :: rest) : startsEndLine text = true ↔ line = endMarker := by
  obtain ⟨hfeed, htext⟩ := splitOn_eq_cons h
  rw [startsEndLine]
  constructor
  · intro hstarts
    split at hstarts
    · next hafter =>
      have htext : text = endMarker := by
        rw [after?_eq_some_iff.mp hafter, List.append_nil]
        rfl
      rw [lines, htext, splitOn_eq_singleton feed_not_mem_endMarker] at h
      exact (List.cons.inj h).1.symm
    · next c tail hafter =>
      obtain rfl : c = '\n' := by simpa using hstarts
      have htext : text = endMarker ++ '\n' :: tail := after?_eq_some_iff.mp hafter
      rw [lines, htext, splitOn_append_cons feed_not_mem_endMarker] at h
      exact (List.cons.inj h).1.symm
    · cases hstarts
  · rintro rfl
    rcases htext with ⟨-, rfl⟩ | ⟨tail, rfl, -⟩
    · rfl
    · have hafter : after? "__END__" (endMarker ++ '\n' :: tail) = some ('\n' :: tail) :=
        after?_eq_some_iff.mpr rfl
      rw [hafter]
      rfl

theorem hasEndLine_iff {text : List Char} :
    hasEndLine text = true ↔ endMarker ∈ lines text := by
  have hmarker (before : Option Char) (text : List Char) :
      Marker.endLine.standsAt before text = true ↔
        atLineStart before = true ∧ startsEndLine text = true := by
    rw [Marker.standsAt, Bool.and_eq_true]
  have hline {k : Nat} (hk : k < (lines text).length) :
      startsEndLine (textFrom text k) = true ↔ (lines text)[k] = endMarker :=
    startsEndLine_iff ((lines_textFrom hk).trans (List.drop_eq_getElem_cons hk))
  rw [hasEndLine, Marker.isIn_iff hmarker, List.mem_iff_getElem]
  constructor
  · rintro ⟨k, hk, hstarts⟩
    exact ⟨k, hk, (hline hk).mp hstarts⟩
  · rintro ⟨k, hk, hmarker⟩
    exact ⟨k, hk, (hline hk).mpr hmarker⟩

/-! ## The walk -/

theorem stopped_iff (text : List Char) (k : Nat) :
    (Walk.after {} ((lines text).take k)).stopped = true ↔ Region.ofLine text k = .data := by
  have hregion : (Walk.after {} ((lines text).take k)).region = Region.ofLine text k :=
    Walk.region_after {} _
  rw [← hregion, Walk.region]
  cases (Walk.after {} ((lines text).take k)).stopped with
  | true => simp
  | false => cases (Walk.after {} ((lines text).take k)).heredoc <;> simp

theorem ofLine_succ {text raw : List Char} {k : Nat} (h : (lines text)[k]? = some raw) :
    Region.ofLine text (k + 1) = (Region.ofLine text k).next raw := by
  rw [Region.ofLine, Region.ofLine, List.take_add_one, h, Option.toList_some, List.foldl_append]
  rfl

theorem isMarker_of_next {region : Region} {raw : List Char} (hregion : region ≠ .data)
    (h : region.next raw = .data) : Walk.IsMarker raw := by
  cases region with
  | code =>
    rw [Region.next] at h
    split at h
    · assumption
    · split at h <;> cases h
  | heredoc terminator =>
    rw [Region.next] at h
    split at h <;> cases h
  | data => exact absurd rfl hregion

theorem isMarker_of_stopLine {text : List Char} {k : Nat} (h : stopLine? text = some k) :
    ∃ raw, (lines text)[k]? = some raw ∧ Walk.IsMarker raw := by
  obtain ⟨hstopped, hrange, hfirst⟩ := List.find?_range_eq_some.mp h
  have hline := List.getElem?_eq_getElem (List.mem_range.mp hrange)
  refine ⟨_, hline, ?_⟩
  rw [stopped_iff, ofLine_succ hline] at hstopped
  refine isMarker_of_next (fun hdata => ?_) hstopped
  cases k with
  | zero => cases hdata
  | succ k =>
    have hnot := hfirst k (Nat.lt_succ_self k)
    rw [← stopped_iff] at hdata
    rw [hdata] at hnot
    cases hnot

theorem isSome_stopLine_of_head {text : List Char} {rest : List (List Char)}
    (h : lines text = endMarker :: rest) : (stopLine? text).isSome := by
  rw [stopLine?, List.find?_isSome]
  refine ⟨0, List.mem_range.mpr (by simp [h]), ?_⟩
  rw [stopped_iff, ofLine_succ (by rw [h]; rfl)]
  rfl

/-! ## The cut -/

theorem startsWith_of_cutLine {text : List Char} {k : Nat} (h : cutLine? text = some k) :
    ∃ raw, (lines text)[k]? = some raw ∧ startsWith "__END__" raw = true := by
  obtain ⟨i, hi, rfl⟩ := Option.map_eq_some_iff.mp h
  obtain ⟨hlt, hstarts, -⟩ := List.findIdx?_eq_some_iff_getElem.mp hi
  refine ⟨_, ?_, hstarts⟩
  rw [← List.getElem?_tail, List.getElem?_eq_getElem hlt]

theorem isSome_cutLine_iff {text line : List Char} {rest : List (List Char)}
    (h : lines text = line :: rest) :
    (cutLine? text).isSome ↔ ∃ raw ∈ rest, startsWith "__END__" raw = true := by
  rw [cutLine?, Option.isSome_map, h, List.tail_cons, List.findIdx?_isSome, List.any_eq_true]

theorem partsBefore_eq (mark : List Char) (parts : List (List Char)) :
    partsBefore mark parts =
      match parts.tail.findIdx? mark.isPrefixOf with
      | some k => parts.take (k + 1)
      | none => parts := by
  cases parts with
  | nil => rfl
  | cons part parts =>
    rw [partsBefore, List.takeWhile_eq_take_findIdx_not, List.tail_cons]
    simp only [Bool.not_not]
    rw [List.findIdx_eq_getD_findIdx?]
    cases parts.findIdx? mark.isPrefixOf with
    | none => rw [Option.getD_none, List.take_length]
    | some k => rfl

theorem withoutPatch_eq (text : List Char) :
    withoutPatch text = strip (textBefore text (cutLine? text)) := by
  rw [withoutPatch, show "\n__END__".toList = '\n' :: endMarker from rfl,
    upTo_cons_sep feed_not_mem_endMarker, partsBefore_eq, cutLine?]
  change strip (joinWith ['\n'] (match (lines text).tail.findIdx? (startsWith "__END__") with
    | some k => (lines text).take (k + 1)
    | none => lines text)) = _
  cases (lines text).tail.findIdx? (startsWith "__END__") with
  | none => rw [lines, joinWith_splitOn, Option.map_none, textBefore]
  | some k => rfl

/-! ## Different cuts -/

theorem inked_joinWith (parts : List (List Char)) :
    inked (joinWith ['\n'] parts) = parts.flatMap inked := by
  induction parts with
  | nil => rfl
  | cons part parts ih =>
    rw [List.flatMap_cons, ← ih]
    cases parts with
    | nil => exact (List.append_nil _).symm
    | cons next parts =>
      rw [joinWith_cons (by simp), inked, inked, List.filter_append,
        List.filter_cons_of_neg (by decide)]
      rfl

/-- Something is on the line. -/
def HasInk (text : List Char) (k : Nat) : Prop :=
  ∃ raw, (lines text)[k]? = some raw ∧ inked raw ≠ []

/-- The line of a cut, the last line being followed by the end of the text. -/
def cutPoint (text : List Char) (k : Option Nat) : Nat :=
  k.getD (lines text).length

theorem textBefore_eq (text : List Char) (k : Option Nat) :
    textBefore text k = joinWith ['\n'] ((lines text).take (cutPoint text k)) := by
  cases k with
  | some k => rfl
  | none => rw [textBefore, cutPoint, Option.getD_none, List.take_length, lines, joinWith_splitOn]

theorem inked_take_ne {text : List Char} {j k : Nat} (hjk : j < k) (hj : HasInk text j) :
    ((lines text).take j).flatMap inked ≠ ((lines text).take k).flatMap inked := by
  intro heq
  obtain ⟨raw, hraw, hink⟩ := hj
  have hline : (lines text).take (j + 1) = (lines text).take j ++ [raw] := by
    rw [List.take_add_one, hraw, Option.toList_some]
  obtain ⟨tail, htail⟩ := List.take_prefix_take_left (l := lines text) (Nat.succ_le_of_lt hjk)
  rw [← htail, Nat.succ_eq_add_one, hline, List.append_assoc, List.flatMap_append,
    List.singleton_append, List.flatMap_cons, List.self_eq_append_right,
    List.append_eq_nil_iff] at heq
  exact hink heq.1

/-- A cut is made at the end of the text or at a line with something on it. -/
def IsCut (text : List Char) (k : Option Nat) : Prop :=
  ∀ i, k = some i → HasInk text i

theorem HasInk.lt_length {text : List Char} {k : Nat} (h : HasInk text k) :
    k < (lines text).length := by
  obtain ⟨raw, hraw, -⟩ := h
  exact (List.getElem?_eq_some_iff.mp hraw).1

theorem IsCut.cutPoint_le {text : List Char} {k : Option Nat} (h : IsCut text k) :
    cutPoint text k ≤ (lines text).length := by
  cases k with
  | none => exact le_refl _
  | some k => exact (h k rfl).lt_length.le

theorem IsCut.hasInk {text : List Char} {k : Option Nat} (h : IsCut text k)
    (hlt : cutPoint text k < (lines text).length) : HasInk text (cutPoint text k) := by
  cases k with
  | none => exact absurd hlt (lt_irrefl _)
  | some k => exact h k rfl

theorem IsCut.eq_of_cutPoint_eq {text : List Char} {j k : Option Nat} (hj : IsCut text j)
    (hk : IsCut text k) (h : cutPoint text j = cutPoint text k) : j = k := by
  cases j with
  | none =>
    cases k with
    | none => rfl
    | some k => exact absurd h.symm (hk k rfl).lt_length.ne
  | some j =>
    cases k with
    | none => exact absurd h (hj j rfl).lt_length.ne
    | some k => exact congrArg some h

/-- Texts that are cut in different places differ. -/
theorem strip_textBefore_inj {text : List Char} {j k : Option Nat} (hj : IsCut text j)
    (hk : IsCut text k) (h : strip (textBefore text j) = strip (textBefore text k)) : j = k := by
  have hinked := congrArg inked h
  rw [inked_strip, inked_strip, textBefore_eq, textBefore_eq, inked_joinWith,
    inked_joinWith] at hinked
  rcases lt_trichotomy (cutPoint text j) (cutPoint text k) with hlt | heq | hlt
  · exact absurd hinked (inked_take_ne hlt (hj.hasInk (hlt.trans_le hk.cutPoint_le)))
  · exact hj.eq_of_cutPoint_eq hk heq
  · exact absurd hinked.symm (inked_take_ne hlt (hk.hasInk (hlt.trans_le hj.cutPoint_le)))

/-! ## Agreement -/

theorem isCut_stopLine (text : List Char) : IsCut text (stopLine? text) := by
  intro k h
  obtain ⟨raw, hraw, hmarker⟩ := isMarker_of_stopLine h
  refine ⟨raw, hraw, ?_⟩
  rw [← inked_strip, hmarker]
  decide

theorem isCut_cutLine (text : List Char) : IsCut text (cutLine? text) := by
  intro k h
  obtain ⟨raw, hraw, hstarts⟩ := startsWith_of_cutLine h
  obtain ⟨rest, rfl⟩ := startsWith_iff.mp hstarts
  refine ⟨_, hraw, ?_⟩
  rw [inked, List.filter_append]
  exact List.append_ne_nil_of_left_ne_nil (by decide) _

/-- What is left without the data is what is before the stop exactly if stop and cut are one. -/
theorem withoutPatch_eq_iff {text : List Char} :
    withoutPatch text = strip (textBefore text (stopLine? text)) ↔
      stopLine? text = cutLine? text := by
  rw [withoutPatch_eq]
  constructor
  · exact fun h => (strip_textBefore_inj (isCut_cutLine text) (isCut_stopLine text) h).symm
  · intro h
    rw [h]

theorem isSome_of_mem {text : List Char} (h : endMarker ∈ lines text) :
    (stopLine? text).isSome ∨ (cutLine? text).isSome := by
  obtain ⟨line, rest, hlines⟩ := List.exists_cons_of_ne_nil (splitOn_ne_nil '\n' text)
  rw [lines, hlines] at h
  rcases List.mem_cons.mp h with rfl | hmem
  · exact .inl (isSome_stopLine_of_head hlines)
  · exact .inr ((isSome_cutLine_iff hlines).mpr ⟨endMarker, hmem, by decide⟩)

/--
**The three readers agree if walk and cut end at one line.** They do agree if the walk stops at the
line at which the text is cut, or both go on to the end, and if there is some line `__END__`,
without blanks around it, in case they stop.
-/
theorem markersAgree_iff (text : List Char) :
    MarkersAgree text ↔ stopLine? text = cutLine? text ∧
      ((stopLine? text).isSome → endMarker ∈ lines text) := by
  constructor
  · intro h
    refine ⟨withoutPatch_eq_iff.mp ?_, fun hstops => hasEndLine_iff.mp (h.search.mpr hstops)⟩
    cases hstop : stopLine? text with
    | some k => exact h.cut k hstop
    | none => exact h.whole hstop
  · rintro ⟨hcut, hline⟩
    have hleft := withoutPatch_eq_iff.mpr hcut
    refine ⟨?_, fun k hk => hk ▸ hleft, fun hnone => ?_⟩
    · rw [hasEndLine_iff]
      refine ⟨fun hmem => ?_, hline⟩
      rcases isSome_of_mem hmem with hstops | hcuts
      · exact hstops
      · rwa [hcut]
    · rw [hnone] at hleft
      exact hleft

/-- A patch behind the class is found by all three. A patch without a class before it is not cut
off, and neither is a word that only starts like the marker left. -/
theorem markersAgree_samples :
    MarkersAgree "class Foo < Formula\nend\n__END__\n+a\n".toList ∧
      ¬ MarkersAgree "__END__\n+a\n".toList ∧
        ¬ MarkersAgree "class Foo < Formula\nend\n__END__of\n".toList ∧
          ¬ MarkersAgree "class Foo < Formula\nend\n __END__\n+a\n".toList := by
  refine ⟨(markersAgree_iff _).mpr ?_, (markersAgree_iff _).not.mpr ?_,
    (markersAgree_iff _).not.mpr ?_, (markersAgree_iff _).not.mpr ?_⟩
  all_goals decide +kernel

end TapAudit.Script
