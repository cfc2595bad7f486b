import TapAudit.Proofs.Script.EndMarker

/-!
# The line of a marker

A marker can be looked for in the whole text or in each line by itself. The search in the whole text
may start many lines above the word `DATA`, since all but a comment sign may stand in front of the
word. It still finds no more than the search line by line: from the line of the word on there is no
comment sign in front of it either.

- `lineWith?_eq_some_iff`: the search line by line gives the first line with a property.
- `usesDataFrom_iff`: the data is used where the word `DATA` stands behind no comment sign.
- `SearchesAgree.of_isIn_iff`: both searches agree on a marker that is found by its lines.
- `searchesAgree`: **both searches agree on the use of inline data and on the line `__END__`.**
-/

namespace TapAudit.Script

open Text

/-! ## The first line with a property -/

/-- The line with this number, counted from 1, is the first with a property. -/
def IsFirstLine (P : List Char → Prop) (text : List Char) (number : Nat) : Prop :=
  ∃ earlier line later, lines text = earlier ++ line :: later ∧ number = earlier.length + 1 ∧
    P line ∧ ∀ other ∈ earlier, ¬ P other

section

variable {P : List Char → Prop} {p : List Char → Bool} {text : List Char}

theorem lineWith?_eq_some_iff (h : ∀ line ∈ lines text, p line = true ↔ P line) {number : Nat} :
    lineWith? p text = some number ↔ IsFirstLine P text number := by
  rw [lineWith?, Option.map_eq_some_iff]
  constructor
  · rintro ⟨k, hk, rfl⟩
    obtain ⟨hlt, hline, hearlier⟩ := List.findIdx?_eq_some_iff_getElem.mp hk
    refine ⟨(lines text).take k, (lines text)[k], (lines text).drop (k + 1), ?_, ?_,
      (h _ (List.getElem_mem hlt)).mp hline, ?_⟩
    · rw [← List.drop_eq_getElem_cons hlt, List.take_append_drop]
    · rw [List.length_take_of_le hlt.le]
    · intro other hother hP
      obtain ⟨j, hj, rfl⟩ := List.mem_take_iff_getElem.mp hother
      exact hearlier j (by omega) ((h _ (List.getElem_mem _)).mpr hP)
  · rintro ⟨earlier, line, later, hlines, rfl, hline, hearlier⟩
    rw [hlines] at h ⊢
    have hfound : p line = true := (h line (by simp)).mpr hline
    have hnone : earlier.findIdx? p = none := by
      refine List.findIdx?_eq_none_iff.mpr fun other hother => ?_
      rw [← Bool.not_eq_true, h other (List.mem_append_left _ hother)]
      exact hearlier other hother
    refine ⟨earlier.length, ?_, rfl⟩
    rw [List.findIdx?_append, hnone, Option.none_or, List.findIdx?_cons, if_pos hfound,
      Option.map_some, Nat.zero_add]

theorem isSome_lineWith?_iff (h : ∀ line ∈ lines text, p line = true ↔ P line) :
    (lineWith? p text).isSome = true ↔ ∃ line ∈ lines text, P line := by
  rw [lineWith?, Option.isSome_map, List.findIdx?_isSome, List.any_eq_true]
  exact exists_congr fun line => and_congr_right (h line)

end

/-! ## The word `DATA` -/

/-- The word `DATA` stands on the line, and on that line no comment sign is in front of it. -/
def IsDataLine (line : List Char) : Prop :=
  ∃ front back, line = front ++ ("DATA".toList ++ back) ∧ '#' ∉ front ∧
    endsWord front.getLast? = false ∧ startsWord back = false

theorem startsDataWord_iff {before : Option Char} {text : List Char} :
    startsDataWord before text = true ↔
      ∃ back, text = "DATA".toList ++ back ∧ endsWord before = false ∧ startsWord back = false := by
  have hboundary (back : List Char) :
      atBoundary before ("DATA".toList ++ back) = !endsWord before := by
    rw [atBoundary, show startsWord ("DATA".toList ++ back) = true from rfl, Bool.bne_true]
  rw [startsDataWord]
  constructor
  · intro h
    split at h
    · next back hback =>
      obtain rfl := after?_eq_some_iff.mp hback
      rw [hboundary, Bool.and_eq_true, Bool.not_eq_true', Bool.not_eq_true'] at h
      exact ⟨back, rfl, h⟩
    · cases h
  · rintro ⟨back, rfl, hbefore, hback⟩
    have hafter : after? "DATA" ("DATA".toList ++ back) = some back := after?_eq_some_iff.mpr rfl
    rw [hafter]
    dsimp only
    rw [hboundary, hbefore, hback]
    rfl

theorem usesDataFrom_iff {before : Option Char} {text : List Char} :
    usesDataFrom before text = true ↔
      ∃ front back, text = front ++ ("DATA".toList ++ back) ∧ '#' ∉ front ∧
        endsWord (front.getLast?.or before) = false ∧ startsWord back = false := by
  induction text generalizing before with
  | nil =>
    constructor
    · intro h
      cases h
    · rintro ⟨front, back, htext, -⟩
      simp at htext
  | cons c text ih =>
    -- the character that is passed over stands before what is left
    have hlast (front : List Char) :
        (c :: front).getLast?.or before = front.getLast?.or (some c) := by
      rw [List.getLast?_cons, Option.some_or, Option.or_some]
    rw [usesDataFrom, Bool.or_eq_true, Bool.and_eq_true, bne_iff_ne, startsDataWord_iff, ih]
    constructor
    · rintro (⟨back, htext, hbefore, hback⟩ | ⟨hc, front, back, rfl, hfront, hbefore, hback⟩)
      · exact ⟨[], back, htext, List.not_mem_nil, hbefore, hback⟩
      · refine ⟨c :: front, back, rfl, ?_, ?_, hback⟩
        · exact List.not_mem_cons_of_ne_of_not_mem hc.symm hfront
        · rwa [hlast]
    · rintro ⟨front, back, htext, hfront, hbefore, hback⟩
      cases front with
      | nil => exact .inl ⟨back, htext, hbefore, hback⟩
      | cons d front =>
        obtain ⟨rfl, rfl⟩ := List.cons.inj htext
        rw [hlast] at hbefore
        exact .inr ⟨(List.ne_of_not_mem_cons hfront).symm, front, back, rfl,
          List.not_mem_of_not_mem_cons hfront, hbefore, hback⟩

theorem usesDataFrom_none_iff {line : List Char} :
    usesDataFrom none line = true ↔ IsDataLine line := by
  simp only [usesDataFrom_iff, Option.or_none, IsDataLine]

/-! ## Both searches -/

/-- The search for a marker in a whole text, which finds it or not, and the search line by line,
which gives the number of a line, agree that the marker is on the lines with a property. -/
structure SearchesAgree (P : List Char → Prop) (text : List Char) (found : Bool)
    (number? : Option Nat) : Prop where
  /-- One search finds the marker exactly if the other does. -/
  found_iff : found = true ↔ number?.isSome = true
  /-- They find it exactly if there is some line with the property. -/
  isSome_iff : number?.isSome = true ↔ ∃ line ∈ lines text, P line
  /-- The line that is given is the first with the property. -/
  eq_some_iff : ∀ number, number? = some number ↔ IsFirstLine P text number

/-- Both searches agree on a marker that is found exactly if it is on some line. -/
theorem SearchesAgree.of_isIn_iff {marker : Marker} {P : List Char → Prop}
    (h : ∀ text, marker.isIn text = true ↔ ∃ line ∈ lines text, P line) (text : List Char) :
    SearchesAgree P text (marker.isIn text) (lineWith? marker.isIn text) := by
  -- a line by itself is a text of one line
  have hline : ∀ line ∈ lines text, marker.isIn line = true ↔ P line := by
    intro line hmem
    have hlines : lines line = [line] := splitOn_eq_singleton (not_mem_of_mem_splitOn hmem)
    simp only [h, hlines, List.mem_singleton, exists_eq_left]
  have hsome := isSome_lineWith?_iff hline
  exact ⟨(h text).trans hsome.symm, hsome, fun _ => lineWith?_eq_some_iff hline⟩

/--
**Both searches agree on the use of inline data and on the line `__END__`.** A use of the data is
found exactly if the word `DATA` is on some line without a comment sign in front of it on that line,
and the start of the data exactly if some line is `__END__` and nothing else. The line that is given
is the first of these lines.
-/
theorem searchesAgree (text : List Char) :
    SearchesAgree IsDataLine text (usesData text) (lineWith? Marker.dataUse.isIn text) ∧
      SearchesAgree (· = endMarker) text (hasEndLine text)
        (lineWith? Marker.endLine.isIn text) := by
  constructor
  · refine .of_isIn_iff (fun text => ?_) text
    simp only [← usesDataFrom_none_iff]
    exact usesData_iff
  · refine .of_isIn_iff (fun text => ?_) text
    rw [exists_eq_right]
    exact hasEndLine_iff

/-- The header of a class may go on behind the line on which it starts. Then only the search in the
whole text finds it. -/
example :
    let text := "class Foo <\n  Formula\nend\n".toList
    isFormula text = true ∧ lineWith? Marker.formulaClass.isIn text = none := by
  decide

end TapAudit.Script
