import TapAudit.Path
import TapAudit.Proofs.Text.Lines

/-!
# Paths and their texts

`holdsNull_eq_false_iff`: a path that a file system can hold has no null character in any component.
`exists_mem_parts_iff`: a spelling passes such a character on to some component.
`ofText_toText`: a path is read again as it was written out.
-/

namespace TapAudit.Path

open Text

theorem holdsNull_eq_false_iff {path : Path} :
    path.holdsNull = false ↔ ∀ part ∈ path.parts, '\x00' ∉ part := by
  simp [holdsNull]

/-- What stands in a component stood in the spelling, and only slashes and single dots get lost. -/
theorem exists_mem_parts_iff {c : Char} (hslash : c ≠ '/') (hdot : c ≠ '.') {text : List Char} :
    (∃ part ∈ (ofText text).parts, c ∈ part) ↔ c ∈ text := by
  rw [← exists_mem_splitOn_iff hslash]
  refine exists_congr fun part => ?_
  rw [ofText]
  dsimp only
  rw [List.mem_filter, and_assoc]
  refine and_congr_right fun _ => and_iff_right_of_imp fun hc => ?_
  have hempty : part ≠ [] := List.ne_nil_of_mem hc
  have hsingle : part ≠ ['.'] := by
    rintro rfl
    exact hdot (List.mem_singleton.mp hc)
  simp [hempty, hsingle]

/-! ## Paths and their texts -/

/-- A component that no spelling loses or cuts in two. -/
def IsName (part : Name) : Prop :=
  part ≠ [] ∧ part ≠ ['.'] ∧ '/' ∉ part

/-- A path that some text spells. -/
structure IsSpelled (p : Path) : Prop where
  slashes_le : p.slashes ≤ 2
  isName : ∀ part ∈ p.parts, IsName part

theorem isSpelled_ofText (text : List Char) : (ofText text).IsSpelled := by
  constructor
  · unfold ofText
    dsimp only
    split <;> omega
  · intro part hpart
    unfold ofText at hpart
    obtain ⟨hmem, hkept⟩ := List.mem_filter.mp hpart
    rw [Bool.and_eq_true] at hkept
    refine ⟨?_, ?_, not_mem_of_mem_splitOn hmem⟩
    · rintro rfl
      cases hkept.1
    · rintro rfl
      cases hkept.2

theorem IsSpelled.below {directory : Path} (h : directory.IsSpelled) {names : List Name}
    (hnames : ∀ name ∈ names, IsName name) : (directory.below names).IsSpelled where
  slashes_le := h.slashes_le
  isName part hpart := (List.mem_append.mp hpart).elim (h.isName part) (hnames part)

theorem IsSpelled.join {p q : Path} (hp : p.IsSpelled) (hq : q.IsSpelled) :
    (p.join q).IsSpelled := by
  unfold Path.join
  split
  · exact hp.below hq.isName
  · exact hq

theorem splitOn_replicate_append (n : Nat) (text : List Char) :
    splitOn '/' (List.replicate n '/' ++ text) = List.replicate n [] ++ splitOn '/' text := by
  induction n with
  | zero => rfl
  | succ n ih =>
    rw [List.replicate_succ, List.cons_append, splitOn_cons_self, ih]
    rfl

theorem takeWhile_slashes {parts : List Name} (h : ∀ part ∈ parts, IsName part) (n : Nat) :
    (List.replicate n '/' ++ joinWith ['/'] parts).takeWhile (· == '/') = List.replicate n '/' := by
  rw [List.takeWhile_append_of_pos (by simp)]
  cases parts with
  | nil => exact List.append_nil _
  | cons part parts =>
    obtain ⟨hne, -, hslash⟩ := h part List.mem_cons_self
    obtain ⟨rest, hjoin⟩ := prefix_joinWith ['/'] part parts
    obtain ⟨c, part, rfl⟩ := List.exists_cons_of_ne_nil hne
    have hc : c ≠ '/' := by
      rintro rfl
      exact hslash List.mem_cons_self
    rw [← hjoin, List.cons_append]
    simp [hc]

theorem filter_splitOn_joinWith {parts : List Name} (h : ∀ part ∈ parts, IsName part) :
    (splitOn '/' (joinWith ['/'] parts)).filter (fun part => !part.isEmpty && part != ['.']) =
      parts := by
  by_cases hne : parts = []
  · subst hne
    rfl
  · rw [splitOn_joinWith hne fun part hpart => (h part hpart).2.2]
    refine List.filter_eq_self.mpr fun part hpart => ?_
    obtain ⟨hempty, hdot, -⟩ := h part hpart
    simp [hempty, hdot]

theorem ofText_toText {p : Path} (h : p.IsSpelled) : ofText p.toText = p := by
  obtain ⟨slashes, parts⟩ := p
  have hslashes : slashes ≤ 2 := h.slashes_le
  have hread : ofText (List.replicate slashes '/' ++ joinWith ['/'] parts) = ⟨slashes, parts⟩ := by
    unfold ofText
    have hlost : (List.replicate slashes ([] : Name)).filter
        (fun part => !part.isEmpty && part != ['.']) = [] := by simp
    rw [takeWhile_slashes h.isName, splitOn_replicate_append, List.filter_append,
      filter_splitOn_joinWith h.isName, List.length_replicate, hlost]
    dsimp only
    rw [if_pos hslashes, List.nil_append]
  unfold toText
  split
  · next hempty =>
    rw [hempty] at hread
    exact hread
  · exact hread

theorem toText_inj {p q : Path} (hp : p.IsSpelled) (hq : q.IsSpelled) :
    p.toText = q.toText ↔ p = q := by
  constructor
  · intro htext
    rw [← ofText_toText hp, htext, ofText_toText hq]
  · rintro rfl
    rfl

end TapAudit.Path

namespace TapAudit.Location

theorem relativeTo?_eq_some_iff {location base : Location} {names : List Name} :
    location.relativeTo? base = some names ↔ location = base ++ names := by
  rw [relativeTo?, List.isPrefixOf?_eq_some_iff_append_eq, eq_comm]

end TapAudit.Location
