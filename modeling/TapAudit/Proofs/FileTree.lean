import Mathlib.Data.List.Basic
import TapAudit.FileTree
import TapAudit.Proofs.Except
import TapAudit.Proofs.Path

/-!
# File trees

A path that leads to something leads to the location that its spelling gives, and what is listed
below a directory are the files of the tree whose locations go on from that of the directory.

- `resolve_eq_ok_iff`: the paths that can be resolved.
- `lookup_eq_ok`: where a path leads, and what is there.
- `mem_filesBelow_iff`: the files that are listed below a location.
- `sorted_filesBelow`: they are listed in order.
- `locate_below`: names without steps upwards lead further down.
-/

namespace TapAudit

namespace Path

theorem foldl_step_of_not_mem {names : List Name} (h : up ∉ names) (location : Location) :
    names.foldl step location = location ++ names := by
  induction names generalizing location with
  | nil => exact (List.append_nil location).symm
  | cons name names ih =>
    rw [List.mem_cons, not_or] at h
    rw [List.foldl_cons, step, if_neg (Ne.symm h.1), ih h.2, List.append_assoc,
      List.singleton_append]

theorem locate_below {names : List Name} (h : up ∉ names) (cwd : Location) (directory : Path) :
    (directory.below names).locate cwd = directory.locate cwd ++ names := by
  rw [locate, below, List.foldl_append, foldl_step_of_not_mem h, locate]

end Path

namespace FileTree

variable {tree : FileTree} {cwd location : Location} {path : Path}

/-! ## Where paths lead -/

/-- A path is resolved by its spelling if it can be held and does not lead into a loop of links. -/
theorem resolve_eq_ok_iff :
    tree.resolve cwd path = .ok location ↔
      (∀ part ∈ path.parts, '\x00' ∉ part) ∧ ¬ tree.leadsRound location ∧
        path.locate cwd = location := by
  rw [resolve, ← Path.holdsNull_eq_false_iff]
  split_ifs with hnull hround
  · simp [hnull]
  · simp only [false_iff, not_and]
    rintro - hnot rfl
    exact hnot hround
  · simp only [Except.ok.injEq]
    refine ⟨?_, fun h => h.2.2⟩
    rintro rfl
    exact ⟨Bool.eq_false_iff.mpr hnull, hround, rfl⟩

theorem resolve_succeeds_iff :
    (∃ location, tree.resolve cwd path = .ok location) ↔
      (∀ part ∈ path.parts, '\x00' ∉ part) ∧ ¬ tree.leadsRound (path.locate cwd) := by
  simp [resolve_eq_ok_iff]

theorem resolve_of_leadsRound (hnull : ∀ part ∈ path.parts, '\x00' ∉ part)
    (hround : tree.leadsRound (path.locate cwd)) :
    tree.resolve cwd path = .error (.linkLoop (path.locate cwd)) := by
  rw [resolve, if_neg (Bool.eq_false_iff.mp (Path.holdsNull_eq_false_iff.mpr hnull)), if_pos hround]

theorem locate_of_resolve (h : tree.resolve cwd path = .ok location) :
    path.locate cwd = location :=
  (resolve_eq_ok_iff.mp h).2.2

theorem follow_eq_ok {parts : List Name} {place : Location}
    (h : tree.follow location parts = .ok place) :
    parts.foldl Path.step location = place ∧ ¬ tree.leadsRound place := by
  induction parts generalizing location with
  | nil =>
    rw [follow] at h
    split at h
    · cases h
    · next hround =>
      split at h
      · cases h
        exact ⟨rfl, hround⟩
      · cases h
  | cons part rest ih =>
    rw [follow] at h
    split at h
    · cases h
    · split at h
      · cases h
      · cases h
      · split at h
        · cases h
        · exact ih h

theorem lookup_eq_ok {entry : Entry} (h : tree.lookup cwd path = .ok (location, entry)) :
    tree.resolve cwd path = .ok location ∧ tree.entry? location = some entry := by
  unfold lookup at h
  dsimp only at h
  split at h
  · cases h
  · next hnull =>
    split at h
    · cases h
    · obtain ⟨place, hfollow, h⟩ := bind_eq_ok.mp h
      have hentry : tree.entry? place = some entry ∧ place = location := by
        cases hplace : tree.entry? place with
        | none =>
          rw [hplace] at h
          cases h
        | some found =>
          rw [hplace] at h
          cases h
          exact ⟨rfl, rfl⟩
      obtain ⟨hentry, rfl⟩ := hentry
      obtain ⟨hplace, hround⟩ := follow_eq_ok hfollow
      have hheld := Path.holdsNull_eq_false_iff.mp (Bool.eq_false_iff.mpr hnull)
      exact ⟨resolve_eq_ok_iff.mpr ⟨hheld, hround, hplace⟩, hentry⟩

theorem isDirectory_eq_true_iff :
    tree.isDirectory cwd path = .ok true ↔
      ∃ location, tree.lookup cwd path = .ok (location, .directory) := by
  rw [isDirectory]
  split
  · next hlookup => simp [hlookup]
  · next hlookup => simp [hlookup]
  · next hother _ => simpa using hother

theorem isFile_eq_true_iff :
    tree.isFile cwd path = .ok true ↔
      ∃ location content, tree.lookup cwd path = .ok (location, .file content) := by
  rw [isFile]
  split
  · next hlookup => simp [hlookup]
  · next hlookup => simp [hlookup]
  · next hother _ => simpa using hother

theorem mem_files_of_entry? {content : List UInt8}
    (h : tree.entry? location = some (.file content)) :
    (location, content) ∈ tree.files := by
  unfold entry? at h
  split at h
  · next place found hfind =>
    cases h
    have hplace := List.find?_some hfind
    rw [← eq_of_beq hplace]
    exact List.mem_of_find?_eq_some hfind
  · split at h <;> cases h

/-! ## What is listed below a location -/

theorem mem_filesBelow_iff {ending : List Char} {names : List Name} :
    names ∈ tree.filesBelow location ending ↔
      (∃ content, (location ++ names, content) ∈ tree.files) ∧
        ending <:+ names.getLast?.getD [] := by
  unfold filesBelow
  rw [List.mem_mergeSort, List.mem_filterMap]
  constructor
  · rintro ⟨⟨file, content⟩, hfile, h⟩
    dsimp only at h
    split at h
    · next below hbelow =>
      split at h
      · next hending =>
        cases h
        rw [← List.isPrefixOf?_eq_some_iff_append_eq.mp hbelow] at hfile
        exact ⟨⟨content, hfile⟩, List.isSuffixOf_iff_suffix.mp hending⟩
      · cases h
    · cases h
  · rintro ⟨⟨content, hfile⟩, hending⟩
    have hbelow : location.isPrefixOf? (location ++ names) = some names :=
      List.isPrefixOf?_eq_some_iff_append_eq.mpr rfl
    refine ⟨_, hfile, ?_⟩
    dsimp only
    rw [hbelow]
    exact if_pos (List.isSuffixOf_iff_suffix.mpr hending)

theorem sorted_filesBelow (tree : FileTree) (location : Location) (ending : List Char) :
    (tree.filesBelow location ending).Pairwise fun a b => (compare a b).isLE = true := by
  refine List.pairwise_mergeSort (fun a b c hab hbc => ?_) (fun a b => ?_) _
  · exact Std.TransCmp.isLE_trans hab hbc
  · have hswap : compare b a = (compare a b).swap := Std.OrientedCmp.eq_swap
    show ((compare a b).isLE || (compare b a).isLE) = true
    rw [hswap]
    cases compare a b <;> rfl

end FileTree

end TapAudit
