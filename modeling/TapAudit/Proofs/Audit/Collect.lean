import Mathlib.Data.List.Nodup
import TapAudit.Audit
import TapAudit.Proofs.Except
import TapAudit.Proofs.FileTree

/-!
# The files of an audit

- `collect_succeeds_iff`: the files can be named unless some name is too long or some path cannot be
  resolved.
- `collect_locations_nodup`: no two files of an audit lead to one location.
- `collect_texts_nodup`: nor are two of them written alike.
-/

namespace TapAudit.Audit

/-! ## Files that can be named -/

/-- The path can be followed: no name on the way is too long, nor is the path itself. -/
def IsShort (w : World) (path : Path) : Prop :=
  w.tree.lookup w.cwd path ≠ .error .nameTooLong

theorem isDirectory_succeeds_iff {w : World} {path : Path} :
    (∃ b, isDirectory w path = .ok b) ↔ IsShort w path := by
  rw [isDirectory, IsShort, FileTree.isDirectory]
  split
  · next h => simp [h, Except.mapError]
  · next h => simp [h, Except.mapError]
  · next h => exact ⟨fun _ => h, fun _ => ⟨false, rfl⟩⟩

theorem isFile_succeeds_iff {w : World} {path : Path} :
    (∃ b, isFile w path = .ok b) ↔ IsShort w path := by
  rw [isFile, IsShort, FileTree.isFile]
  split
  · next h => simp [h, Except.mapError]
  · next h => simp [h, Except.mapError]
  · next h => exact ⟨fun _ => h, fun _ => ⟨false, rfl⟩⟩

theorem enterAll_succeeds_iff {w : World} {paths : List Path} :
    enterAll w paths = .ok () ↔ ∀ path ∈ paths, IsShort w path := by
  induction paths with
  | nil => exact ⟨fun _ _ hmem => absurd hmem List.not_mem_nil, fun _ => rfl⟩
  | cons path rest ih =>
    rw [List.forall_mem_cons, ← ih, ← isDirectory_succeeds_iff, enterAll, bind_eq_ok]
    exact ⟨fun ⟨b, hb, h⟩ => ⟨⟨b, hb⟩, h⟩, fun ⟨⟨b, hb⟩, h⟩ => ⟨b, hb, h⟩⟩

theorem onlyFiles_cons {w : World} {path : Path} {rest files : List Path} :
    onlyFiles w (path :: rest) = .ok files ↔
      ∃ kept others, isFile w path = .ok kept ∧ onlyFiles w rest = .ok others ∧
        files = if kept then path :: others else others := by
  rw [onlyFiles, bind_eq_ok]
  constructor
  · rintro ⟨kept, hkept, h⟩
    obtain ⟨others, hothers, h⟩ := bind_eq_ok.mp h
    exact ⟨kept, others, hkept, hothers, (Except.ok.inj h).symm⟩
  · rintro ⟨kept, others, hkept, hothers, rfl⟩
    exact ⟨kept, hkept, bind_eq_ok.mpr ⟨others, hothers, rfl⟩⟩

theorem onlyFiles_succeeds_iff {w : World} {paths : List Path} :
    (∃ files, onlyFiles w paths = .ok files) ↔ ∀ path ∈ paths, IsShort w path := by
  induction paths with
  | nil => exact ⟨fun _ _ hmem => absurd hmem List.not_mem_nil, fun _ => ⟨[], rfl⟩⟩
  | cons path rest ih =>
    rw [List.forall_mem_cons, ← ih, ← isFile_succeeds_iff]
    constructor
    · rintro ⟨files, h⟩
      obtain ⟨kept, others, hkept, hothers, -⟩ := onlyFiles_cons.mp h
      exact ⟨⟨kept, hkept⟩, others, hothers⟩
    · rintro ⟨⟨kept, hkept⟩, others, hothers⟩
      exact ⟨_, onlyFiles_cons.mpr ⟨kept, others, hkept, hothers, rfl⟩⟩

theorem isFile_of_mem_onlyFiles {w : World} {paths files : List Path}
    (h : onlyFiles w paths = .ok files) : ∀ file ∈ files, isFile w file = .ok true := by
  induction paths generalizing files with
  | nil =>
    cases h
    exact fun _ hmem => absurd hmem List.not_mem_nil
  | cons path rest ih =>
    obtain ⟨kept, others, hkept, hothers, rfl⟩ := onlyFiles_cons.mp h
    cases kept with
    | false => exact ih hothers
    | true => exact List.forall_mem_cons.mpr ⟨hkept, ih hothers⟩

/-- What is met below a directory: the directories and the formula files. -/
def metBelow (w : World) (directory : Path) : List Path :=
  match w.tree.lookup w.cwd directory with
  | .ok (location, _) =>
    (w.tree.directoriesBelow location ++ w.tree.filesBelow location formulaEnding).map
      directory.below
  | .error _ => []

theorem filesOf_succeeds_iff {w : World} {directory : Path} :
    (∃ files, filesOf w directory = .ok files) ↔
      ∀ path ∈ metBelow w directory, IsShort w path := by
  rw [filesOf, metBelow]
  cases w.tree.lookup w.cwd directory with
  | error fault => exact ⟨fun _ _ hmem => absurd hmem List.not_mem_nil, fun _ => ⟨[], rfl⟩⟩
  | ok place =>
    dsimp only
    rw [List.map_append, List.forall_mem_append, ← enterAll_succeeds_iff, ← onlyFiles_succeeds_iff]
    simp only [bind_eq_ok]
    exact ⟨fun ⟨files, _, henter, h⟩ => ⟨henter, files, h⟩,
      fun ⟨henter, files, h⟩ => ⟨files, (), henter, h⟩⟩

theorem expand_eq_ok {w : World} {c : Config} {path : Path} {files : List Path} :
    expand w c path = .ok files ↔
      (isDirectory w path = .ok false ∧ files = [path]) ∨
        ∃ inside, isDirectory w path = .ok true ∧
          isDirectory w (path.join (Path.ofText c.formulaDir)) = .ok inside ∧
          filesOf w (if inside then path.join (Path.ofText c.formulaDir) else path) =
            .ok files := by
  rw [expand, bind_eq_ok]
  constructor
  · rintro ⟨entered, hentered, h⟩
    cases entered with
    | false => exact .inl ⟨hentered, (Except.ok.inj h).symm⟩
    | true =>
      obtain ⟨inside, hinside, h⟩ := bind_eq_ok.mp h
      exact .inr ⟨inside, hentered, hinside, h⟩
  · rintro (⟨hentered, rfl⟩ | ⟨inside, hentered, hinside, h⟩)
    · exact ⟨false, hentered, rfl⟩
    · exact ⟨true, hentered, bind_eq_ok.mpr ⟨inside, hinside, h⟩⟩

theorem expandAll_cons {w : World} {c : Config} {path : Path} {rest files : List Path} :
    expandAll w c (path :: rest) = .ok files ↔
      ∃ first others, expand w c path = .ok first ∧ expandAll w c rest = .ok others ∧
        files = first ++ others := by
  rw [expandAll, bind_eq_ok]
  constructor
  · rintro ⟨first, hfirst, h⟩
    obtain ⟨others, hothers, h⟩ := bind_eq_ok.mp h
    exact ⟨first, others, hfirst, hothers, (Except.ok.inj h).symm⟩
  · rintro ⟨first, others, hfirst, hothers, rfl⟩
    exact ⟨first, hfirst, bind_eq_ok.mpr ⟨others, hothers, rfl⟩⟩

theorem expandAll_succeeds_iff {w : World} {c : Config} {paths : List Path} {P : Path → Prop} :
    (∃ files, expandAll w c paths = .ok files ∧ ∀ file ∈ files, P file) ↔
      ∀ path ∈ paths, ∃ files, expand w c path = .ok files ∧ ∀ file ∈ files, P file := by
  induction paths with
  | nil =>
    exact ⟨fun _ _ hmem => absurd hmem List.not_mem_nil,
      fun _ => ⟨[], rfl, fun _ hmem => absurd hmem List.not_mem_nil⟩⟩
  | cons path rest ih =>
    rw [List.forall_mem_cons, ← ih]
    constructor
    · rintro ⟨files, hfiles, hP⟩
      obtain ⟨first, others, hfirst, hothers, rfl⟩ := expandAll_cons.mp hfiles
      rw [List.forall_mem_append] at hP
      exact ⟨⟨first, hfirst, hP.1⟩, others, hothers, hP.2⟩
    · rintro ⟨⟨first, hfirst, hPfirst⟩, others, hothers, hPothers⟩
      exact ⟨_, expandAll_cons.mpr ⟨first, others, hfirst, hothers, rfl⟩,
        List.forall_mem_append.mpr ⟨hPfirst, hPothers⟩⟩

theorem distinct_cons {w : World} {location : Location} {path : Path}
    (h : w.tree.resolve w.cwd path = .ok location) (seen : List Location) (rest : List Path) :
    distinct w seen (path :: rest) =
      if seen.contains location then distinct w seen rest
      else (distinct w (location :: seen) rest).map (path :: ·) := by
  rw [distinct, h]
  change (if seen.contains location then _ else _) = _
  split
  · rfl
  · cases distinct w (location :: seen) rest <;> rfl

theorem distinct_succeeds_iff {w : World} {seen : List Location} {paths : List Path} :
    (∃ files, distinct w seen paths = .ok files) ↔
      ∀ path ∈ paths, ∃ location, w.tree.resolve w.cwd path = .ok location := by
  induction paths generalizing seen with
  | nil => exact ⟨fun _ _ hmem => absurd hmem List.not_mem_nil, fun _ => ⟨[], rfl⟩⟩
  | cons path rest ih =>
    rw [List.forall_mem_cons]
    cases hresolve : w.tree.resolve w.cwd path with
    | error fault => simp [distinct, hresolve, Except.mapError, bind, Except.bind]
    | ok location =>
      rw [distinct_cons hresolve]
      split
      · simp [ih]
      · simp [map_eq_ok, ih]

theorem collect_succeeds_iff {w : World} {c : Config} {paths : List Path} :
    (∃ files, collect w c paths = .ok files) ↔
      ∀ path ∈ paths, ∃ files, expand w c path = .ok files ∧
        ∀ file ∈ files, ∃ location, w.tree.resolve w.cwd file = .ok location := by
  rw [← expandAll_succeeds_iff]
  simp only [collect, bind_eq_ok]
  constructor
  · rintro ⟨files, found, hfound, hfiles⟩
    exact ⟨found, hfound, distinct_succeeds_iff.mp ⟨files, hfiles⟩⟩
  · rintro ⟨found, hfound, hresolve⟩
    obtain ⟨files, hfiles⟩ := distinct_succeeds_iff.mpr hresolve
    exact ⟨files, found, hfound, hfiles⟩

theorem distinct_sublist {w : World} {seen : List Location} {paths files : List Path}
    (h : distinct w seen paths = .ok files) : files.Sublist paths := by
  induction paths generalizing seen files with
  | nil =>
    cases h
    exact List.Sublist.slnil
  | cons path rest ih =>
    obtain ⟨location, hresolve⟩ := distinct_succeeds_iff.mp ⟨files, h⟩ path List.mem_cons_self
    rw [distinct_cons hresolve] at h
    split at h
    · exact (ih h).cons path
    · obtain ⟨others, hothers, rfl⟩ := map_eq_ok.mp h
      exact (ih hothers).cons_cons path

/-! ## Files that are not named twice -/

theorem distinct_locations_nodup {w : World} {seen : List Location} {paths files : List Path}
    (h : distinct w seen paths = .ok files) :
    (files.map (Path.locate w.cwd)).Nodup ∧ ∀ file ∈ files, file.locate w.cwd ∉ seen := by
  induction paths generalizing seen files with
  | nil =>
    cases h
    exact ⟨List.nodup_nil, fun _ hmem => absurd hmem List.not_mem_nil⟩
  | cons path rest ih =>
    obtain ⟨location, hresolve⟩ := distinct_succeeds_iff.mp ⟨files, h⟩ path List.mem_cons_self
    have hlocate := FileTree.locate_of_resolve hresolve
    rw [distinct_cons hresolve] at h
    split at h
    · exact ih h
    · next hnew =>
      obtain ⟨others, hothers, rfl⟩ := map_eq_ok.mp h
      obtain ⟨hnodup, hseen⟩ := ih hothers
      have hpath : path.locate w.cwd ∉ others.map (Path.locate w.cwd) := by
        rw [List.mem_map]
        rintro ⟨file, hmem, heq⟩
        exact hseen file hmem (by rw [heq, hlocate]; exact List.mem_cons_self)
      refine ⟨List.nodup_cons.mpr ⟨hpath, hnodup⟩, fun file hmem => ?_⟩
      rcases List.mem_cons.mp hmem with rfl | hmem
      · rw [hlocate]
        exact fun hold => hnew (List.contains_iff_mem.mpr hold)
      · exact fun hold => hseen file hmem (List.mem_cons_of_mem _ hold)

theorem collect_locations_nodup {w : World} {c : Config} {paths files : List Path}
    (h : collect w c paths = .ok files) : (files.map (Path.locate w.cwd)).Nodup := by
  obtain ⟨found, -, hdistinct⟩ := bind_eq_ok.mp h
  exact (distinct_locations_nodup hdistinct).1

theorem collect_nodup {w : World} {c : Config} {paths files : List Path}
    (h : collect w c paths = .ok files) : files.Nodup :=
  List.Nodup.of_map _ (collect_locations_nodup h)

/-! ## Files that are not written alike -/

/-- The names of the files and of the directories on the way to them can stand in a path. -/
def HasNames (tree : FileTree) : Prop :=
  ∀ file ∈ tree.files, ∀ name ∈ file.1, Path.IsName name

theorem isName_of_mem_filesBelow {tree : FileTree} (htree : HasNames tree) {location : Location}
    {ending : List Char} {names : List Name} (h : names ∈ tree.filesBelow location ending) :
    ∀ name ∈ names, Path.IsName name := by
  unfold FileTree.filesBelow at h
  obtain ⟨⟨file, content⟩, hfile, h⟩ := List.mem_filterMap.mp (List.mem_mergeSort.mp h)
  dsimp only at h
  split at h
  · next below hbelow =>
    have hfound := htree _ hfile
    rw [← List.isPrefixOf?_eq_some_iff_append_eq.mp hbelow] at hfound
    split at h
    · cases h
      intro name hname
      exact hfound name (List.mem_append_right location hname)
    · cases h
  · cases h

theorem mem_of_mem_onlyFiles {w : World} {paths files : List Path}
    (h : onlyFiles w paths = .ok files) : ∀ file ∈ files, file ∈ paths := by
  induction paths generalizing files with
  | nil =>
    cases h
    exact fun _ hmem => hmem
  | cons path rest ih =>
    obtain ⟨kept, others, -, hothers, rfl⟩ := onlyFiles_cons.mp h
    intro file hmem
    cases kept with
    | false => exact List.mem_cons_of_mem path (ih hothers file hmem)
    | true =>
      rcases List.mem_cons.mp hmem with rfl | hmem
      · exact List.mem_cons_self
      · exact List.mem_cons_of_mem path (ih hothers file hmem)

section

variable {w : World} (htree : HasNames w.tree)

include htree

theorem isSpelled_of_mem_filesOf {directory : Path} (hdirectory : directory.IsSpelled)
    {files : List Path} (h : filesOf w directory = .ok files) :
    ∀ file ∈ files, file.IsSpelled := by
  unfold filesOf at h
  split at h
  · next location _ _ =>
    obtain ⟨_, -, hfiles⟩ := bind_eq_ok.mp h
    intro file hmem
    obtain ⟨names, hnames, rfl⟩ := List.mem_map.mp (mem_of_mem_onlyFiles hfiles file hmem)
    exact hdirectory.below (isName_of_mem_filesBelow htree hnames)
  · cases h
    exact fun _ hmem => absurd hmem List.not_mem_nil

theorem isSpelled_of_mem_expand {c : Config} {path : Path} (hpath : path.IsSpelled)
    {files : List Path} (h : expand w c path = .ok files) : ∀ file ∈ files, file.IsSpelled := by
  rcases expand_eq_ok.mp h with ⟨-, rfl⟩ | ⟨inside, -, -, hfiles⟩
  · intro file hmem
    rw [List.mem_singleton.mp hmem]
    exact hpath
  · have hinner := hpath.join (Path.isSpelled_ofText c.formulaDir)
    cases inside with
    | false => exact isSpelled_of_mem_filesOf htree hpath hfiles
    | true => exact isSpelled_of_mem_filesOf htree hinner hfiles

theorem isSpelled_of_mem_collect {c : Config} {words : List (List Char)} {files : List Path}
    (h : collect w c (words.map Path.ofText) = .ok files) : ∀ file ∈ files, file.IsSpelled := by
  obtain ⟨found, hfound, hdistinct⟩ := bind_eq_ok.mp h
  -- every path is spelled, and so is what it expands to
  have hexpand : ∀ path ∈ words.map Path.ofText,
      ∃ files, expand w c path = .ok files ∧ ∀ file ∈ files, file.IsSpelled := by
    intro path hpath
    obtain ⟨text, -, rfl⟩ := List.mem_map.mp hpath
    obtain ⟨files, hfiles, -⟩ :=
      expandAll_succeeds_iff.mp ⟨found, hfound, fun _ _ => trivial⟩ _ hpath
    exact ⟨files, hfiles, isSpelled_of_mem_expand htree (Path.isSpelled_ofText text) hfiles⟩
  obtain ⟨found', hfound', hspelled⟩ := expandAll_succeeds_iff.mpr hexpand
  cases hfound.symm.trans hfound'
  intro file hmem
  exact hspelled file ((distinct_sublist hdistinct).subset hmem)

theorem collect_texts_nodup {c : Config} {words : List (List Char)} {files : List Path}
    (h : collect w c (words.map Path.ofText) = .ok files) : (files.map Path.toText).Nodup := by
  have hspelled := isSpelled_of_mem_collect htree h
  refine List.Nodup.map_on ?_ (collect_nodup h)
  intro file hfile other hother htext
  exact (Path.toText_inj (hspelled file hfile) (hspelled other hother)).mp htext

end

end TapAudit.Audit
