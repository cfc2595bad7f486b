import TapAudit.Proofs.Audit.Independence
import TapAudit.Proofs.FileTree
import TapAudit.Proofs.Version.Order

/-!
# What is collected

Each path that is given stands for itself or, if it is a directory, for the formula files below it
or below its directory of formulae. The paths are expanded one after the other, and of all paths to
one location the first is kept, where it stands and as it is spelled.

- `isSorted_of_filesOf`, `mem_filesOf_iff`: the files of a directory are the formula files below it,
  in order.
- `isExpansion_of_expand`: what a path expands to is what it stands for.
- `areFirst_of_distinct`: the first path to each location is kept.
- `collect_exact`: **nothing is lost, nothing is collected twice, and collecting again changes
  nothing.**
-/

namespace TapAudit.Audit

/-! ## The files below a directory -/

/-- No name on the way to a file is that of a step upwards, which no file or directory can have. -/
def HasNoSteps (tree : FileTree) : Prop :=
  ∀ file ∈ tree.files, Path.up ∉ file.1

/-- A formula file that lies below a directory and is spelled from it. -/
structure IsFormulaBelow (w : World) (directory file : Path) : Prop where
  isFile : isFile w file = .ok true
  ending : formulaEnding <:+ file.name
  below : ∃ names, file = directory.below names ∧
    file.locate w.cwd = directory.locate w.cwd ++ names

/-- Paths in order, by their components. -/
def IsSorted (files : List Path) : Prop :=
  files.Pairwise fun a b => (compare a.parts b.parts).isLE = true

theorem isDirectory_eq_true_iff {w : World} {path : Path} :
    isDirectory w path = .ok true ↔
      ∃ location, w.tree.lookup w.cwd path = .ok (location, .directory) := by
  rw [isDirectory, mapError_eq_ok, FileTree.isDirectory_eq_true_iff]

theorem isFile_eq_true_iff {w : World} {path : Path} :
    isFile w path = .ok true ↔
      ∃ location content, w.tree.lookup w.cwd path = .ok (location, .file content) := by
  rw [isFile, mapError_eq_ok, FileTree.isFile_eq_true_iff]

theorem onlyFiles_eq_filter {w : World} {paths files : List Path}
    (h : onlyFiles w paths = .ok files) :
    files = paths.filter fun path => decide (isFile w path = .ok true) := by
  induction paths generalizing files with
  | nil => exact (Except.ok.inj h).symm
  | cons path rest ih =>
    obtain ⟨kept, others, hkept, hothers, rfl⟩ := onlyFiles_cons.mp h
    rw [List.filter_cons, hkept, ← ih hothers]
    cases kept <;> rfl

theorem isLE_compare_below {directory : Path} {a b : List Name} (h : (compare a b).isLE = true) :
    (compare (directory.below a).parts (directory.below b).parts).isLE = true := by
  have hself : List.compareLex compare directory.parts directory.parts = Ordering.eq :=
    Std.ReflCmp.compare_self
  have hfront : compare (directory.parts ++ a) (directory.parts ++ b) = compare a b := by
    refine (Version.compareLex_append compare a b _ _ rfl).trans ?_
    rw [hself]
    rfl
  rw [Path.below, Path.below, hfront]
  exact h

theorem filesOf_eq_filter {w : World} {directory : Path} {location : Location} {entry : Entry}
    (hlookup : w.tree.lookup w.cwd directory = .ok (location, entry)) {files : List Path}
    (h : filesOf w directory = .ok files) :
    files = ((w.tree.filesBelow location formulaEnding).map directory.below).filter fun path =>
      decide (isFile w path = .ok true) := by
  rw [filesOf, hlookup] at h
  obtain ⟨_, -, h⟩ := bind_eq_ok.mp h
  exact onlyFiles_eq_filter h

theorem isSorted_of_filesOf {w : World} {directory : Path} {files : List Path}
    (hdirectory : isDirectory w directory = .ok true) (h : filesOf w directory = .ok files) :
    IsSorted files := by
  obtain ⟨location, hlookup⟩ := isDirectory_eq_true_iff.mp hdirectory
  rw [filesOf_eq_filter hlookup h]
  refine List.Pairwise.filter _ (List.pairwise_map.mpr ?_)
  exact (FileTree.sorted_filesBelow ..).imp isLE_compare_below

theorem mem_filesOf_iff {w : World} (htree : HasNoSteps w.tree) {directory : Path}
    {files : List Path} (hdirectory : isDirectory w directory = .ok true)
    (h : filesOf w directory = .ok files) {file : Path} :
    file ∈ files ↔ IsFormulaBelow w directory file := by
  obtain ⟨location, hlookup⟩ := isDirectory_eq_true_iff.mp hdirectory
  have hlocate := FileTree.locate_of_resolve (FileTree.lookup_eq_ok hlookup).1
  rw [filesOf_eq_filter hlookup h, List.mem_filter, List.mem_map, decide_eq_true_eq]
  constructor
  · rintro ⟨⟨names, hnames, rfl⟩, hfile⟩
    obtain ⟨⟨content, hmem⟩, hending⟩ := FileTree.mem_filesBelow_iff.mp hnames
    have hup : Path.up ∉ names := fun hup => htree _ hmem (List.mem_append_right location hup)
    have hne : names ≠ [] := by
      rintro rfl
      exact absurd (List.suffix_nil.mp hending) (by decide)
    refine ⟨hfile, ?_, names, rfl, Path.locate_below hup w.cwd directory⟩
    rwa [Path.name, Path.below, List.getLast?_append_of_ne_nil _ hne]
  · rintro ⟨hfile, hending, names, rfl, hbelow⟩
    refine ⟨⟨names, FileTree.mem_filesBelow_iff.mpr ⟨?_, ?_⟩, rfl⟩, hfile⟩
    · obtain ⟨place, content, hplace⟩ := isFile_eq_true_iff.mp hfile
      obtain ⟨hresolve, hentry⟩ := FileTree.lookup_eq_ok hplace
      rw [← hlocate, ← hbelow, FileTree.locate_of_resolve hresolve]
      exact ⟨content, FileTree.mem_files_of_entry? hentry⟩
    · have hne : names ≠ [] := by
        -- the directory itself is no file
        rintro rfl
        have hself : directory.below [] = directory := by
          rw [Path.below, List.append_nil]
        rw [hself] at hfile
        rw [isDirectory_of_isFile hfile] at hdirectory
        cases hdirectory
      rwa [Path.name, Path.below, List.getLast?_append_of_ne_nil _ hne] at hending

/-! ## What a path stands for -/

/-- The directory whose formulae a directory stands for: its directory of formulae, if it has
one. -/
def formulaRoot (w : World) (c : Config) (path : Path) : Path :=
  let inner := path.join (Path.ofText c.formulaDir)
  if isDirectory w inner = .ok true then inner else path

theorem formulaRoot_eq {w : World} {c : Config} {path : Path} {inside : Bool}
    (h : isDirectory w (path.join (Path.ofText c.formulaDir)) = .ok inside) :
    formulaRoot w c path = if inside then path.join (Path.ofText c.formulaDir) else path := by
  rw [formulaRoot, h]
  cases inside <;> rfl

/-- A path stands for itself, or for the formulae below it if it is a directory. -/
def StandsFor (w : World) (c : Config) (path file : Path) : Prop :=
  (isDirectory w path = .ok false ∧ file = path) ∨
    (isDirectory w path = .ok true ∧ IsFormulaBelow w (formulaRoot w c path) file)

/-- All that a path stands for, in order. -/
structure IsExpansion (w : World) (c : Config) (path : Path) (files : List Path) : Prop where
  mem_iff : ∀ file, file ∈ files ↔ StandsFor w c path file
  sorted : IsSorted files

theorem isExpansion_of_expand {w : World} (htree : HasNoSteps w.tree) {c : Config} {path : Path}
    {files : List Path} (h : expand w c path = .ok files) : IsExpansion w c path files := by
  rcases expand_eq_ok.mp h with ⟨hpath, rfl⟩ | ⟨inside, hpath, hinside, hfiles⟩
  · refine ⟨fun file => ?_, List.pairwise_singleton _ _⟩
    simp [StandsFor, hpath]
  · have hdirectory : isDirectory w (formulaRoot w c path) = .ok true := by
      rw [formulaRoot_eq hinside]
      cases inside with
      | false => exact hpath
      | true => exact hinside
    rw [← formulaRoot_eq hinside] at hfiles
    refine ⟨fun file => ?_, isSorted_of_filesOf hdirectory hfiles⟩
    rw [mem_filesOf_iff htree hdirectory hfiles]
    simp [StandsFor, hpath]

theorem expandAll_eq_ok_iff {w : World} {c : Config} {paths found : List Path} :
    expandAll w c paths = .ok found ↔
      ∃ expansions, List.Forall₂ (fun path files => expand w c path = .ok files) paths expansions ∧
        expansions.flatten = found := by
  induction paths generalizing found with
  | nil => simp [expandAll, eq_comm]
  | cons path rest ih =>
    simp only [expandAll_cons, ih, List.forall₂_cons_left_iff]
    constructor
    · rintro ⟨first, others, hfirst, ⟨expansions, hexpansions, rfl⟩, rfl⟩
      exact ⟨_, ⟨first, expansions, hfirst, hexpansions, rfl⟩, rfl⟩
    · rintro ⟨_, ⟨first, expansions, hfirst, hexpansions, rfl⟩, rfl⟩
      exact ⟨first, _, hfirst, ⟨expansions, hexpansions, rfl⟩, rfl⟩

theorem mem_flatten_iff {w : World} {c : Config} {paths : List Path}
    {expansions : List (List Path)} (h : List.Forall₂ (IsExpansion w c) paths expansions)
    {file : Path} : file ∈ expansions.flatten ↔ ∃ path ∈ paths, StandsFor w c path file := by
  induction h with
  | nil => simp
  | cons hexpansion _ ih =>
    rw [List.flatten_cons, List.mem_append, hexpansion.mem_iff, ih, List.exists_mem_cons_iff]

/-! ## The first path to each location -/

/-- The position of the first path that leads where `path` leads. -/
def firstPosition (cwd : Location) (found : List Path) (path : Path) : Nat :=
  found.findIdx fun other => other.locate cwd == path.locate cwd

/-- The first of the paths to each location: it stands where that one stands, spelled as that one
is, and there is one for each location. -/
structure AreFirst (cwd : Location) (found files : List Path) : Prop where
  spelled : ∀ file ∈ files, found[firstPosition cwd found file]? = some file
  ascending : (files.map (firstPosition cwd found)).Pairwise (· < ·)
  covers : ∀ path ∈ found, ∃ file ∈ files, file.locate cwd = path.locate cwd

theorem firstPosition_append_cons {cwd : Location} {front : List Path} {path : Path}
    (hnew : ∀ other ∈ front, other.locate cwd ≠ path.locate cwd) (back : List Path) :
    firstPosition cwd (front ++ path :: back) path = front.length := by
  have hfront : front.findIdx (fun other => other.locate cwd == path.locate cwd) = front.length :=
    List.findIdx_eq_length.mpr fun other hother => beq_false_of_ne (hnew other hother)
  rw [firstPosition, List.findIdx_append, hfront, if_neg (Nat.lt_irrefl _), List.findIdx_cons,
    beq_self_eq_true, cond_true, Nat.zero_add]

/-- Paths that are the first ones to their locations, none of them before `start`. -/
structure AreFirstFrom (cwd : Location) (found : List Path) (start : Nat) (files : List Path) :
    Prop where
  spelled : ∀ file ∈ files, found[firstPosition cwd found file]? = some file
  ascending : (files.map (firstPosition cwd found)).Pairwise (· < ·)
  behind : ∀ file ∈ files, start ≤ firstPosition cwd found file

namespace AreFirstFrom

variable {cwd : Location} {found files : List Path} {start : Nat}

theorem earlier (h : AreFirstFrom cwd found (start + 1) files) :
    AreFirstFrom cwd found start files :=
  ⟨h.spelled, h.ascending, fun file hmem => Nat.le_of_succ_le (h.behind file hmem)⟩

theorem cons {path : Path} (hposition : firstPosition cwd found path = start)
    (hspelled : found[start]? = some path) (h : AreFirstFrom cwd found (start + 1) files) :
    AreFirstFrom cwd found start (path :: files) := by
  subst hposition
  refine ⟨List.forall_mem_cons.mpr ⟨hspelled, h.spelled⟩, ?_,
    List.forall_mem_cons.mpr ⟨Nat.le_refl _, h.earlier.behind⟩⟩
  refine List.pairwise_cons.mpr ⟨fun position hmem => ?_, h.ascending⟩
  obtain ⟨file, hfile, rfl⟩ := List.mem_map.mp hmem
  exact h.behind file hfile

end AreFirstFrom

/-- What is kept of the paths behind `front` are first ones of the whole list, where all that
`front` leads to has been seen. -/
theorem areFirstFrom_of_distinct {w : World} {seen : List Location}
    {front paths files : List Path} (hseen : ∀ other ∈ front, other.locate w.cwd ∈ seen)
    (h : distinct w seen paths = .ok files) :
    AreFirstFrom w.cwd (front ++ paths) front.length files := by
  induction paths generalizing seen front files with
  | nil =>
    cases h
    exact ⟨by simp, List.Pairwise.nil, by simp⟩
  | cons path rest ih =>
    obtain ⟨location, hresolve⟩ := distinct_succeeds_iff.mp ⟨files, h⟩ path List.mem_cons_self
    have hlocate := FileTree.locate_of_resolve hresolve
    have hrest {seen' : List Location} {others : List Path}
        (hseen' : ∀ other ∈ front ++ [path], other.locate w.cwd ∈ seen')
        (hdistinct : distinct w seen' rest = .ok others) :
        AreFirstFrom w.cwd (front ++ path :: rest) (front.length + 1) others := by
      simpa using ih hseen' hdistinct
    rw [distinct_cons hresolve] at h
    split at h
    · next hold =>
      refine (hrest (List.forall_mem_append.mpr ⟨hseen, ?_⟩) h).earlier
      rw [List.forall_mem_singleton, hlocate]
      exact List.contains_iff_mem.mp hold
    · next hnew =>
      obtain ⟨others, hdistinct, rfl⟩ := map_eq_ok.mp h
      have hothers : AreFirstFrom w.cwd (front ++ path :: rest) (front.length + 1) others := by
        refine hrest (List.forall_mem_append.mpr ⟨fun other hother => ?_, ?_⟩) hdistinct
        · exact List.mem_cons_of_mem _ (hseen other hother)
        · rw [List.forall_mem_singleton, hlocate]
          exact List.mem_cons_self
      refine hothers.cons (firstPosition_append_cons (fun other hother heq => hnew ?_) rest) ?_
      · rw [← hlocate, ← heq]
        exact List.contains_iff_mem.mpr (hseen other hother)
      · simp

theorem distinct_covers {w : World} {seen : List Location} {paths files : List Path}
    (h : distinct w seen paths = .ok files) :
    ∀ path ∈ paths, path.locate w.cwd ∈ seen ∨
      ∃ file ∈ files, file.locate w.cwd = path.locate w.cwd := by
  induction paths generalizing seen files with
  | nil => exact fun _ hmem => absurd hmem List.not_mem_nil
  | cons path rest ih =>
    obtain ⟨location, hresolve⟩ := distinct_succeeds_iff.mp ⟨files, h⟩ path List.mem_cons_self
    have hlocate := FileTree.locate_of_resolve hresolve
    rw [distinct_cons hresolve] at h
    split at h
    · next hold =>
      refine List.forall_mem_cons.mpr ⟨.inl ?_, ih h⟩
      rw [hlocate]
      exact List.contains_iff_mem.mp hold
    · obtain ⟨others, hdistinct, rfl⟩ := map_eq_ok.mp h
      refine List.forall_mem_cons.mpr ⟨.inr ⟨path, List.mem_cons_self, rfl⟩, fun other hother => ?_⟩
      rcases ih hdistinct other hother with hold | ⟨file, hfile, heq⟩
      · rcases List.mem_cons.mp hold with hsame | hold
        · exact .inr ⟨path, List.mem_cons_self, hlocate.trans hsame.symm⟩
        · exact .inl hold
      · exact .inr ⟨file, List.mem_cons_of_mem path hfile, heq⟩

theorem areFirst_of_distinct {w : World} {paths files : List Path}
    (h : distinct w [] paths = .ok files) : AreFirst w.cwd paths files := by
  have hnone : ∀ other ∈ ([] : List Path), other.locate w.cwd ∈ ([] : List Location) :=
    fun _ hmem => absurd hmem List.not_mem_nil
  have hfirst := areFirstFrom_of_distinct hnone h
  refine ⟨hfirst.spelled, hfirst.ascending, fun path hmem => ?_⟩
  exact (distinct_covers h path hmem).resolve_left List.not_mem_nil

theorem AreFirst.subset {cwd : Location} {found files : List Path}
    (h : AreFirst cwd found files) : files ⊆ found :=
  fun file hmem => List.mem_of_getElem? (h.spelled file hmem)

/-! ## What can be collected -/

/-- Nothing that is met when a path is expanded is too long to be followed, and a path that stands
for itself holds no null character and does not lead into a loop of links. -/
def CanBeExpanded (w : World) (c : Config) (path : Path) : Prop :=
  (isDirectory w path = .ok false ∧ (∀ part ∈ path.parts, '\x00' ∉ part) ∧
      ¬ w.tree.leadsRound (path.locate w.cwd)) ∨
    (isDirectory w path = .ok true ∧ IsShort w (path.join (Path.ofText c.formulaDir)) ∧
      ∀ met ∈ metBelow w (formulaRoot w c path), IsShort w met)

theorem resolve_of_isFile {w : World} {file : Path} (h : isFile w file = .ok true) :
    ∃ location, w.tree.resolve w.cwd file = .ok location := by
  obtain ⟨location, content, hlookup⟩ := isFile_eq_true_iff.mp h
  exact ⟨location, (FileTree.lookup_eq_ok hlookup).1⟩

theorem isFile_of_mem_filesOf {w : World} {directory : Path} {files : List Path}
    (h : filesOf w directory = .ok files) : ∀ file ∈ files, isFile w file = .ok true := by
  rw [filesOf] at h
  split at h
  · obtain ⟨_, -, h⟩ := bind_eq_ok.mp h
    exact isFile_of_mem_onlyFiles h
  · cases h
    exact fun _ hmem => absurd hmem List.not_mem_nil

theorem canBeExpanded_iff {w : World} {c : Config} {path : Path} :
    CanBeExpanded w c path ↔ ∃ files, expand w c path = .ok files ∧
      ∀ file ∈ files, ∃ location, w.tree.resolve w.cwd file = .ok location := by
  rw [CanBeExpanded, ← FileTree.resolve_succeeds_iff]
  constructor
  · rintro (⟨hpath, hresolve⟩ | ⟨hpath, hinner, hmet⟩)
    · exact ⟨[path], expand_eq_ok.mpr (.inl ⟨hpath, rfl⟩), List.forall_mem_singleton.mpr hresolve⟩
    · obtain ⟨inside, hinside⟩ := isDirectory_succeeds_iff.mpr hinner
      obtain ⟨files, hfiles⟩ := filesOf_succeeds_iff.mpr hmet
      have hresolve : ∀ file ∈ files, ∃ location, w.tree.resolve w.cwd file = .ok location :=
        fun file hmem => resolve_of_isFile (isFile_of_mem_filesOf hfiles file hmem)
      rw [formulaRoot_eq hinside] at hfiles
      exact ⟨files, expand_eq_ok.mpr (.inr ⟨inside, hpath, hinside, hfiles⟩), hresolve⟩
  · rintro ⟨files, hexpand, hresolve⟩
    rcases expand_eq_ok.mp hexpand with ⟨hpath, rfl⟩ | ⟨inside, hpath, hinside, hfiles⟩
    · exact .inl ⟨hpath, hresolve path List.mem_cons_self⟩
    · rw [← formulaRoot_eq hinside] at hfiles
      exact .inr ⟨hpath, isDirectory_succeeds_iff.mp ⟨inside, hinside⟩,
        filesOf_succeeds_iff.mp ⟨files, hfiles⟩⟩

/-! ## Main result -/

/-- The paths that are collected from given ones. -/
structure IsCollection (w : World) (c : Config) (paths files : List Path) : Prop where
  /-- No two of them lead to one location. -/
  nodup : (files.map (Path.locate w.cwd)).Nodup
  sound : ∀ file ∈ files, ∃ path ∈ paths, StandsFor w c path file
  complete : ∀ path ∈ paths, ∀ file, StandsFor w c path file →
    ∃ kept ∈ files, kept.locate w.cwd = file.locate w.cwd
  /-- They keep the places and the spelling that they have when the given paths are expanded one
  after the other. -/
  ordered : ∃ expansions, List.Forall₂ (IsExpansion w c) paths expansions ∧
    AreFirst w.cwd expansions.flatten files
  idempotent : collect w c files = .ok files

theorem isCollection_of_collect {w : World} (htree : HasNoSteps w.tree) {c : Config}
    {paths files : List Path} (h : collect w c paths = .ok files) :
    IsCollection w c paths files := by
  obtain ⟨found, hfound, hdistinct⟩ := bind_eq_ok.mp h
  obtain ⟨expansions, hexpand, rfl⟩ := expandAll_eq_ok_iff.mp hfound
  have hexpansions : List.Forall₂ (IsExpansion w c) paths expansions :=
    hexpand.imp fun _ _ => isExpansion_of_expand htree
  have hfirst := areFirst_of_distinct hdistinct
  have hnodup := collect_locations_nodup h
  refine ⟨hnodup, fun file hmem => ?_, fun path hpath file hstands => ?_,
    ⟨expansions, hexpansions, hfirst⟩, ?_⟩
  · exact (mem_flatten_iff hexpansions).mp (hfirst.subset hmem)
  · exact hfirst.covers file ((mem_flatten_iff hexpansions).mpr ⟨path, hpath, hstands⟩)
  · exact collect_eq_self (fun file hmem => (isDirectory_of_mem_collect h hmem).1)
      (fun file hmem => (isDirectory_of_mem_collect h hmem).2) hnodup

/--
**What is collected is exact.** Paths can be collected exactly if each of them can be expanded. Then
no location is met twice, every collected path is a given one or a formula below a given directory,
each of these is there under some spelling, the first ones keep their places and their spelling, and
what is collected from the result is the result.
-/
theorem collect_exact {w : World} (htree : HasNoSteps w.tree) (c : Config) (paths : List Path) :
    ((∃ files, collect w c paths = .ok files) ↔ ∀ path ∈ paths, CanBeExpanded w c path) ∧
      ∀ files, collect w c paths = .ok files → IsCollection w c paths files := by
  refine ⟨?_, fun files h => isCollection_of_collect htree h⟩
  simp only [collect_succeeds_iff, canBeExpanded_iff]

/-- A tap with a formula and a note in its directory of formulae, and a script beside it. -/
def sampleTap : World where
  tree :=
    { files :=
        [(["tap".toList, "Formula".toList, "a.rb".toList], []),
         (["tap".toList, "Formula".toList, "notes".toList], []),
         (["tap".toList, "script.rb".toList], [])] }
  cwd := ["tap".toList]
  git _ _ := .timedOut

/-- The formula is met below the tap, by itself and below its directory, and keeps its first
spelling; the script is there because it is given. -/
theorem collect_exact_tap :
    CanBeExpanded sampleTap {} (Path.ofText "../tap".toList) ∧
      IsCollection sampleTap {}
        (["script.rb", "../tap", "Formula/a.rb", "Formula"].map fun s => Path.ofText s.toList)
        (["script.rb", "../tap/Formula/a.rb"].map fun s => Path.ofText s.toList) := by
  have htree : HasNoSteps sampleTap.tree := by
    unfold HasNoSteps
    decide
  have hcollect : collect sampleTap {}
      (["script.rb", "../tap", "Formula/a.rb", "Formula"].map fun s => Path.ofText s.toList) =
        .ok (["script.rb", "../tap/Formula/a.rb"].map fun s => Path.ofText s.toList) := by
    decide +kernel
  obtain ⟨hexpand, hcollection⟩ := collect_exact htree {}
    (["script.rb", "../tap", "Formula/a.rb", "Formula"].map fun s => Path.ofText s.toList)
  exact ⟨hexpand.mp ⟨_, hcollect⟩ _ (by simp), hcollection _ hcollect⟩

end TapAudit.Audit
