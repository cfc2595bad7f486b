import TapAudit.CommandLine.Program
import TapAudit.Proofs.Except
import TapAudit.Proofs.Number.Range
import TapAudit.Proofs.Text.Blank

/-!
# What a configuration file leads to

A configuration file gives valid settings or its content is rejected, but for its time limit and its
repository. No number at all is not zero or less and so passes for a limit, while a value that is no
number or one out of range breaks the run off without being rejected. So does a repository behind a
loop of links.

- `timeout_settles_iff`: the values that are no limit and are not rejected either.
- `ofEntries_settles_iff`: all settings of the table, read in order.
- `load_settles_iff`: **a file gives valid settings or is rejected, but for unfit time limits and
  repositories behind a loop of links.**
-/

namespace TapAudit

open History (Seconds)
open Number (Binary64)

namespace Config

/-! ## Valid settings -/

/-- The time limit is a number greater than zero. -/
def IsPositive : Seconds → Prop
  | .whole n => 0 < n
  | .fraction (.finite negative m _) => negative = false ∧ 0 < m
  | .fraction (.infinite negative) => negative = false
  | .fraction .notANumber => False

/-- A text with something in it and no blanks around it. -/
def IsTrimmed (text : List Char) : Prop :=
  text ≠ [] ∧ Text.strip text = text

/-- Settings that name a directory and a commit, and a repository by an absolute path if at all. -/
structure IsNamed (c : Config) : Prop where
  formulaDir : IsTrimmed c.formulaDir
  gitRef : IsTrimmed c.gitRef
  repository : ∀ path, c.repository = some path → path.slashes = 1

/-- Settings that an audit can be run with. -/
structure IsValid (c : Config) : Prop extends IsNamed c where
  gitTimeout : IsPositive c.gitTimeout

/-- A computation gives what is wanted, or the content of the file is rejected. -/
def Settles {α : Type} (x : Except Fault α) (wanted : α → Prop) : Prop :=
  match x with
  | .ok a => wanted a
  | .error fault => fault.isRejection = true

variable {α β : Type}

theorem settles_iff {x : Except Fault α} {wanted : α → Prop} :
    Settles x wanted ↔
      (∃ a, x = .ok a ∧ wanted a) ∨ ∃ fault, x = .error fault ∧ fault.isRejection = true := by
  cases x <;> simp [Settles]

/-- A step must not fail but by rejection; then it is up to the steps that follow. -/
theorem settles_bind {x : Except Fault α} {f : α → Except Fault β} {wanted : β → Prop} :
    Settles (x >>= f) wanted ↔
      (Settles x fun _ => True) ∧ ∀ a, x = .ok a → Settles (f a) wanted := by
  cases x with
  | error fault =>
    refine (and_iff_left ?_).symm
    intro a ha
    cases ha
  | ok a =>
    constructor
    · intro h
      refine ⟨trivial, fun b hb => ?_⟩
      cases hb
      exact h
    · rintro ⟨-, h⟩
      exact h a rfl

/-! ## The settings apart from the time limit -/

variable {entries : Toml.Entries} {name : String} {tree : FileTree} {cwd : Location}
  {directory : Path}

theorem settles_booleanSetting {usual : Bool} {fault : Fault} (hfault : fault.isRejection = true) :
    Settles (booleanSetting entries name usual fault) fun _ => True := by
  unfold booleanSetting
  split
  · trivial
  · trivial
  · exact hfault

theorem exists_booleanSetting_iff {usual : Bool} {fault : Fault} :
    (∃ b, booleanSetting entries name usual fault = .ok b) ↔
      ∀ value, entries.find? name.toList = some value → ∃ b, value = .boolean b := by
  unfold booleanSetting
  cases entries.find? name.toList with
  | none => simp
  | some value => cases value <;> simp

theorem settles_textSetting {usual : List Char} :
    Settles (textSetting entries name usual) fun _ => True := by
  unfold textSetting
  split
  · trivial
  · split
    · rfl
    · split <;> trivial

theorem exists_textSetting_iff {usual : List Char} :
    (∃ text, textSetting entries name usual = .ok text) ↔
      ∀ value, entries.find? name.toList = some value → value.hasLongInteger = false := by
  unfold textSetting
  cases entries.find? name.toList with
  | none => simp
  | some value =>
    cases h : value.hasLongInteger with
    | true => simp [h]
    | false =>
      dsimp only
      rw [if_neg (by rw [h]; exact Bool.false_ne_true)]
      constructor
      · rintro - other hother
        cases hother
        exact h
      · intro _
        split <;> exact ⟨_, rfl⟩

theorem isTrimmed_of_textSetting {usual text : List Char} (husual : IsTrimmed usual)
    (h : textSetting entries name usual = .ok text) : IsTrimmed text := by
  unfold textSetting at h
  split at h
  · cases h
    exact husual
  · next value _ =>
    split at h
    · cases h
    · split at h
      · cases h
        exact husual
      · next hne =>
        cases h
        exact ⟨hne, Text.strip_strip value.text⟩

/-- The repository is named by a text that leads into a loop of links. -/
def HasLoopedRepository (tree : FileTree) (cwd : Location) (directory : Path)
    (entries : Toml.Entries) : Prop :=
  ∃ text location, entries.find? "repository".toList = some (.string text) ∧
    Text.strip text ≠ [] ∧
      tree.resolve cwd (directory.join (Path.ofText (Text.strip text))) =
        .error (.linkLoop location)

theorem settles_repositorySetting_iff :
    (Settles (repositorySetting tree cwd directory entries) fun _ => True) ↔
      ¬ HasLoopedRepository tree cwd directory entries := by
  unfold repositorySetting HasLoopedRepository
  cases entries.find? "repository".toList with
  | none => simp [Settles]
  | some value =>
    cases value with
    | string text =>
      simp only [Option.some.injEq, Toml.Value.string.injEq]
      cases hstrip : Text.strip text with
      | nil => simp [Settles, Fault.isRejection, hstrip]
      | cons c rest =>
        simp only
        cases hresolve : tree.resolve cwd (directory.join (Path.ofText (c :: rest))) with
        | ok location => simp [Settles, hstrip, hresolve]
        | error fault =>
          cases fault <;> simp [Settles, Fault.isRejection, hstrip, hresolve]
    | _ => simp [Settles, Fault.isRejection]

theorem exists_repositorySetting_iff :
    (∃ path, repositorySetting tree cwd directory entries = .ok path) ↔
      ∀ value, entries.find? "repository".toList = some value →
        ∃ text location, value = .string text ∧ Text.strip text ≠ [] ∧
          tree.resolve cwd (directory.join (Path.ofText (Text.strip text))) = .ok location := by
  unfold repositorySetting
  cases entries.find? "repository".toList with
  | none => simp
  | some value =>
    cases value with
    | string text =>
      simp only [Option.some.injEq, forall_eq', Toml.Value.string.injEq, exists_and_left,
        exists_eq_left']
      cases hstrip : Text.strip text with
      | nil => simp
      | cons c rest =>
        simp only
        cases tree.resolve cwd (directory.join (Path.ofText (c :: rest))) <;> simp
    | _ => simp

theorem slashes_of_repositorySetting {path : Path}
    (h : repositorySetting tree cwd directory entries = .ok (some path)) : path.slashes = 1 := by
  unfold repositorySetting at h
  split at h
  · cases h
  · split at h
    · cases h
    · split at h
      · cases h
        rfl
      · cases h
  · cases h

/-! ## The time limit -/

/-- A value that is no number greater than zero and is not rejected either: it is no number at all,
one beyond the doubles, or of a kind that has no number. -/
def IsUnfit : Toml.Value → Prop
  | .string text => Binary64.ofText? text = some .notANumber
  | .boolean _ => False
  | .integer n => Binary64.leastTooLarge ≤ n.natAbs
  | .float x => x = .notANumber
  | .date _ | .time _ | .moment .. | .array _ | .table _ => True

/-- A number as a time limit. -/
def limitOf (x : Binary64) : Except Fault Seconds :=
  if x.isNonPositive then .error .timeoutNotPositive else .ok (.fraction x)

theorem limitOf_settles_iff (x : Binary64) :
    Settles (limitOf x) IsPositive ↔ x ≠ .notANumber := by
  cases x with
  | finite negative m e =>
    unfold limitOf Binary64.isNonPositive
    cases negative with
    | true => simp [Settles, Fault.isRejection]
    | false =>
      by_cases hm : m = 0
      · simp [Settles, Fault.isRejection, hm]
      · have hpos : 0 < m := by omega
        simp [Settles, IsPositive, hm, hpos]
  | infinite negative =>
    cases negative <;>
      simp [limitOf, Binary64.isNonPositive, Settles, Fault.isRejection, IsPositive]
  | notANumber => simp [limitOf, Binary64.isNonPositive, Settles, IsPositive]

theorem timeout_settles_iff (value : Toml.Value) :
    Settles (toNumber value >>= limitOf) IsPositive ↔ ¬ IsUnfit value := by
  cases value with
  | string text =>
    rw [toNumber, IsUnfit]
    cases Binary64.ofText? text with
    | none => simp [Settles, bind, Except.bind, Fault.isRejection]
    | some x =>
      rw [Option.some.injEq]
      exact limitOf_settles_iff x
  | boolean b =>
    have hnumber := Binary64.ofInt_ne_notANumber (if b then 1 else 0)
    exact (limitOf_settles_iff _).trans ⟨fun _ => id, fun _ => hnumber⟩
  | integer n =>
    have hrange := Binary64.ofInt_infinite_iff n
    have hnumber := Binary64.ofInt_ne_notANumber n
    rw [toNumber, IsUnfit, ← hrange]
    cases hn : Binary64.ofInt n with
    | finite negative m e =>
      refine (limitOf_settles_iff _).trans ⟨fun _ => ?_, fun _ => nofun⟩
      rintro ⟨sign, hsign⟩
      cases hsign
    | infinite negative => simp [Settles, bind, Except.bind, Fault.isRejection]
    | notANumber => exact absurd hn hnumber
  | float x => exact limitOf_settles_iff x
  | date d => simp [toNumber, IsUnfit, Settles, bind, Except.bind, Fault.isRejection]
  | time t => simp [toNumber, IsUnfit, Settles, bind, Except.bind, Fault.isRejection]
  | moment d t offset => simp [toNumber, IsUnfit, Settles, bind, Except.bind, Fault.isRejection]
  | array items => simp [toNumber, IsUnfit, Settles, bind, Except.bind, Fault.isRejection]
  | table inner => simp [toNumber, IsUnfit, Settles, bind, Except.bind, Fault.isRejection]

/-! ## All settings -/

/-- The settings apart from the time limit can be taken: two are booleans, the repository is a text
that names a place, and the others can be written out. -/
structure IsInOrder (tree : FileTree) (cwd : Location) (directory : Path)
    (entries : Toml.Entries) : Prop where
  strict : ∀ value, entries.find? "strict".toList = some value → ∃ b, value = .boolean b
  history : ∀ value, entries.find? "history".toList = some value → ∃ b, value = .boolean b
  repository : ∀ value, entries.find? "repository".toList = some value →
    ∃ text location, value = .string text ∧ Text.strip text ≠ [] ∧
      tree.resolve cwd (directory.join (Path.ofText (Text.strip text))) = .ok location
  formulaDir : ∀ value, entries.find? "formula_dir".toList = some value →
    value.hasLongInteger = false
  gitRef : ∀ value, entries.find? "git_ref".toList = some value → value.hasLongInteger = false

/-- The time limit is neither one that can be used nor rejected. -/
def HasUnfitLimit (entries : Toml.Entries) : Prop :=
  ∃ value, entries.find? "git_timeout".toList = some value ∧ IsUnfit value

theorem timeoutSetting_eq (entries : Toml.Entries) :
    timeoutSetting entries =
      match entries.find? "git_timeout".toList with
      | none => limitOf (.ofInt 10)
      | some value => toNumber value >>= limitOf := by
  have hlimit (x : Binary64) :
      (do
        if x.isNonPositive then throw Fault.timeoutNotPositive
        pure (Seconds.fraction x)) = limitOf x := by
    unfold limitOf
    cases x.isNonPositive <;> rfl
  unfold timeoutSetting
  cases entries.find? "git_timeout".toList with
  | none =>
    generalize Binary64.ofInt 10 = x
    exact hlimit x
  | some value => exact congrArg (toNumber value >>= ·) (funext hlimit)

theorem timeoutSetting_settles_iff :
    Settles (timeoutSetting entries) IsPositive ↔ ¬ HasUnfitLimit entries := by
  rw [timeoutSetting_eq, HasUnfitLimit]
  cases entries.find? "git_timeout".toList with
  | none =>
    have hnumber := Binary64.ofInt_ne_notANumber 10
    refine (limitOf_settles_iff _).trans ⟨fun _ => ?_, fun _ => hnumber⟩
    rintro ⟨value, hvalue, -⟩
    cases hvalue
  | some value =>
    rw [timeout_settles_iff]
    simp

/-- The only limit that is not greater than zero is no number at all. -/
theorem isPositive_of_timeoutSetting {limit : Seconds} (h : timeoutSetting entries = .ok limit) :
    limit = .fraction .notANumber ∨ IsPositive limit := by
  have hlimit {x : Binary64} (hx : limitOf x = .ok limit) :
      limit = .fraction .notANumber ∨ IsPositive limit := by
    by_cases hnumber : x = .notANumber
    · subst hnumber
      cases hx
      exact .inl rfl
    · have hsettles := (limitOf_settles_iff x).mpr hnumber
      rw [hx] at hsettles
      exact .inr hsettles
  rw [timeoutSetting_eq] at h
  split at h
  · exact hlimit h
  · obtain ⟨x, -, hx⟩ := bind_eq_ok.mp h
    exact hlimit hx

theorem ofEntries_eq_ok_iff {c : Config} :
    ofEntries tree cwd directory entries = .ok c ↔
      booleanSetting (auditEntries entries) "strict" false .strictNotBoolean = .ok c.strict ∧
      booleanSetting (auditEntries entries) "history" true .historyNotBoolean = .ok c.history ∧
      repositorySetting tree cwd directory (auditEntries entries) = .ok c.repository ∧
      textSetting (auditEntries entries) "formula_dir" "Formula".toList = .ok c.formulaDir ∧
      textSetting (auditEntries entries) "git_ref" "HEAD".toList = .ok c.gitRef ∧
      timeoutSetting (auditEntries entries) = .ok c.gitTimeout := by
  unfold ofEntries
  dsimp only
  constructor
  · intro h
    obtain ⟨strict, hstrict, h⟩ := bind_eq_ok.mp h
    obtain ⟨history, hhistory, h⟩ := bind_eq_ok.mp h
    obtain ⟨repository, hrepository, h⟩ := bind_eq_ok.mp h
    obtain ⟨formulaDir, hformulaDir, h⟩ := bind_eq_ok.mp h
    obtain ⟨gitRef, hgitRef, h⟩ := bind_eq_ok.mp h
    obtain ⟨limit, hlimit, h⟩ := bind_eq_ok.mp h
    cases h
    exact ⟨hstrict, hhistory, hrepository, hformulaDir, hgitRef, hlimit⟩
  · rintro ⟨hstrict, hhistory, hrepository, hformulaDir, hgitRef, hlimit⟩
    rw [hstrict, hhistory, hrepository, hformulaDir, hgitRef, hlimit]
    rfl

theorem isNamed_of_ofEntries {c : Config} (h : ofEntries tree cwd directory entries = .ok c) :
    c.IsNamed := by
  obtain ⟨-, -, hrepository, hformulaDir, hgitRef, -⟩ := ofEntries_eq_ok_iff.mp h
  refine ⟨?_, ?_, ?_⟩
  · exact isTrimmed_of_textSetting ⟨by decide, by decide⟩ hformulaDir
  · exact isTrimmed_of_textSetting ⟨by decide, by decide⟩ hgitRef
  · intro path hpath
    rw [hpath] at hrepository
    exact slashes_of_repositorySetting hrepository

theorem isInOrder_iff :
    IsInOrder tree cwd directory entries ↔
      (∃ b, booleanSetting entries "strict" false .strictNotBoolean = .ok b) ∧
      (∃ b, booleanSetting entries "history" true .historyNotBoolean = .ok b) ∧
      (∃ path, repositorySetting tree cwd directory entries = .ok path) ∧
      (∃ text, textSetting entries "formula_dir" "Formula".toList = .ok text) ∧
      ∃ text, textSetting entries "git_ref" "HEAD".toList = .ok text := by
  rw [exists_booleanSetting_iff, exists_booleanSetting_iff, exists_repositorySetting_iff,
    exists_textSetting_iff, exists_textSetting_iff]
  constructor
  · intro h
    exact ⟨h.strict, h.history, h.repository, h.formulaDir, h.gitRef⟩
  · rintro ⟨hstrict, hhistory, hrepository, hformulaDir, hgitRef⟩
    exact ⟨hstrict, hhistory, hrepository, hformulaDir, hgitRef⟩

/-- With all other settings in order it is up to the time limit whether the settings are valid. -/
theorem settles_limit {c : Config} (hnamed : c.IsNamed) :
    Settles (timeoutSetting entries >>= fun limit => pure { c with gitTimeout := limit }) IsValid ↔
      Settles (timeoutSetting entries) IsPositive := by
  cases timeoutSetting entries with
  | error fault => rfl
  | ok limit =>
    constructor
    · intro h
      exact h.gitTimeout
    · intro h
      exact ⟨⟨hnamed.formulaDir, hnamed.gitRef, hnamed.repository⟩, h⟩

/-- Of the settings of a table, read in order, one breaks the run off. -/
inductive EntriesBreakOff (tree : FileTree) (cwd : Location) (directory : Path)
    (entries : Toml.Entries) : Prop
  | looped
      (hstrict : ∀ value, entries.find? "strict".toList = some value → ∃ b, value = .boolean b)
      (hhistory : ∀ value, entries.find? "history".toList = some value → ∃ b, value = .boolean b)
      (hlooped : HasLoopedRepository tree cwd directory entries)
  | limit (horder : IsInOrder tree cwd directory entries) (hunfit : HasUnfitLimit entries)

theorem ofEntries_settles_iff :
    Settles (ofEntries tree cwd directory entries) IsValid ↔
      ¬ EntriesBreakOff tree cwd directory (auditEntries entries) := by
  have hunfold : Settles (ofEntries tree cwd directory entries) IsValid ↔
      ∀ strict, booleanSetting (auditEntries entries) "strict" false .strictNotBoolean =
        .ok strict →
      ∀ history, booleanSetting (auditEntries entries) "history" true .historyNotBoolean =
        .ok history →
      ¬ HasLoopedRepository tree cwd directory (auditEntries entries) ∧
      ∀ repository, repositorySetting tree cwd directory (auditEntries entries) =
        .ok repository →
      ∀ formulaDir, textSetting (auditEntries entries) "formula_dir" "Formula".toList =
        .ok formulaDir →
      ∀ gitRef, textSetting (auditEntries entries) "git_ref" "HEAD".toList = .ok gitRef →
      Settles (timeoutSetting (auditEntries entries)) IsPositive := by
    unfold ofEntries
    dsimp only
    rw [settles_bind, and_iff_right (settles_booleanSetting rfl)]
    refine forall₂_congr fun strict _ => ?_
    rw [settles_bind, and_iff_right (settles_booleanSetting rfl)]
    refine forall₂_congr fun history _ => ?_
    rw [settles_bind, settles_repositorySetting_iff]
    refine and_congr_right fun _ => forall₂_congr fun repository hrepository => ?_
    rw [settles_bind, and_iff_right settles_textSetting]
    refine forall₂_congr fun formulaDir hformulaDir => ?_
    rw [settles_bind, and_iff_right settles_textSetting]
    refine forall₂_congr fun gitRef hgitRef => ?_
    refine @settles_limit (auditEntries entries)
      { strict, repository, formulaDir, gitRef, history } ⟨?_, ?_, ?_⟩
    · exact isTrimmed_of_textSetting ⟨by decide, by decide⟩ hformulaDir
    · exact isTrimmed_of_textSetting ⟨by decide, by decide⟩ hgitRef
    · rintro path rfl
      exact slashes_of_repositorySetting hrepository
  rw [hunfold, timeoutSetting_settles_iff]
  constructor
  · rintro h (⟨hstrict, hhistory, hlooped⟩ | ⟨horder, hunfit⟩)
    · obtain ⟨strict, hstrict⟩ := exists_booleanSetting_iff.mpr hstrict
      obtain ⟨history, hhistory⟩ := exists_booleanSetting_iff.mpr hhistory
      exact (h strict hstrict history hhistory).1 hlooped
    · obtain ⟨⟨strict, hstrict⟩, ⟨history, hhistory⟩, ⟨path, hpath⟩, ⟨dir, hdir⟩, ref, href⟩ :=
        isInOrder_iff.mp horder
      exact (h strict hstrict history hhistory).2 path hpath dir hdir ref href hunfit
  · intro h strict hstrict history hhistory
    refine ⟨fun hlooped => h (.looped ?_ ?_ hlooped), ?_⟩
    · exact exists_booleanSetting_iff.mp ⟨strict, hstrict⟩
    · exact exists_booleanSetting_iff.mp ⟨history, hhistory⟩
    · intro path hpath dir hdir ref href hunfit
      exact h (.limit (isInOrder_iff.mpr ⟨⟨strict, hstrict⟩, ⟨history, hhistory⟩, ⟨path, hpath⟩,
        ⟨dir, hdir⟩, ref, href⟩) hunfit)

/-! ## Files -/

/-- The content of a file is a table with a setting at fault. -/
def BreaksOff (tree : FileTree) (cwd : Location) (path : Path) (content : List UInt8) : Prop :=
  ∃ text entries, Text.Utf8.decode content = .ok text ∧
    Toml.read (Text.normalizeLineEnds text) = .ok entries ∧
    EntriesBreakOff tree cwd path.parent (auditEntries entries)

theorem settles_mapError {ε : Type} {x : Except ε α} {f : ε → Fault}
    (h : ∀ e, (f e).isRejection = true) : Settles (x.mapError f) fun _ => True := by
  cases x with
  | error e => exact h e
  | ok a => trivial

theorem ofContent_settles_iff {path : Path} {content : List UInt8} :
    Settles (ofContent tree cwd path content) IsValid ↔ ¬ BreaksOff tree cwd path content := by
  have hformat (fault : Toml.Fault) : (Fault.ofFormat fault).isRejection = true := by
    unfold Fault.ofFormat
    split <;> rfl
  unfold ofContent BreaksOff
  rw [settles_bind, and_iff_right (settles_mapError fun _ => rfl), not_exists]
  refine forall_congr' fun text => ?_
  rw [mapError_eq_ok, not_exists]
  constructor
  · rintro h entries ⟨htext, hentries, hrest⟩
    have hsettles := h htext
    rw [settles_bind, and_iff_right (settles_mapError hformat)] at hsettles
    exact ofEntries_settles_iff.mp (hsettles entries (mapError_eq_ok.mpr hentries)) hrest
  · intro h htext
    rw [settles_bind, and_iff_right (settles_mapError hformat)]
    intro entries hentries
    refine ofEntries_settles_iff.mpr fun hrest => h entries ⟨htext, ?_, hrest⟩
    exact mapError_eq_ok.mp hentries

theorem load_eq {path : Path} {content : List UInt8}
    (hread : tree.read cwd path = .ok content) :
    load tree cwd path = ofContent tree cwd path content := by
  unfold load
  rw [hread]
  rfl

end Config

/--
**A configuration file gives valid settings or is rejected, with two exceptions.** One is a table in
order but for its time limit, if that is no number at all, an integer beyond the doubles, or of a
kind that has no number: the first passes for a limit, the others break the run off. The other is a
repository behind a loop of links, if the switches before it are in order. Whatever settings are
given are valid but for a limit that is no number, and a run ends with a message on the
configuration file exactly if its content is rejected.
-/
theorem Config.load_settles_iff {w : World} {path : Path} {content : List UInt8}
    (hread : w.tree.read w.cwd path = .ok content) :
    ((∃ c, load w.tree w.cwd path = .ok c ∧ c.IsValid) ∨
        (∃ fault, load w.tree w.cwd path = .error fault ∧ fault.isRejection = true) ↔
      ¬ BreaksOff w.tree w.cwd path content) ∧
    (∀ c, load w.tree w.cwd path = .ok c →
      c.IsNamed ∧ (c.gitTimeout = .fraction .notANumber ∨ IsPositive c.gitTimeout)) ∧
    ∀ given fault, CommandLine.configPath? w given = some path →
      load w.tree w.cwd path = .error fault →
        CommandLine.readConfig w given =
          .error (if fault.isRejection then .config path fault else .setting fault) := by
  refine ⟨?_, ?_, ?_⟩
  · rw [← settles_iff, load_eq hread]
    exact ofContent_settles_iff
  · intro c hc
    rw [load_eq hread] at hc
    unfold ofContent at hc
    obtain ⟨text, -, hc⟩ := bind_eq_ok.mp hc
    obtain ⟨entries, -, hc⟩ := bind_eq_ok.mp hc
    obtain ⟨-, -, -, -, -, hlimit⟩ := ofEntries_eq_ok_iff.mp hc
    exact ⟨isNamed_of_ofEntries hc, isPositive_of_timeoutSetting hlimit⟩
  · intro given fault hpath hload
    unfold CommandLine.readConfig
    rw [hpath]
    dsimp only
    rw [hload]
    rfl

/-- A directory with two configuration files, whose time limits are a list and no number at all. -/
def Config.unfitLimits : World where
  tree :=
    { files :=
        [(["list.toml".toList], "[audit]\ngit_timeout = []\n".toUTF8.data.toList),
         (["nan.toml".toList], "[audit]\ngit_timeout = nan\n".toUTF8.data.toList)] }
  cwd := []
  git _ _ := .timedOut

/-- A list as a time limit breaks the run off, and no number at all passes for a limit. -/
theorem Config.load_settles_unfitLimits :
    BreaksOff unfitLimits.tree [] (Path.ofText "list.toml".toList)
        "[audit]\ngit_timeout = []\n".toUTF8.data.toList ∧
      load unfitLimits.tree [] (Path.ofText "list.toml".toList) = .error (.timeoutKind "list") ∧
      BreaksOff unfitLimits.tree [] (Path.ofText "nan.toml".toList)
        "[audit]\ngit_timeout = nan\n".toUTF8.data.toList ∧
      load unfitLimits.tree [] (Path.ofText "nan.toml".toList) =
        .ok { gitTimeout := .fraction .notANumber } := by
  have hlist : load unfitLimits.tree [] (Path.ofText "list.toml".toList) =
      .error (.timeoutKind "list") := by decide +kernel
  have hnan : load unfitLimits.tree [] (Path.ofText "nan.toml".toList) =
      .ok { gitTimeout := .fraction .notANumber } := by decide +kernel
  refine ⟨?_, hlist, ?_, hnan⟩
  · by_contra hbreaks
    have hread : unfitLimits.tree.read unfitLimits.cwd (Path.ofText "list.toml".toList) =
        .ok "[audit]\ngit_timeout = []\n".toUTF8.data.toList := by decide +kernel
    rcases (load_settles_iff hread).1.mpr hbreaks with ⟨c, hc, -⟩ | ⟨fault, hfault, hrejection⟩
    · cases hlist.symm.trans hc
    · cases hlist.symm.trans hfault
      cases hrejection
  · by_contra hbreaks
    have hread : unfitLimits.tree.read unfitLimits.cwd (Path.ofText "nan.toml".toList) =
        .ok "[audit]\ngit_timeout = nan\n".toUTF8.data.toList := by decide +kernel
    rcases (load_settles_iff hread).1.mpr hbreaks with ⟨c, hc, hvalid⟩ | ⟨fault, hfault, -⟩
    · cases hnan.symm.trans hc
      exact hvalid.gitTimeout
    · cases hnan.symm.trans hfault

end TapAudit
