import TapAudit.Proofs.Precedence
import TapAudit.Proofs.Script.Flat
import TapAudit.Proofs.Text.LineEnds
import TapAudit.Proofs.Version.Archive

/-!
# Editions of a formula

A formula as it is published again and again: it has the numbers of its version in the name of the
archive, and it may have a revision and a version scheme.

- `Edition.text_eq`: the text is that of a formula without blocks.
- `Edition.ofText_text`: the version fields of the text are those of the edition.
- `Edition.decode_octets`: the text is read from its octets.
-/

namespace TapAudit

open Text

/-- The numbers that an edition declares. -/
structure Edition where
  version : List Numeral
  version_ne_nil : version ≠ []
  revision : Option Numeral := none
  scheme : Option Numeral := none
  areReadable : Number.AreReadable
    (version.map Numeral.digits ++ (revision.toList ++ scheme.toList).map Numeral.digits)

namespace Edition

/-! ## The text -/

def lines (e : Edition) : List (List Char) :=
  "class Foo < Formula".toList ::
    ("  url ".toList ++ Script.literal (Version.archiveUrl e.version)) ::
      (e.revision.toList.map (fun n => "  revision ".toList ++ n.digits) ++
        e.scheme.toList.map (fun n => "  version_scheme ".toList ++ n.digits) ++ ["end".toList])

def text (e : Edition) : List Char :=
  unlines e.lines

/-- The text in UTF-8. -/
def octets (e : Edition) : List UInt8 :=
  e.text.flatMap String.utf8EncodeChar

/-- The version fields that the edition stands for. -/
def snapshot (e : Edition) : Snapshot where
  revision := e.revision.map fun n => n.value
  versionScheme := e.scheme.map fun n => n.value
  version := some (dotted e.version)

/-! ## As a formula without blocks -/

/-- A character that an archive URL may hold: it needs no care in a quoted argument. -/
def isUrlChar (c : Char) : Bool :=
  !(['"', '\\', '\n', '<'].contains c)

theorem isUrlChar_of_mem (e : Edition) : ∀ c ∈ Version.archiveUrl e.version, isUrlChar c = true :=
  List.forall_mem_append.mpr
    ⟨List.all_eq_true.mp (by decide), Version.of_mem_archiveName (by decide)⟩

theorem not_mem_archiveUrl (e : Edition) {c : Char} (hc : isUrlChar c = false) :
    c ∉ Version.archiveUrl e.version := by
  intro hmem
  rw [e.isUrlChar_of_mem c hmem] at hc
  cases hc

def url (e : Edition) : Script.Attribute where
  word := "url"
  kind := .url
  isKnown := by decide
  argument :=
    { text := Version.archiveUrl e.version
      isContent := fun c hc =>
        ⟨fun h => e.not_mem_archiveUrl (by decide) (h ▸ hc),
          fun h => e.not_mem_archiveUrl (by decide) (h ▸ hc)⟩
      onOneLine := e.not_mem_archiveUrl (by decide)
      noHeredoc := Script.noHeredoc_of_not_mem (e.not_mem_archiveUrl (by decide)) }

def revisionCall (n : Numeral) : Script.Call :=
  .number "revision" .revision (by decide) n

def schemeCall (n : Numeral) : Script.Call :=
  .number "version_scheme" .versionScheme (by decide) n

def calls (e : Edition) : List Script.Call :=
  e.url.call :: (e.revision.toList.map revisionCall ++ e.scheme.toList.map schemeCall)

def flat (e : Edition) : Script.Flat where
  name :=
    { initial := 'F', isCapital := by decide, rest := "oo".toList
      areWord := List.all_eq_true.mp (by decide) }
  calls := e.calls

theorem text_eq (e : Edition) : e.text = e.flat.text := by
  have hurl (argument : List Char) :
      "  url ".toList ++ argument = ' ' :: ' ' :: ("url".toList ++ ' ' :: argument) := rfl
  have hlines : e.lines = e.flat.header ::
      (e.flat.calls.map (' ' :: ' ' :: ·.statement) ++ [Script.closing]) := by
    rw [lines, hurl, show e.flat.calls = e.calls from rfl, calls, List.map_cons, List.map_append,
      List.map_map, List.map_map]
    rfl
  rw [text, hlines, Script.Flat.text]

/-- A character of a text that any reader takes as it is. -/
def isPlainChar (c : Char) : Bool :=
  c.toNat < 128 && c != '\r'

theorem isPlainChar_of_mem (e : Edition) : ∀ c ∈ e.text, isPlainChar c = true := by
  have hdigits (n : Numeral) : ∀ c ∈ n.digits, isPlainChar c = true := fun c hc =>
    of_isDigit (by decide) (n.areDigits c hc)
  have hurl : ∀ c ∈ Version.archiveUrl e.version, isPlainChar c = true :=
    List.forall_mem_append.mpr
    ⟨List.all_eq_true.mp (by decide), Version.of_mem_archiveName (by decide)⟩
  have hlines : ∀ line ∈ e.lines, ∀ c ∈ line, isPlainChar c = true := by
    rw [lines]
    simp only [List.forall_mem_append, List.forall_mem_cons, List.forall_mem_map, Script.literal]
    have hrevision : ∀ c ∈ "  revision ".toList, isPlainChar c = true :=
      List.all_eq_true.mp (by decide)
    have hscheme : ∀ c ∈ "  version_scheme ".toList, isPlainChar c = true :=
      List.all_eq_true.mp (by decide)
    exact ⟨List.all_eq_true.mp (by decide),
      ⟨List.all_eq_true.mp (by decide), by decide, hurl, by decide, by simp⟩,
      ⟨fun n _ => ⟨hrevision, hdigits n⟩, fun n _ => ⟨hscheme, hdigits n⟩⟩,
      List.all_eq_true.mp (by decide), by simp⟩
  intro c hc
  obtain ⟨line, hline, hc⟩ := List.mem_flatMap.mp hc
  rcases List.mem_append.mp hc with hc | hc
  · exact hlines line hline c hc
  · rw [List.mem_singleton.mp hc]
    decide

theorem decode_octets (e : Edition) : Utf8.decode e.octets = .ok e.text :=
  Utf8.decode_of_lt fun c hc =>
    of_decide_eq_true (Bool.and_eq_true_iff.mp (e.isPlainChar_of_mem c hc)).1

theorem normalizeLineEnds_text (e : Edition) : normalizeLineEnds e.text = e.text := by
  refine normalizeLineEnds_eq_self fun hmem => ?_
  exact absurd (e.isPlainChar_of_mem _ hmem) (by decide)

/-! ## The version fields -/

/-- The fields that are collected from the text. -/
def fields (e : Edition) : Snapshot.Fields where
  revision := e.revision.map fun n => n.value
  versionScheme := e.scheme.map fun n => n.value
  url := some (Script.literal (Version.archiveUrl e.version))

theorem add_revision (all : List Declaration) (f : Snapshot.Fields) (line : Nat) (n : Numeral) :
    (f.add all { kind := .revision, line, argument := n.digits }).value =
      { f with revision := some n.value } := by
  rw [← Snapshot.leadingInteger?_digits]
  exact congrArg (fun revision => { f with revision }) (Snapshot.declaredInteger_value _)

theorem add_scheme (all : List Declaration) (f : Snapshot.Fields) (line : Nat) (n : Numeral) :
    (f.add all { kind := .versionScheme, line, argument := n.digits }).value =
      { f with versionScheme := some n.value } := by
  rw [← Snapshot.leadingInteger?_digits]
  exact congrArg (fun versionScheme => { f with versionScheme }) (Snapshot.declaredInteger_value _)

theorem addAll_declarations (e : Edition) :
    (Snapshot.Fields.addAll e.flat.declarations {} e.flat.declarations).value = e.fields := by
  rw [Snapshot.addAll_value]
  obtain ⟨version, hne, revision, scheme⟩ := e
  cases revision with
  | none =>
    cases scheme with
    | none => rfl
    | some m => exact add_scheme _ _ 3 m
  | some n =>
    cases scheme with
    | none => exact add_revision _ _ 3 n
    | some m =>
      change (Snapshot.Fields.add _
        (Snapshot.Fields.add _ _ { kind := .revision, line := 3, argument := n.digits }).value
        { kind := .versionScheme, line := 4, argument := m.digits }).value = _
      rw [add_revision, add_scheme]
      rfl

theorem ofText_text (e : Edition) : Snapshot.ofText e.text = .ok (some e.snapshot) := by
  have hfields := e.addAll_declarations
  have hversion := Snapshot.downloadVersion_archive e.version_ne_nil
  have hurl : e.fields.url = some (Script.literal (Version.archiveUrl e.version)) := rfl
  have hnone : e.fields.version = none := rfl
  rw [e.text_eq, Snapshot.ofText_formula e.flat.isFormula_text, e.flat.declarations_text]
  dsimp only [Logged.pure_value]
  rw [Snapshot.ofDeclarations]
  dsimp only
  rw [hfields, hnone, hurl]
  dsimp only
  rw [hversion]
  simp only [Except.map, Logged.bind_value, Logged.pure_value, hfields]
  rfl

theorem scriptNumerals_text (e : Edition) :
    Snapshot.scriptNumerals e.text =
      (e.revision.toList ++ e.scheme.toList).map Numeral.digits := by
  have hdigits (n : Numeral) := Snapshot.leadingDigits?_digits n
  rw [e.text_eq, Snapshot.scriptNumerals, if_pos e.flat.isFormula_text, e.flat.declarations_text]
  obtain ⟨version, hne, revision, scheme, hreadable⟩ := e
  cases revision with
  | none =>
    cases scheme with
    | none => rfl
    | some m => exact List.filterMap_cons_some (hdigits m)
  | some n =>
    cases scheme with
    | none => exact List.filterMap_cons_some (hdigits n)
    | some m =>
      have hboth := List.filterMap_cons_some (hdigits n) (l := [m.digits])
      rw [List.filterMap_cons_some (hdigits m), List.filterMap_nil] at hboth
      exact hboth

theorem readText_text (e : Edition) : Snapshot.readText e.text = .ok (some e.snapshot) := by
  refine Snapshot.readText_eq_ok_iff.mpr ⟨?_, e.ofText_text⟩
  rw [e.scriptNumerals_text]
  exact (Number.areReadable_append.mp e.areReadable).2

theorem areReadable_compared (new old : Edition) :
    Number.AreReadable
      (Version.comparedNumerals new.snapshot.version old.snapshot.version) := by
  have hversion (e : Edition) : Number.AreReadable (e.version.map Numeral.digits) :=
    (Number.areReadable_append.mp e.areReadable).1
  have hcompared : Version.comparedNumerals new.snapshot.version old.snapshot.version = _ :=
    Version.comparedNumerals_dotted new.version_ne_nil old.version_ne_nil
  rw [hcompared]
  split_ifs
  · exact fun _ hmem => absurd hmem List.not_mem_nil
  · rw [List.map_append, Number.areReadable_append]
    exact ⟨hversion new, hversion old⟩

end Edition

end TapAudit
