import TapAudit.Auditor
import TapAudit.Proofs.Number.Limit
import TapAudit.Proofs.Url

/-!
# Snapshots and faulty URLs

Reading the snapshot of a text fails in two cases only: an integer of the class body is too long, or
the version has to be taken from the path of a URL, and the authority of that URL is faulty.

- `Snapshot.ofDeclarations_eq_error_iff`: declarations without a snapshot.
- `Snapshot.ofText_eq_error_iff`: texts without a snapshot, whatever the length of integers.
- `Snapshot.readText_eq_ok_iff`, `Snapshot.readText_fails_iff`: what is read of a text.
-/

namespace TapAudit

namespace Snapshot

/-! ## The URL that is consulted -/

/-- The URL that the version is taken from: that of the download, if no version is declared and the
download has no tag. -/
def consultedUrl? (all : List Declaration) : Option (List Char) :=
  let fields := (Fields.addAll all {} all).value
  match fields.version, fields.url with
  | none, some argument =>
    if (Version.ofTag? argument).isSome then none
    else (Script.firstQuoted? argument).filter (· ≠ [])
  | _, _ => none

theorem ofUrl_eq_error_iff {url : List Char} {fault : Url.Fault} :
    Version.ofUrl url = .error fault ↔ Url.path url = .error fault := by
  rw [Version.ofUrl]
  cases Url.path url <;> simp [bind, Except.bind, pure, Except.pure]

theorem downloadVersion_eq_error_iff {argument : List Char} {fault : Url.Fault} :
    downloadVersion argument = .error fault ↔
      Version.ofTag? argument = none ∧
        ∃ url, Script.firstQuoted? argument = some url ∧ url ≠ [] ∧
          Url.path url = .error fault := by
  rw [downloadVersion]
  cases Version.ofTag? argument with
  | some version => simp
  | none =>
    match Script.firstQuoted? argument with
    | none => simp
    | some [] => simp
    | some (c :: url) => simp [ofUrl_eq_error_iff]

theorem ofDeclarations_eq_error_iff {all : List Declaration} {fault : Url.Fault} :
    ofDeclarations all = .error fault ↔
      ∃ url, consultedUrl? all = some url ∧ Url.path url = .error fault := by
  rw [ofDeclarations, consultedUrl?]
  dsimp only
  cases (Fields.addAll all {} all).value.version with
  | some version => simp
  | none =>
    cases (Fields.addAll all {} all).value.url with
    | none => simp
    | some argument =>
      simp only [map_eq_error, downloadVersion_eq_error_iff]
      cases Version.ofTag? argument <;> simp [Option.filter_eq_some_iff, and_assoc]

/-! ## The snapshot of a text -/

/-- The version fields of a text, if it defines a formula. -/
def ofText (text : List Char) : Except Url.Fault (Option Snapshot) :=
  (ofScript text).map (·.value)

theorem ofText_formula {text : List Char} (h : Script.isFormula text) :
    ofText text =
      (ofDeclarations (Script.declarations text).value).map fun s => some s.value := by
  rw [ofText, ofScript, if_pos h]
  dsimp only
  cases ofDeclarations (Script.declarations text).value <;> rfl

theorem ofText_of_not_formula {text : List Char} (h : ¬ Script.isFormula text) :
    ofText text = .ok none := by
  rw [ofText, ofScript, if_neg h]
  rfl

/-- The text defines a formula whose version would have to be taken from a faulty URL. -/
def HasFaultyUrl (text : List Char) : Prop :=
  Script.isFormula text ∧
    ∃ url, consultedUrl? (Script.declarations text).value = some url ∧ Url.IsFaulty url

theorem ofText_eq_error_iff {text : List Char} :
    (∃ fault, ofText text = .error fault) ↔ HasFaultyUrl text := by
  by_cases h : Script.isFormula text
  · simp only [ofText_formula h, map_eq_error, ofDeclarations_eq_error_iff, HasFaultyUrl, h,
      Url.IsFaulty, true_and]
    constructor
    · rintro ⟨fault, url, hurl, hfault⟩
      exact ⟨url, hurl, fault, hfault⟩
    · rintro ⟨url, hurl, fault, hfault⟩
      exact ⟨fault, url, hurl, hfault⟩
  · simp [ofText_of_not_formula h, HasFaultyUrl, h]

theorem isFormula_of_ofText {text : List Char} {s : Snapshot} (h : ofText text = .ok (some s)) :
    Script.isFormula text := by
  by_contra hnot
  rw [ofText_of_not_formula hnot] at h
  cases h

theorem not_isFormula_of_ofText {text : List Char} (h : ofText text = .ok none) :
    ¬ Script.isFormula text := by
  intro hformula
  rw [ofText_formula hformula, map_eq_ok] at h
  obtain ⟨_, _, hnone⟩ := h
  cases hnone

/-! ## Reading -/

section

variable {α β : Type} {numerals : List (List Char)} {result : Except Url.Fault α}

theorem afterReading_eq_ok_iff {a : α} :
    afterReading numerals result = .ok a ↔ Number.AreReadable numerals ∧ result = .ok a := by
  simp [afterReading, bind_eq_ok, mapError_eq_ok, Number.afterReading_eq_ok_iff]

theorem afterReading_of_readable (h : Number.AreReadable numerals) :
    afterReading numerals result = result.mapError .url := by
  rw [afterReading, Number.afterReading_of_readable h]
  rfl

theorem afterReading_eq_error_number_iff {fault : Number.Fault} :
    afterReading numerals result = .error (.number fault) ↔
      Number.afterReading numerals result = .error fault := by
  rw [afterReading]
  rcases Number.afterReading numerals result with _ | result
  · simp [bind, Except.bind, Except.mapError]
  · cases result <;> simp [bind, Except.bind, Except.mapError]

theorem afterReading_map (f : α → β) :
    (afterReading numerals result).map f = afterReading numerals (result.map f) := by
  rw [afterReading, afterReading, Number.afterReading, Number.afterReading]
  cases numerals.find? Number.isLongNumeral <;> cases result <;> rfl

end

/-- The version fields that are read of a text, if it defines a formula. -/
def readText (text : List Char) : Except Fault (Option Snapshot) :=
  (readScript text).map (·.value)

theorem readText_eq (text : List Char) :
    readText text = afterReading (scriptNumerals text) (ofText text) :=
  afterReading_map _

theorem readText_eq_ok_iff {text : List Char} {s : Option Snapshot} :
    readText text = .ok s ↔ Number.AreReadable (scriptNumerals text) ∧ ofText text = .ok s := by
  rw [readText_eq, afterReading_eq_ok_iff]

/-- An integer in the class body is too long to be read, or the version would have to be taken from
a faulty URL. -/
def IsFaulty (text : List Char) : Prop :=
  ¬ Number.AreReadable (scriptNumerals text) ∨ HasFaultyUrl text

theorem readText_fails_iff {text : List Char} :
    (∃ fault, readText text = .error fault) ↔ IsFaulty text := by
  rw [IsFaulty, ← ofText_eq_error_iff, ← not_iff_not, ← exists_ok_iff, not_or, not_not,
    ← exists_ok_iff]
  simp only [readText_eq_ok_iff, exists_and_left]

theorem formula_snapshot (text : List Char) (path : Path) :
    (Formula.ofText text path).snapshot = readText text := by
  rw [readText_eq, Formula.snapshot, Formula.ofText, scriptNumerals]
  by_cases h : Script.isFormula text
  · rw [if_pos h, if_pos h, ofText_formula h, read, afterReading_map]
  · rw [if_neg h, if_neg h, ofText_of_not_formula h]
    rfl

end Snapshot

end TapAudit
