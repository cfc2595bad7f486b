import TapAudit.Proofs.Scope
import TapAudit.Proofs.Text.Numeral

/-!
# Which declarations count

The snapshot is collected in one pass over the declarations. What comes out can be told without it:
the revision and the version scheme are those that are declared last, the version is the first that
can be used, and failing that it is the version of the first download (`ofDeclarations_precedence`).

The fields do not depend on each other (`add_value`), so the pass is one fold for each of them. In
one kind of fold the last declaration wins (`foldl_last`), in the other the first one
(`foldl_first`).

Integers that are too long are not read (`find?_numerals_eq_some_iff`), so those that have been read
can be written again (`areWritable_of_readText`).
-/

namespace TapAudit.Snapshot

open Script Text

/-! ## Scopes -/

/-- The declaration describes the stable download: it stands directly in a stable block of the class
body, or directly in the class body if there is no such block. -/
def IsInScope (all : List Declaration) (d : Declaration) : Prop :=
  (∃ p block, d.parent = some p ∧ all[p]? = some block ∧ isStableBlock block = true) ∨
    d.parent = none ∧ ∀ block ∈ all, isStableBlock block = false

variable {all : List Declaration} {d : Declaration}

theorem isTopLevel_iff : d.isTopLevel = true ↔ d.parent = none := by
  rw [Declaration.isTopLevel, Option.isNone_iff_eq_none]

theorem describesStable_iff : describesStable all d = true ↔ IsInScope all d := by
  rw [describesStable, IsInScope, hasStableBlock_eq]
  cases hparent : d.parent with
  | none => simp [isStable, hparent, isTopLevel_iff.mpr hparent]
  | some p =>
    have htop : d.isTopLevel = false := by simp [Declaration.isTopLevel, hparent]
    simp [isStable_of_parent hparent, htop, Option.any_eq_true]

instance (all : List Declaration) (d : Declaration) : Decidable (IsInScope all d) :=
  decidable_of_iff _ describesStable_iff

/-! ## One declaration -/

theorem add_value (all : List Declaration) (f : Fields) (d : Declaration) :
    (f.add all d).value =
      { revision :=
          if d.kind = .revision ∧ d.parent = none then leadingInteger? d.argument else f.revision
        versionScheme :=
          if d.kind = .versionScheme ∧ d.parent = none then leadingInteger? d.argument
          else f.versionScheme
        version :=
          if d.kind = .version ∧ IsInScope all d then f.version.or (firstQuoted? d.argument)
          else f.version
        url := if d.kind = .url ∧ IsInScope all d then f.url.or (some d.argument) else f.url } := by
  obtain ⟨revision, scheme, version, url⟩ := f
  simp only [← describesStable_iff, ← isTopLevel_iff]
  rw [Fields.add]
  split
  · next hkind => cases d.isTopLevel <;> simp [hkind, declaredInteger_value]
  · next hkind => cases d.isTopLevel <;> simp [hkind, declaredInteger_value]
  · next hkind => cases describesStable all d <;> cases url <;> simp [hkind]
  · next hkind => cases describesStable all d <;> cases version <;> simp [hkind]
  · next hrevision hscheme hurl hversion =>
    have hkinds : d.kind ≠ .revision ∧ d.kind ≠ .versionScheme ∧ d.kind ≠ .url ∧
      d.kind ≠ .version := ⟨hrevision, hscheme, hurl, hversion⟩
    simp [hkinds]

/-! ## All of them -/

section

variable {α : Type} (read : Declaration → Option α) (start : Option α) (ds : List Declaration)

theorem foldl_last :
    ds.foldl (fun _ d => read d) start = (ds.getLast?.map read).getD start := by
  induction ds generalizing start with
  | nil => rfl
  | cons d ds ih =>
    rw [List.foldl_cons, ih, List.getLast?_cons]
    cases ds.getLast? <;> rfl

/-- If a declaration tells something only as long as nothing has been told, the first one counts
that tells anything. -/
theorem foldl_first :
    ds.foldl (fun told d => told.or (read d)) start = start.or (ds.findSome? read) := by
  induction ds generalizing start with
  | nil => exact Option.or_none.symm
  | cons d ds ih =>
    rw [List.foldl_cons, ih, List.findSome?_cons, Option.or_assoc]
    cases read d <;> rfl

end

/-- The pass over the declarations takes the fields one by one, each from the declarations that tell
of it. -/
theorem addAll_eq (all : List Declaration) (f : Fields) (ds : List Declaration) :
    (f.addAll all ds).value =
      { revision :=
          (ds.filter fun d => d.kind = .revision ∧ d.parent = none).foldl
            (fun _ d => leadingInteger? d.argument) f.revision
        versionScheme :=
          (ds.filter fun d => d.kind = .versionScheme ∧ d.parent = none).foldl
            (fun _ d => leadingInteger? d.argument) f.versionScheme
        version :=
          (ds.filter fun d => d.kind = .version ∧ IsInScope all d).foldl
            (fun told d => told.or (firstQuoted? d.argument)) f.version
        url :=
          (ds.filter fun d => d.kind = .url ∧ IsInScope all d).foldl
            (fun told d => told.or (some d.argument)) f.url } := by
  simp only [List.foldl_filter, decide_eq_true_eq]
  rw [addAll_value]
  induction ds generalizing f with
  | nil => rfl
  | cons d ds ih =>
    rw [List.foldl_cons, ih, add_value]
    rfl

/-! ## What is declared -/

/-- The last declaration of a kind in the class body. -/
def lastOf? (kind : Kind) (all : List Declaration) : Option Declaration :=
  (all.filter fun d => d.kind = kind ∧ d.parent = none).getLast?

/-- The integer at the start of the last declaration of a kind in the class body. -/
def integerOf? (kind : Kind) (all : List Declaration) : Option Int :=
  (lastOf? kind all).bind fun d => leadingInteger? d.argument

/-- The first quoted text of a version in scope. -/
def declaredVersion? (all : List Declaration) : Option (List Char) :=
  (all.filter fun d => d.kind = .version ∧ IsInScope all d).findSome? fun d =>
    firstQuoted? d.argument

/-- The first download in scope. -/
def download? (all : List Declaration) : Option Declaration :=
  all.find? fun d => d.kind = .url ∧ IsInScope all d

/-- The version of a download, by its tag or else by its URL. -/
def versionOfDownload (d : Declaration) : Except Url.Fault (Option (List Char)) :=
  match Version.ofTag? d.argument, firstQuoted? d.argument with
  | some version, _ => .ok (some version)
  | none, none => .ok none
  | none, some [] => .ok none
  | none, some (c :: url) => (Version.ofUrl (c :: url)).map (·.value)

/-- The stable version: the one that is declared, else that of the first download. -/
def stableVersion (all : List Declaration) : Except Url.Fault (Option (List Char)) :=
  match declaredVersion? all, download? all with
  | some version, _ => .ok (some version)
  | none, some d => versionOfDownload d
  | none, none => .ok none

theorem addAll_all (all : List Declaration) :
    (Fields.addAll all {} all).value =
      { revision := integerOf? .revision all
        versionScheme := integerOf? .versionScheme all
        version := declaredVersion? all
        url := (download? all).map (·.argument) } := by
  have hinteger (kind : Kind) :
      ((lastOf? kind all).map fun d => leadingInteger? d.argument).getD none =
        integerOf? kind all := by
    rw [integerOf?]
    cases lastOf? kind all <;> rfl
  have hdownload (ds : List Declaration) :
      (ds.findSome? fun d => some d.argument) = ds.head?.map (·.argument) := by
    cases ds <;> rfl
  rw [addAll_eq, foldl_last, foldl_last, foldl_first, foldl_first, ← hinteger, ← hinteger,
    download?, ← List.head?_filter, hdownload]
  rfl

theorem downloadVersion_value (d : Declaration) :
    (downloadVersion d.argument).map (·.value) = versionOfDownload d := by
  rw [downloadVersion, versionOfDownload]
  rcases Version.ofTag? d.argument with _ | version
  · rcases firstQuoted? d.argument with _ | _ | ⟨c, url⟩ <;> rfl
  · rfl

theorem ofDeclarations_value (all : List Declaration) :
    (ofDeclarations all).map (·.value) =
      (stableVersion all).map fun version =>
        { revision := (Fields.addAll all {} all).value.revision
          versionScheme := (Fields.addAll all {} all).value.versionScheme
          version } := by
  have hversion : (Fields.addAll all {} all).value.version = declaredVersion? all := by
    rw [addAll_all]
  have hurl : (Fields.addAll all {} all).value.url = (download? all).map (·.argument) := by
    rw [addAll_all]
  rw [ofDeclarations, stableVersion]
  simp only [hversion, hurl]
  cases declaredVersion? all with
  | some version => rfl
  | none =>
    cases download? all with
    | none => rfl
    | some d =>
      simp only [Option.map_some, ← downloadVersion_value]
      cases downloadVersion d.argument <;> rfl

/-! ## Integers -/

/-- The argument starts with these digits: with all of a run of digits behind which no word goes
on. -/
def StartsWithNumeral (argument digits : List Char) : Prop :=
  ∃ rest, argument = digits ++ rest ∧ digits ≠ [] ∧ (∀ c ∈ digits, isDigit c = true) ∧
    EndsRun isDigit rest ∧ startsWord rest = false

/-- The argument starts with the integer `n`. -/
def StartsWithInteger (argument : List Char) (n : Int) : Prop :=
  ∃ digits, StartsWithNumeral argument digits ∧ n = numeral digits

theorem leadingDigits?_eq_some_iff {argument digits : List Char} :
    leadingDigits? argument = some digits ↔ StartsWithNumeral argument digits := by
  constructor
  · intro h
    rw [leadingDigits?] at h
    split at h
    · cases h
    · next hne =>
      rw [Option.ite_none_left_eq_some] at h
      obtain ⟨hword, hdigits⟩ := h
      rw [← Option.some.inj hdigits]
      exact ⟨argument.dropWhile isDigit, List.takeWhile_append_dropWhile.symm, hne,
        fun c hc => List.mem_takeWhile_imp hc, endsRun_dropWhile argument,
        Bool.eq_false_iff.mpr hword⟩
  · rintro ⟨rest, rfl, hne, hdigits, hrest, hword⟩
    obtain ⟨c, digits, rfl⟩ := List.exists_cons_of_ne_nil hne
    rw [leadingDigits?, takeWhile_run hdigits hrest, dropWhile_run hdigits hrest, hword]
    rfl

theorem leadingInteger?_eq_some_iff {argument : List Char} {n : Int} :
    leadingInteger? argument = some n ↔ StartsWithInteger argument n := by
  rw [leadingInteger?, Option.map_eq_some_iff]
  refine exists_congr fun digits => ?_
  rw [leadingDigits?_eq_some_iff, eq_comm]

theorem leadingDigits?_digits (n : Numeral) : leadingDigits? n.digits = some n.digits :=
  leadingDigits?_eq_some_iff.mpr
    ⟨[], (List.append_nil _).symm, n.ne_nil, fun c hc => isDigit_of_isDigit (n.areDigits c hc),
      endsRun_nil, rfl⟩

theorem leadingInteger?_digits (n : Numeral) : leadingInteger? n.digits = some (n.value : Int) := by
  rw [leadingInteger?, leadingDigits?_digits, Option.map_some, numeral_digits]

/-- The declaration is a revision or a version scheme of the class body, and the integer that it
starts with is too long to be read. -/
def IsTooLong (d : Declaration) (digits : List Char) : Prop :=
  (d.kind = .revision ∨ d.kind = .versionScheme) ∧ d.parent = none ∧
    StartsWithNumeral d.argument digits ∧ Number.mostDigits < digits.length

theorem isTooLong_iff {digits : List Char} :
    IsTooLong d digits ↔ isRead d = true ∧ leadingDigits? d.argument = some digits ∧
      Number.isLongNumeral digits = true := by
  simp only [IsTooLong, isRead, Number.isLongNumeral, leadingDigits?_eq_some_iff, ← isTopLevel_iff,
    Bool.and_eq_true, Bool.or_eq_true, beq_iff_eq, decide_eq_true_eq, and_assoc]

theorem find?_numerals_eq_some_iff {digits : List Char} :
    (numerals all).find? Number.isLongNumeral = some digits ↔
      ∃ before d after, all = before ++ d :: after ∧
        (∀ e ∈ before, ∀ digits, ¬ IsTooLong e digits) ∧ IsTooLong d digits := by
  have hlong (d : Declaration) :
      isRead d = true ∧ (leadingDigits? d.argument).any Number.isLongNumeral = true ↔
        ∃ digits, IsTooLong d digits := by
    simp only [isTooLong_iff, Option.any_eq_true, exists_and_left]
  rw [numerals, List.find?_filterMap, List.find?_filter, Option.bind_eq_some_iff]
  simp only [List.find?_eq_some_iff_append, hlong, decide_eq_true_eq, Bool.not_eq_true',
    decide_eq_false_iff_not, not_exists]
  constructor
  · rintro ⟨d, ⟨⟨long, hd⟩, before, after, rfl, hbefore⟩, hdigits⟩
    have hsome := hdigits.symm.trans (isTooLong_iff.mp hd).2.1
    rw [Option.some.inj hsome]
    exact ⟨before, d, after, rfl, hbefore, hd⟩
  · rintro ⟨before, d, after, rfl, hbefore, hd⟩
    exact ⟨d, ⟨⟨digits, hd⟩, before, after, rfl, hbefore⟩, (isTooLong_iff.mp hd).2.1⟩

theorem areReadable_numerals (h : ∀ d ∈ all, ∀ digits, ¬ IsTooLong d digits) :
    Number.AreReadable (numerals all) := by
  rw [← Number.find?_isLongNumeral_eq_none_iff, Option.eq_none_iff_forall_ne_some]
  intro digits hfind
  obtain ⟨before, d, after, rfl, -, hd⟩ := find?_numerals_eq_some_iff.mp hfind
  exact h d (by simp) digits hd

/--
**Which declarations count.** Whatever the declarations, and however they are nested, the first
integer of a revision or a version scheme in the class body that is too long is the fault. If there
is none, the revision and the version scheme are the integers that the last declarations of these
kinds in the class body start with. The version is the first quoted text that a version in scope
has; if there is none, it is that of the first download in scope, and no other download is looked
at.
-/
theorem ofDeclarations_precedence (all : List Declaration) :
    (∀ fault, read all = .error (.number fault) ↔
        ∃ before d after digits, all = before ++ d :: after ∧
          (∀ e ∈ before, ∀ digits, ¬ IsTooLong e digits) ∧ IsTooLong d digits ∧
          fault = .reading digits.length) ∧
      ((∀ d ∈ all, ∀ digits, ¬ IsTooLong d digits) →
        (read all).map (·.value) =
          ((stableVersion all).mapError .url).map fun version =>
            { revision := integerOf? .revision all
              versionScheme := integerOf? .versionScheme all
              version }) ∧
      ∀ kind n, integerOf? kind all = some n ↔
        ∃ d, lastOf? kind all = some d ∧ StartsWithInteger d.argument n := by
  refine ⟨?_, ?_, ?_⟩
  · intro fault
    rw [read, afterReading_eq_error_number_iff, Number.afterReading_eq_error_iff]
    simp only [find?_numerals_eq_some_iff]
    constructor
    · rintro ⟨digits, ⟨before, d, after, hall, hbefore, hd⟩, hfault⟩
      exact ⟨before, d, after, digits, hall, hbefore, hd, hfault⟩
    · rintro ⟨before, d, after, digits, hall, hbefore, hd, hfault⟩
      exact ⟨digits, ⟨before, d, after, hall, hbefore, hd⟩, hfault⟩
  · intro hshort
    rw [read, afterReading_map, afterReading_of_readable (areReadable_numerals hshort),
      ofDeclarations_value, addAll_all]
    cases stableVersion all <;> rfl
  · intro kind n
    rw [integerOf?, Option.bind_eq_some_iff]
    simp only [leadingInteger?_eq_some_iff]

/-- Two revisions, and versions in the class body and in a stable block. -/
def stableSample : List Declaration :=
  [{ kind := .revision, line := 2, argument := "1".toList },
    { kind := .version, line := 3, argument := "\"1.0\"".toList },
    { kind := .stableBlock, line := 4, opensBlock := true },
    { kind := .version, line := 5, parent := some 2, argument := "'2.0".toList },
    { kind := .version, line := 6, parent := some 2, argument := "'3.0'".toList },
    { kind := .revision, line := 8, argument := "2".toList }]

/-- A version of the class body does not count if there is a stable block, and one in that block
does only if it has a quoted text. -/
theorem ofDeclarations_precedence_stable :
    (read stableSample).map (·.value) =
      .ok { revision := some 2, version := some "3.0".toList } := by
  have hshort : ∀ d ∈ stableSample, ∀ digits, ¬ IsTooLong d digits := by
    intro d hd digits hlong
    obtain ⟨-, hdigits, hlong⟩ := isTooLong_iff.mp hlong
    have hall : ∀ d ∈ stableSample,
        (leadingDigits? d.argument).any Number.isLongNumeral = false := by decide +kernel
    have hany := hall d hd
    rw [hdigits, Option.any_some, hlong] at hany
    cases hany
  rw [(ofDeclarations_precedence stableSample).2.1 hshort]
  rfl

/-- A revision with one digit too many. -/
def longRevision : Declaration :=
  { kind := .revision, line := 2, argument := Numeral.tooLong.digits }

/-- The revision is declared, and nothing is read. -/
theorem read_fails_on_long_revision :
    integerOf? .revision [longRevision] = some (Numeral.tooLong.value : Int) ∧
      read [longRevision] = .error (.number (.reading 4301)) := by
  have hlast : lastOf? .revision [longRevision] = some longRevision := rfl
  have hread : [longRevision].filter isRead = [longRevision] := rfl
  have hdigits : leadingDigits? longRevision.argument = some Numeral.tooLong.digits :=
    leadingDigits?_digits _
  constructor
  · rw [integerOf?, hlast, Option.bind_some, leadingInteger?, hdigits, Option.map_some,
      numeral_digits]
  · rw [read, afterReading_eq_error_number_iff, numerals, hread, List.filterMap_cons,
      hdigits]
    exact Numeral.afterReading_tooLong _ _

/-! ## Numbers that are read -/

/-- The numbers of the state can be written out. -/
structure AreWritable (s : Snapshot) : Prop where
  revision : Number.IsWritable s.effectiveRevision
  scheme : Number.IsWritable s.effectiveScheme

theorem isWritable_integerOf? (h : Number.AreReadable (numerals all)) {kind : Kind}
    (hkind : kind = .revision ∨ kind = .versionScheme) :
    Number.IsWritable ((integerOf? kind all).getD 0) := by
  cases hinteger : integerOf? kind all with
  | none => exact Number.tenTo_pos _
  | some n =>
    obtain ⟨d, hlast, hn⟩ := Option.bind_eq_some_iff.mp hinteger
    obtain ⟨digits, hdigits, rfl⟩ := Option.map_eq_some_iff.mp hn
    obtain ⟨hmem, hd⟩ := List.mem_filter.mp (List.mem_of_getLast? hlast)
    rw [decide_eq_true_eq] at hd
    have hread : isRead d = true := by
      rcases hkind with rfl | rfl <;> simp [isRead, hd.1, isTopLevel_iff.mpr hd.2]
    exact isWritable_numeral (h digits
      (List.mem_filterMap.mpr ⟨d, List.mem_filter.mpr ⟨hmem, hread⟩, hdigits⟩))

theorem areWritable_of_ofDeclarations (h : Number.AreReadable (numerals all)) {s : Logged Snapshot}
    (hs : ofDeclarations all = .ok s) : s.value.AreWritable := by
  have hvalue := ofDeclarations_value all
  rw [hs, addAll_all] at hvalue
  obtain ⟨version, -, hvalue⟩ := map_eq_ok.mp hvalue.symm
  rw [← show _ = s.value from hvalue]
  exact ⟨isWritable_integerOf? h (.inl rfl), isWritable_integerOf? h (.inr rfl)⟩

theorem areWritable_of_readText {text : List Char} {s : Snapshot}
    (h : readText text = .ok (some s)) : s.AreWritable := by
  obtain ⟨hreadable, htext⟩ := readText_eq_ok_iff.mp h
  have hformula := isFormula_of_ofText htext
  rw [scriptNumerals, if_pos hformula] at hreadable
  rw [ofText_formula hformula] at htext
  obtain ⟨found, hfound, heq⟩ := map_eq_ok.mp htext
  rw [← Option.some.inj heq]
  exact areWritable_of_ofDeclarations hreadable hfound

end TapAudit.Snapshot
