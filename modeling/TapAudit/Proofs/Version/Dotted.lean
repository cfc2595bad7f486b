import TapAudit.Proofs.Text.Blank
import TapAudit.Proofs.Text.Letter
import TapAudit.Proofs.Text.Numeral
import TapAudit.Version.Comparison
import TapAudit.Version.Download

/-!
# Versions of dotted numbers

Dotted numbers are a version in the name of an archive, a release in regular form and a run of
digits for each number. They are ordered number by number, a missing number counting as zero.

- `moreNumbers_dotted`: dotted numbers are read up to their end.
- `ofText?_dotted`: dotted numbers are a release.
- `segments_dotted`, `numerals_dotted`: the segments and the numerals of dotted numbers.
- `compare_rightpad`: zeros that are added at the end make no difference.
- `compare_dotted`: versions of dotted numbers are compared number by number.
-/

namespace TapAudit.Version

open Text

/-! ## In the name of an archive -/

theorem afterLetters?_v_numeral (n : Numeral) (rest : List Char) :
    afterLetters? ['v'] (n.digits ++ rest) = none := by
  obtain ⟨c, digits, hdigits⟩ := List.exists_cons_of_ne_nil n.ne_nil
  have hc : c.isDigit = true := n.areDigits c (by simp [hdigits])
  rw [hdigits, List.cons_append]
  exact afterLetters?_of_endsRun 'v' (by decide) (endsRun_cons (isLetter_of_isDigit hc) _) []

theorem number?_dotted (n : Numeral) (numbers : List Numeral) {rest : List Char}
    (hrest : EndsRun isDigit rest) :
    number? (n.digits ++ (dottedRest numbers ++ rest)) =
      some (n.digits, dottedRest numbers ++ rest) := by
  have hdigits : ∀ c ∈ n.digits, isDigit c = true := fun c hc =>
    isDigit_of_isDigit (n.areDigits c hc)
  have hends : EndsRun isDigit (dottedRest numbers ++ rest) :=
    endsRun_dottedRest (by decide) numbers hrest
  rw [number?, takeWhile_run hdigits hends, dropWhile_run hdigits hends]
  split
  · next hnil => exact absurd hnil n.ne_nil
  · rfl

theorem moreNumbers_dotted {isSeparator : Char → Bool} (hdot : isSeparator '.' = true)
    {numbers : List Numeral} {rest : List Char} (hrest : EndsRun isDigit rest)
    (hseparator : EndsRun isSeparator rest) {fuel : Nat} (h : numbers.length ≤ fuel) :
    moreNumbers isSeparator fuel (dottedRest numbers ++ rest) = (dottedRest numbers, rest) := by
  induction numbers generalizing fuel with
  | nil =>
    cases fuel with
    | zero => rfl
    | succ fuel =>
      cases rest with
      | nil => rfl
      | cons c rest =>
        change moreNumbers isSeparator (fuel + 1) (c :: rest) = ([], c :: rest)
        rw [moreNumbers, hseparator c rfl]
        rfl
  | cons n numbers ih =>
    cases fuel with
    | zero => exact absurd h (by simp)
    | succ fuel =>
      rw [dottedRest_cons, List.cons_append, List.append_assoc, moreNumbers, if_pos hdot,
        number?_dotted n numbers hrest]
      dsimp only
      rw [ih (Nat.le_of_succ_le_succ h)]

theorem restoreDots_eq_self {version : List Char} (h : '_' ∉ version) :
    restoreDots version = version := by
  rw [restoreDots]
  split
  · rfl
  · refine (List.map_congr_left fun c hc => if_neg ?_).trans (List.map_id _)
    rintro rfl
    exact h hc

/-! ## As a release -/

theorem plainNumber?_dotted (n : Numeral) (numbers : List Numeral) :
    plainNumber? (n.digits ++ dottedRest numbers) = some (n.value, dottedRest numbers) := by
  have hends : EndsRun Char.isDigit (dottedRest numbers) := by
    simpa using endsRun_dottedRest (by decide) numbers endsRun_nil
  rw [plainNumber?, takeWhile_run n.areDigits hends, dropWhile_run n.areDigits hends]
  split
  · next hnil => exact absurd hnil n.ne_nil
  · rfl

theorem dottedNumbers_dotted {numbers : List Numeral} {fuel : Nat} (h : numbers.length ≤ fuel) :
    dottedNumbers fuel (dottedRest numbers) = (numbers.map Numeral.value, []) := by
  induction numbers generalizing fuel with
  | nil => cases fuel <;> rfl
  | cons n numbers ih =>
    cases fuel with
    | zero => exact absurd h (by simp)
    | succ fuel =>
      rw [dottedRest_cons, dottedNumbers]
      dsimp only
      rw [plainNumber?_dotted]
      dsimp only
      rw [ih (Nat.le_of_succ_le_succ h), List.map_cons]

theorem epochHere_dotted (n : Numeral) (numbers : List Numeral) :
    epochHere (n.digits ++ dottedRest numbers) = (0, n.digits ++ dottedRest numbers) := by
  rw [epochHere, plainNumber?_dotted]
  cases numbers with
  | nil => rfl
  | cons m numbers =>
    rw [dottedRest_cons]
    rfl

/-- The release of some numbers. -/
def plainRelease (numbers : List Nat) : Release :=
  { epoch := 0, numbers, pre := none, post := none, dev := none, label := none }

theorem ofText?_dotted {numbers : List Numeral} (hne : numbers ≠ []) :
    Release.ofText? (dotted numbers) = some (plainRelease (numbers.map Numeral.value)) := by
  obtain ⟨n, numbers, rfl⟩ := List.exists_cons_of_ne_nil hne
  have hblank : stripStart (n.digits ++ dottedRest numbers) = n.digits ++ dottedRest numbers := by
    obtain ⟨c, digits, hdigits⟩ := List.exists_cons_of_ne_nil n.ne_nil
    have hall : (tenDigits.all fun c => !isBlank c) = true := by decide
    have hc := of_isDigit hall (n.areDigits c (by simp [hdigits]))
    rw [hdigits, List.cons_append, stripStart, List.dropWhile_cons_of_neg (by simpa using hc)]
  rw [dotted_cons, Release.ofText?, hblank, afterLetters?_v_numeral, Option.getD_none]
  dsimp only
  rw [epochHere_dotted]
  dsimp only
  rw [plainNumber?_dotted, Option.bind_eq_bind, Option.bind_some]
  dsimp only
  rw [dottedNumbers_dotted (length_le_dottedRest numbers)]
  rfl

/-! ## In runs -/

theorem exists_runsFrom_digits_append {digits rest : List Char}
    (hdigits : ∀ c ∈ digits, isDigit c = true) (hrest : EndsRun isDigit rest)
    (reversed : List Char) :
    ∃ runs, runsFrom (.digits reversed) (digits ++ rest) =
        .digits (digits.reverse ++ reversed) :: runs ∧
      runsFrom .none rest = .none :: runs := by
  induction digits generalizing reversed with
  | nil =>
    cases rest with
    | nil => exact ⟨[], rfl, rfl⟩
    | cons c rest =>
      have hc := hrest c rfl
      cases hletter : isLetter c <;> simp [runsFrom, hc, hletter]
  | cons c digits ih =>
    rw [List.forall_mem_cons] at hdigits
    obtain ⟨runs, hruns, hnone⟩ := ih hdigits.2 (c :: reversed)
    refine ⟨runs, ?_, hnone⟩
    rw [List.cons_append, runsFrom, if_pos hdigits.1, hruns, List.reverse_cons, List.append_assoc,
      List.singleton_append]

theorem exists_runsFrom_numeral (n : Numeral) {rest : List Char} (hrest : EndsRun isDigit rest) :
    ∃ runs, runsFrom .none (n.digits ++ rest) = .none :: .digits n.digits.reverse :: runs ∧
      runsFrom .none rest = .none :: runs := by
  obtain ⟨c, digits, hdigits⟩ := List.exists_cons_of_ne_nil n.ne_nil
  have hall : ∀ d ∈ c :: digits, isDigit d = true := by
    intro d hd
    exact isDigit_of_isDigit (n.areDigits d (hdigits ▸ hd))
  rw [List.forall_mem_cons] at hall
  obtain ⟨runs, hruns, hnone⟩ := exists_runsFrom_digits_append hall.2 hrest [c]
  have hrun : runsFrom .none (c :: (digits ++ rest)) =
      .none :: runsFrom (.digits [c]) (digits ++ rest) :=
    if_pos hall.1
  refine ⟨runs, ?_, hnone⟩
  rw [hdigits, List.cons_append, hrun, hruns, List.reverse_cons]

section

variable {α : Type} {f : Run → List α} (hf : f .none = [])

include hf

theorem flatMap_runsFrom_numeral (n : Numeral) {rest : List Char} (hrest : EndsRun isDigit rest) :
    (runsFrom .none (n.digits ++ rest)).flatMap f =
      f (.digits n.digits.reverse) ++ (runsFrom .none rest).flatMap f := by
  obtain ⟨runs, hruns, hnone⟩ := exists_runsFrom_numeral n hrest
  rw [hruns, hnone, List.flatMap_cons, List.flatMap_cons, List.flatMap_cons, hf, List.nil_append,
    List.nil_append]

theorem flatMap_runsFrom_dottedRest (numbers : List Numeral) :
    (runsFrom .none (dottedRest numbers)).flatMap f =
      numbers.flatMap fun n => f (.digits n.digits.reverse) := by
  induction numbers with
  | nil => rw [dottedRest, List.flatMap_nil, runsFrom, List.flatMap_singleton, hf, List.flatMap_nil]
  | cons n numbers ih =>
    have hends : EndsRun isDigit (dottedRest numbers) := by
      simpa using endsRun_dottedRest (by decide) numbers endsRun_nil
    have hdot : runsFrom .none ('.' :: (n.digits ++ dottedRest numbers)) =
        .none :: runsFrom .none (n.digits ++ dottedRest numbers) := rfl
    rw [dottedRest_cons, hdot, List.flatMap_cons, hf, List.nil_append,
      flatMap_runsFrom_numeral hf n hends, ih, List.flatMap_cons]

theorem flatMap_runsFrom_dotted (n : Numeral) (numbers : List Numeral) :
    (runsFrom .none (dotted (n :: numbers))).flatMap f =
      (n :: numbers).flatMap fun n => f (.digits n.digits.reverse) := by
  have hends : EndsRun isDigit (dottedRest numbers) := by
    simpa using endsRun_dottedRest (by decide) numbers endsRun_nil
  rw [dotted_cons, flatMap_runsFrom_numeral hf n hends, flatMap_runsFrom_dottedRest hf,
    List.flatMap_cons]

end

theorem segments_dotted (n : Numeral) (numbers : List Numeral) :
    segments (dotted (n :: numbers)) = ((n :: numbers).map Numeral.value).map .number := by
  rw [segments, flatMap_runsFrom_dotted rfl]
  simp only [Run.segments, List.reverse_reverse, numeral_digits, List.map_map,
    ← List.map_eq_flatMap]
  rfl

theorem numerals_dotted (n : Numeral) (numbers : List Numeral) :
    numerals (dotted (n :: numbers)) = (n :: numbers).map Numeral.digits := by
  rw [numerals, flatMap_runsFrom_dotted rfl]
  simp only [Run.numerals, List.reverse_reverse, ← List.map_eq_flatMap]

theorem releaseNumerals_dotted (n : Numeral) (numbers : List Numeral) :
    releaseNumerals (dotted (n :: numbers)) = (n :: numbers).map Numeral.digits := by
  have hall : ∀ c ∈ dotted (n :: numbers), (c != '+') = true := of_mem_dotted (by decide)
  have hfront := takeWhile_run hall (endsRun_nil (p := (· != '+')))
  have hrest := dropWhile_run hall (endsRun_nil (p := (· != '+')))
  rw [List.append_nil] at hfront hrest
  rw [releaseNumerals, hfront, hrest, numerals_dotted]
  exact List.append_nil _

theorem comparedNumerals_dotted {a b : List Numeral} (ha : a ≠ []) (hb : b ≠ []) :
    comparedNumerals (some (dotted a)) (some (dotted b)) =
      if dotted a = dotted b then [] else (a ++ b).map Numeral.digits := by
  rw [comparedNumerals, ofText?_dotted ha, ofText?_dotted hb]
  obtain ⟨m, a, rfl⟩ := List.exists_cons_of_ne_nil ha
  obtain ⟨n, b, rfl⟩ := List.exists_cons_of_ne_nil hb
  rw [releaseNumerals_dotted, releaseNumerals_dotted, List.map_append]

theorem segmentNumerals_dotted {a b : List Numeral} (ha : a ≠ []) (hb : b ≠ []) :
    segmentNumerals (dotted a) (dotted b) = (a ++ b).map Numeral.digits := by
  obtain ⟨m, a, rfl⟩ := List.exists_cons_of_ne_nil ha
  obtain ⟨n, b, rfl⟩ := List.exists_cons_of_ne_nil hb
  rw [segmentNumerals, numerals_dotted, numerals_dotted, List.map_append]

/-! ## Order -/

/-- Compares numbers one by one, a missing one counting as zero. -/
def comparePadded (a b : List Nat) : Ordering :=
  let width := max a.length b.length
  Ord.compare (a.rightpad width 0) (b.rightpad width 0)

/-- Numbers without the zeros at the end. -/
def withoutZeros (numbers : List Nat) : List Nat :=
  numbers.rdropWhile (· == 0)

theorem withoutZeros_cons (n : Nat) (numbers : List Nat) :
    withoutZeros (n :: numbers) =
      if n = 0 ∧ withoutZeros numbers = [] then [] else n :: withoutZeros numbers := by
  rw [withoutZeros, rdropWhile_cons, withoutZeros]
  simp only [beq_iff_eq]

theorem compare_withoutZeros_cons (m n : Nat) (a b : List Nat) :
    Ord.compare (withoutZeros (m :: a)) (withoutZeros (n :: b)) =
      (Ord.compare m n).then (Ord.compare (withoutZeros a) (withoutZeros b)) := by
  rw [withoutZeros_cons, withoutZeros_cons]
  by_cases ha : m = 0 ∧ withoutZeros a = []
  · rw [if_pos ha, ha.1, ha.2]
    by_cases hb : n = 0 ∧ withoutZeros b = []
    · rw [if_pos hb, hb.1, hb.2]
      rfl
    · rw [if_neg hb]
      cases n with
      | succ n => rfl
      | zero =>
        obtain ⟨k, rest, hrest⟩ := List.exists_cons_of_ne_nil fun hnil => hb ⟨rfl, hnil⟩
        rw [hrest]
        rfl
  · rw [if_neg ha]
    by_cases hb : n = 0 ∧ withoutZeros b = []
    · rw [if_pos hb, hb.1, hb.2]
      cases m with
      | succ m => rfl
      | zero =>
        obtain ⟨k, rest, hrest⟩ := List.exists_cons_of_ne_nil fun hnil => ha ⟨rfl, hnil⟩
        rw [hrest]
        rfl
    · rw [if_neg hb]
      exact List.compareLex_cons_cons

theorem compare_rightpad {width : Nat} {a b : List Nat} (ha : a.length ≤ width)
    (hb : b.length ≤ width) :
    Ord.compare (a.rightpad width 0) (b.rightpad width 0) =
      Ord.compare (withoutZeros a) (withoutZeros b) := by
  induction width generalizing a b with
  | zero =>
    rw [List.length_eq_zero_iff.mp (Nat.le_zero.mp ha),
      List.length_eq_zero_iff.mp (Nat.le_zero.mp hb)]
    rfl
  | succ width ih =>
    have hcons (m : Nat) (a : List Nat) :
        (m :: a).rightpad (width + 1) 0 = m :: a.rightpad width 0 := by
      simp [List.rightpad]
    -- A list that has come to its end goes on with zeros.
    have hnil : ([] : List Nat).rightpad (width + 1) 0 = 0 :: ([] : List Nat).rightpad width 0 := by
      simp [List.rightpad, List.replicate_succ]
    have hzero : withoutZeros [] = withoutZeros (0 :: []) := rfl
    have hstep (m n : Nat) {a b : List Nat} (ha : a.length ≤ width) (hb : b.length ≤ width) :
        Ord.compare (m :: a.rightpad width 0) (n :: b.rightpad width 0) =
          Ord.compare (withoutZeros (m :: a)) (withoutZeros (n :: b)) := by
      rw [compare_withoutZeros_cons, ← ih ha hb]
      exact List.compareLex_cons_cons
    have hend : ([] : List Nat).length ≤ width := Nat.zero_le width
    cases a with
    | nil =>
      cases b with
      | nil => rw [hnil, hzero, hstep 0 0 hend hend]
      | cons n b => rw [hnil, hcons, hzero, hstep 0 n hend (Nat.le_of_succ_le_succ hb)]
    | cons m a =>
      cases b with
      | nil => rw [hnil, hcons, hzero, hstep m 0 (Nat.le_of_succ_le_succ ha) hend]
      | cons n b =>
        rw [hcons, hcons, hstep m n (Nat.le_of_succ_le_succ ha) (Nat.le_of_succ_le_succ hb)]

theorem compare_plainRelease (a b : List Nat) :
    (plainRelease a).compare (plainRelease b) = comparePadded a b := by
  have hrest : ((plainRelease a).prePlace.compare (plainRelease b).prePlace).then
      (((plainRelease a).postPlace.compare (plainRelease b).postPlace).then
        (((plainRelease a).devPlace.compare (plainRelease b).devPlace).then
          (compareLabels (plainRelease a).label (plainRelease b).label))) = .eq := rfl
  rw [Release.compare, hrest, Ordering.then_eq, comparePadded,
    compare_rightpad (Nat.le_max_left ..) (Nat.le_max_right ..)]
  rfl

theorem comparePadded_self (numbers : List Nat) : comparePadded numbers numbers = .eq := by
  have hself (l : List Nat) : Ord.compare l l = .eq := Std.ReflCmp.compare_self
  exact hself _

theorem compare_dotted {a b : List Numeral} (ha : a ≠ []) (hb : b ≠ []) :
    (compare (some (dotted a)) (some (dotted b))).value =
      .ofOrdering (comparePadded (a.map Numeral.value) (b.map Numeral.value)) := by
  rw [compare]
  split
  · next heq =>
    have hrelease := congrArg Release.ofText? heq
    rw [ofText?_dotted ha, ofText?_dotted hb, Option.some.injEq] at hrelease
    have hnumbers : a.map Numeral.value = b.map Numeral.value := congrArg Release.numbers hrelease
    rw [hnumbers, comparePadded_self]
    rfl
  · rw [ofText?_dotted ha, ofText?_dotted hb]
    dsimp only
    rw [compare_plainRelease]
    rfl

end TapAudit.Version
