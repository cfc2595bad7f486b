import TapAudit.Proofs.Text.Blank
import TapAudit.Proofs.Text.Letter
import TapAudit.Proofs.Version.Dotted

/-!
# The end of a version

After its numbers a version may have a suffix: one letter, or a stage with or without a number. The
rest of the name is a tail, such as the name of a platform. A letter, a stage and a tail begin
alike, and the longest reading is tried first: `rc1` begins with a letter, and the tail of `1.0-arm`
with a stage. A reading that leaves anything else than a tail is given up, and this is what brings
the right one to light.

- `stageHere?_stage`: the stage that stands here is read, with its number.
- `isTail_of_stageHere?`: a tail that begins with a stage does not go on with a tail.
- `find?_endings`: of all readings the one that is written is taken.
-/

namespace TapAudit.Version

open Text

/-! ## Suffixes and tails -/

/-- Names of stages before and after a release. -/
def stageNames : List String :=
  ["alpha", "beta", "pre", "rc", "a", "b", "p"]

/-- What may follow the numbers of a version. -/
inductive Suffix where
  | none
  | letter (c : Char) (isSmall : c.isLower = true)
  | stage (name : String) (isName : name ∈ stageNames) (digits : List Char)
      (areDigits : ∀ c ∈ digits, c.isDigit = true)

theorem exists_stageName {name : String} (hname : name ∈ stageNames) :
    ∃ c word, name.toList = c :: word ∧ c.isLower = true ∧ ∀ d ∈ word, d.isLower = true := by
  have hall : (stageNames.all fun name => name.toList != [] && name.toList.all Char.isLower) =
      true := by
    decide
  have hword := List.all_eq_true.mp hall name hname
  rw [Bool.and_eq_true, bne_iff_ne, List.all_eq_true] at hword
  obtain ⟨c, word, hcons⟩ := List.exists_cons_of_ne_nil hword.1
  have hsmall := hword.2
  rw [hcons, List.forall_mem_cons] at hsmall
  exact ⟨c, word, hcons, hsmall⟩

def Suffix.text : Suffix → List Char
  | none => []
  | letter c _ => [c]
  | stage name _ digits _ => name.toList ++ digits

/-- A word of small letters that names no stage. -/
structure Tail where
  word : List Char
  ne_nil : word ≠ []
  areSmall : ∀ c ∈ word, c.isLower = true
  isOther : ∀ name ∈ stageNames, word ≠ name.toList

/-- The tail of a name, if there is one, after a hyphen. -/
def tailText : Option Tail → List Char
  | none => []
  | some tail => '-' :: tail.word

/-! ## Separators -/

theorem isStemSeparator_iff {c : Char} :
    isStemSeparator c = true ↔ c = '-' ∨ c = '_' ∨ c = '.' := by
  simp [isStemSeparator, or_assoc]

theorem isStemSeparator_of_isAlphanum {c : Char} (h : c.isAlphanum = true) :
    isStemSeparator c = false := by
  rw [← Bool.not_eq_true, isStemSeparator_iff]
  rintro (rfl | rfl | rfl) <;> exact absurd h (by decide)

/-! ## Tails -/

theorem isTail_nil : isTail [] = true := rfl

theorem isTail_cons_of_isAlphanum {c : Char} (h : c.isAlphanum = true) (rest : List Char) :
    isTail (c :: rest) = false := by
  have hfeed : c ≠ '\n' := by
    rintro rfl
    exact absurd h (by decide)
  have hseparator := isStemSeparator_of_isAlphanum h
  cases rest with
  | nil => simp [isTail, hfeed]
  | cons l rest => simp [isTail, hseparator]

theorem isTail_tailText (tail : Option Tail) : isTail (tailText tail) = true := by
  rcases tail with _ | ⟨word, hne, hsmall, -⟩
  · exact isTail_nil
  · obtain ⟨l, word, rfl⟩ := List.exists_cons_of_ne_nil hne
    rw [List.forall_mem_cons] at hsmall
    have hletter : isLetter l = true := isLetter_of_isAlpha (isAlpha_of_isLower hsmall.1)
    have hrest : word.dropWhile (fun c => isWord c || c == '.' || c == '+' || c == '-') = [] := by
      refine List.dropWhile_eq_nil_iff.mpr fun c hc => ?_
      simp [isWord_of_isLower (hsmall.2 c hc)]
    simp [tailText, isTail, isStemSeparator, hletter, hrest]

theorem endsRun_tailText {p : Char → Bool} (hhyphen : p '-' = false) (tail : Option Tail) :
    EndsRun p (tailText tail) := by
  cases tail with
  | none => exact endsRun_nil
  | some tail => exact endsRun_cons hhyphen tail.word

theorem Suffix.isAlphanum (suffix : Suffix) : ∀ c ∈ suffix.text, c.isAlphanum = true := by
  cases suffix with
  | none => exact fun _ hc => absurd hc List.not_mem_nil
  | letter c hsmall =>
    intro d hd
    rw [List.mem_singleton.mp hd]
    exact isAlphanum_of_isLower hsmall
  | stage name hname digits hdigits =>
    obtain ⟨c, word, hword, hc, hsmall⟩ := exists_stageName hname
    rw [Suffix.text, hword, List.forall_mem_append, List.forall_mem_cons]
    exact ⟨⟨isAlphanum_of_isLower hc, fun d hd => isAlphanum_of_isLower (hsmall d hd)⟩,
      fun d hd => isAlphanum_of_isDigit (hdigits d hd)⟩

/-- The numbers of a version end where a suffix or a tail begins. -/
theorem endsRun_suffix {p : Char → Bool} (hhyphen : p '-' = false)
    (hsmall : ∀ c, c.isLower = true → p c = false) (suffix : Suffix) (tail : Option Tail) :
    EndsRun p (suffix.text ++ tailText tail) := by
  cases suffix with
  | none => exact endsRun_tailText hhyphen tail
  | letter c hc => exact endsRun_cons (hsmall c hc) _
  | stage name hname digits hdigits =>
    obtain ⟨c, word, hword, hc, -⟩ := exists_stageName hname
    rw [Suffix.text, hword]
    exact endsRun_cons (hsmall c hc) _

/-! ## Stages -/

theorem stageHere?_cons {c : Char} (h : isStemSeparator c = false) (rest : List Char) :
    stageHere? (c :: rest) = (firstWord? stageWords (c :: rest)).map fun found =>
      (found.1 ++ found.2.takeWhile isDigit, found.2.dropWhile isDigit) := by
  simp only [stageHere?, h, Bool.false_eq_true, if_false, List.nil_append]
  cases firstWord? stageWords (c :: rest) <;> rfl

theorem stageHere?_hyphen (rest : List Char) :
    stageHere? ('-' :: rest) = (firstWord? stageWords rest).map fun found =>
      ('-' :: found.1 ++ found.2.takeWhile isDigit, found.2.dropWhile isDigit) := by
  have hhyphen : isStemSeparator '-' = true := rfl
  simp only [stageHere?, hhyphen, if_true]
  cases firstWord? stageWords rest <;> rfl

theorem firstWord?_stageNames {name : String} (hname : name ∈ stageNames) {rest : List Char}
    (hrest : EndsRun isLetter rest) :
    firstWord? stageWords (name.toList ++ rest) = some (name.toList, rest) := by
  simp only [stageNames, List.mem_cons, List.not_mem_nil, or_false] at hname
  rcases hname with rfl | rfl | rfl | rfl | rfl | rfl | rfl
  · rfl
  · rfl
  · rfl
  · rfl
  -- The names of one letter begin longer names, which would have to go on with a letter.
  · have hlonger : afterLetters? "alpha".toList ("a".toList ++ rest) = none :=
      afterLetters?_of_endsRun 'l' (by decide) hrest "pha".toList
    simp only [firstWord?, stageWords, List.findSome?_cons, hlonger]
    rfl
  · have hlonger : afterLetters? "beta".toList ("b".toList ++ rest) = none :=
      afterLetters?_of_endsRun 'e' (by decide) hrest "ta".toList
    simp only [firstWord?, stageWords, List.findSome?_cons, hlonger]
    rfl
  · have hlonger : afterLetters? "pre".toList ("p".toList ++ rest) = none :=
      afterLetters?_of_endsRun 'r' (by decide) hrest "e".toList
    simp only [firstWord?, stageWords, List.findSome?_cons, hlonger]
    rfl

theorem firstWord?_of_endsRun {text : List Char} (htext : EndsRun isLetter text) :
    firstWord? stageWords text = none := by
  rw [firstWord?, List.findSome?_eq_none_iff]
  intro name hname
  rw [Option.map_eq_none_iff]
  simp only [stageWords, List.mem_cons, List.not_mem_nil, or_false] at hname
  rcases hname with rfl | rfl | rfl | rfl | rfl | rfl | rfl <;>
    exact afterLetters?_of_endsRun _ (by decide) htext _

theorem exists_of_firstWord? {text word rest : List Char} (htext : ∀ c ∈ text, c.isLower = true)
    (h : firstWord? stageWords text = some (word, rest)) :
    ∃ name ∈ stageNames, text = name.toList ++ rest := by
  obtain ⟨name, hname, hfound⟩ := List.exists_of_findSome?_eq_some h
  obtain ⟨after, hafter, hpair⟩ := Option.map_eq_some_iff.mp hfound
  cases hpair
  exact ⟨name, hname, eq_append_of_afterLetters? htext hafter⟩

theorem stageHere?_stage {name : String} (hname : name ∈ stageNames) {digits rest : List Char}
    (hdigits : ∀ c ∈ digits, c.isDigit = true) (hletter : EndsRun isLetter rest)
    (hdigit : EndsRun isDigit rest) :
    stageHere? (name.toList ++ (digits ++ rest)) = some (name.toList ++ digits, rest) := by
  have hends : EndsRun isLetter (digits ++ rest) := by
    cases digits with
    | nil => exact hletter
    | cons d digits => exact endsRun_cons (isLetter_of_isDigit (hdigits d List.mem_cons_self)) _
  have hrun : ∀ c ∈ digits, isDigit c = true := fun c hc => isDigit_of_isDigit (hdigits c hc)
  obtain ⟨c, word, hword, hsmall, -⟩ := exists_stageName hname
  have hfound := firstWord?_stageNames hname hends
  rw [hword, List.cons_append] at hfound ⊢
  rw [stageHere?_cons (isStemSeparator_of_isAlphanum (isAlphanum_of_isLower hsmall)), hfound,
    Option.map_some, takeWhile_run hrun hdigit, dropWhile_run hrun hdigit]

/-- A tail that begins with a stage does not go on with a tail, as it is a longer word. -/
theorem isTail_of_stageHere? (tail : Option Tail) {stage rest : List Char}
    (h : stageHere? (tailText tail) = some (stage, rest)) : isTail rest = false := by
  rcases tail with _ | ⟨word, _, hsmall, hother⟩
  · cases h
  · change stageHere? ('-' :: word) = some (stage, rest) at h
    rw [stageHere?_hyphen] at h
    obtain ⟨⟨found, after⟩, hfound, hpair⟩ := Option.map_eq_some_iff.mp h
    cases hpair
    obtain ⟨name, hname, hword⟩ := exists_of_firstWord? hsmall hfound
    cases after with
    | nil =>
      rw [List.append_nil] at hword
      exact absurd hword (hother name hname)
    | cons c after =>
      have hc : c.isLower = true := hsmall c (by simp [hword])
      have hdigit := isDigit_of_isAlpha (isAlpha_of_isLower hc)
      dsimp only
      rw [List.dropWhile_cons_of_neg (by simp [hdigit])]
      exact isTail_cons_of_isAlphanum (isAlphanum_of_isLower hc) after

/-! ## Readings -/

/-- The readings of a text that may begin with a stage. -/
def stageEndings (text : List Char) : List (List Char × List Char) :=
  match stageHere? text with
  | some (stage, rest) => [(stage, rest), ([], text)]
  | none => [([], text)]

/-- A letter may stand alone, in front of a stage, or at the start of one. -/
theorem endings_cons {c : Char} (h : isLetter c = true) (rest : List Char) :
    endings (c :: rest) =
      (stageEndings rest).map (fun found => (c :: found.1, found.2)) ++ stageEndings (c :: rest) :=
  if_pos h

theorem endings_of_endsRun {text : List Char} (h : EndsRun isLetter text) :
    endings text = stageEndings text := by
  cases text with
  | nil => rfl
  | cons c rest => exact if_neg (by simp [h c rfl])

/-- Nothing but a tail is left over by this reading. -/
def LeavesTail (found : List Char × List Char) : Bool :=
  isTail found.2

theorem find?_stageEndings_tailText (tail : Option Tail) :
    (stageEndings (tailText tail)).find? LeavesTail = some ([], tailText tail) := by
  have htail := isTail_tailText tail
  rw [stageEndings]
  split
  · next stage rest hstage =>
    have hrest := isTail_of_stageHere? tail hstage
    simp [LeavesTail, hrest, htail]
  · simp [LeavesTail, htail]

theorem find?_endings_letter {c : Char} (h : isLetter c = true) (tail : Option Tail) :
    (endings (c :: tailText tail)).find? LeavesTail = some ([c], tailText tail) := by
  have hmap : ((stageEndings (tailText tail)).map fun found =>
      (c :: found.1, found.2)).find? LeavesTail = some ([c], tailText tail) := by
    rw [List.find?_map]
    change ((stageEndings (tailText tail)).find? LeavesTail).map _ = _
    rw [find?_stageEndings_tailText]
    rfl
  rw [endings_cons h, List.find?_append, hmap]
  rfl

theorem find?_stageEndings_rest {c : Char} {rest : List Char} (halnum : c.isAlphanum = true)
    (hword : firstWord? stageWords (c :: rest) = none) :
    (stageEndings (c :: rest)).find? LeavesTail = none := by
  have hstage : stageHere? (c :: rest) = none := by
    rw [stageHere?_cons (isStemSeparator_of_isAlphanum halnum), hword]
    rfl
  have htail := isTail_cons_of_isAlphanum halnum rest
  rw [stageEndings, hstage]
  simp [LeavesTail, htail]

theorem firstWord?_rest {name : String} (hname : name ∈ stageNames) {c d : Char}
    {word : List Char} (hword : name.toList = c :: d :: word) (rest : List Char) :
    firstWord? stageWords (d :: (word ++ rest)) = none := by
  simp only [stageNames, List.mem_cons, List.not_mem_nil, or_false] at hname
  rcases hname with rfl | rfl | rfl | rfl | rfl | rfl | rfl <;> cases hword <;> rfl

theorem find?_endings_stage {name : String} (hname : name ∈ stageNames) {digits : List Char}
    (hdigits : ∀ c ∈ digits, c.isDigit = true) (tail : Option Tail) :
    (endings (name.toList ++ (digits ++ tailText tail))).find? LeavesTail =
      some (name.toList ++ digits, tailText tail) := by
  obtain ⟨c, word, hword, hc, hsmall⟩ := exists_stageName hname
  have hletter : isLetter c = true := isLetter_of_isAlpha (isAlpha_of_isLower hc)
  -- With the first letter taken for a suffix, the readings of what is left lead nowhere.
  have hrest : word ++ digits ≠ [] →
      (stageEndings (word ++ (digits ++ tailText tail))).find? LeavesTail = none := by
    intro hne
    cases word with
    | cons d word =>
      rw [List.forall_mem_cons] at hsmall
      exact find?_stageEndings_rest (isAlphanum_of_isLower hsmall.1) (firstWord?_rest hname hword _)
    | nil =>
      obtain ⟨d, digits, rfl⟩ := List.exists_cons_of_ne_nil hne
      have hd := hdigits d List.mem_cons_self
      apply find?_stageEndings_rest (isAlphanum_of_isDigit hd)
      exact firstWord?_of_endsRun (endsRun_cons (isLetter_of_isDigit hd) _)
  have hstage : (stageEndings (name.toList ++ (digits ++ tailText tail))).find? LeavesTail =
      some (name.toList ++ digits, tailText tail) := by
    have hread := stageHere?_stage hname hdigits (endsRun_tailText (by decide) tail)
      (endsRun_tailText (by decide) tail)
    have htail := isTail_tailText tail
    rw [stageEndings, hread]
    simp [LeavesTail, htail]
  rw [hword, List.cons_append] at hstage ⊢
  by_cases hne : word ++ digits = []
  · obtain ⟨rfl, rfl⟩ := List.append_eq_nil_iff.mp hne
    exact find?_endings_letter hletter tail
  · rw [endings_cons hletter, List.find?_append, List.find?_map]
    change (((stageEndings (word ++ (digits ++ tailText tail))).find? LeavesTail).map _).or _ = _
    rw [hrest hne, hstage]
    rfl

/-- Of all readings the one that is written is taken. -/
theorem find?_endings (suffix : Suffix) (tail : Option Tail) :
    (endings (suffix.text ++ tailText tail)).find? LeavesTail =
      some (suffix.text, tailText tail) := by
  cases suffix with
  | none =>
    change (endings (tailText tail)).find? LeavesTail = some ([], tailText tail)
    rw [endings_of_endsRun (endsRun_tailText (by decide) tail), find?_stageEndings_tailText]
  | letter c hsmall =>
    exact find?_endings_letter (isLetter_of_isAlpha (isAlpha_of_isLower hsmall)) tail
  | stage name hname digits hdigits =>
    rw [Suffix.text, List.append_assoc]
    exact find?_endings_stage hname hdigits tail

end TapAudit.Version
