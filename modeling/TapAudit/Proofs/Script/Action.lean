import Mathlib.Tactic.Common
import TapAudit.Proofs.Script.ClassHeader
import TapAudit.Proofs.Text.Blank
import TapAudit.Script.Action

/-!
# The action of a statement

What statements of the usual forms do. A statement starts with a word; the forms that are tried
before the one that fits are ruled out by that word alone (`startsWord_of_append_eq`), and the
forms that may hide in an argument by the characters of the code.

Main statements: `action_call` for calls, with or without a block, `action_method`,
`action_control` and `action_header`.
-/

namespace TapAudit.Script

open Text

/-! ## Names -/

/-- A lower-case identifier. -/
def isCallName : List Char → Bool
  | [] => false
  | c :: rest =>
    (c.isLower || c == '_') && rest.all fun d => d.isLower || d.isDigit || d == '_'

/-- The name of a method, without the mark it may end in. -/
def isName : List Char → Bool
  | [] => false
  | c :: rest => (c.isAlpha || c == '_') && rest.all isWord

/-- The words that start a statement of another form than a call. -/
def reservedWords : List String :=
  ["class", "def", "end"] ++ controlWords

theorem isWord_of_mem_reserved {w : String} (h : w ∈ reservedWords) :
    ∀ c ∈ w.toList, isWord c = true := by
  have hall : (reservedWords.all fun w => w.toList.all isWord) = true := by decide
  exact List.all_eq_true.mp (List.all_eq_true.mp hall w h)

theorem isWord_of_mem_end : ∀ w ∈ ["end"], ∀ c ∈ w.toList, isWord c = true := by
  intro w hw
  rw [List.mem_singleton.mp hw]
  exact isWord_of_mem_reserved (by decide)

theorem isCallName_cons {name : List Char} (h : isCallName name = true) :
    ∃ c rest, name = c :: rest ∧ (c.isLower = true ∨ c = '_') ∧
      ∀ d ∈ rest, d.isLower = true ∨ d.isDigit = true ∨ d = '_' := by
  cases name with
  | nil => cases h
  | cons c rest =>
    simp only [isCallName, Bool.and_eq_true, Bool.or_eq_true, beq_iff_eq, List.all_eq_true] at h
    exact ⟨c, rest, rfl, h.1, fun d hd => or_assoc.mp (h.2 d hd)⟩

theorem isWord_of_mem_callName {name : List Char} (h : isCallName name = true) :
    ∀ c ∈ name, isWord c = true := by
  obtain ⟨c, rest, rfl, hfirst, hrest⟩ := isCallName_cons h
  intro d hd
  rcases List.mem_cons.mp hd with rfl | hd
  · rcases hfirst with hlower | rfl
    · exact isWord_of_isLower hlower
    · exact isWord_underscore
  · rcases hrest d hd with hlower | hdigit | rfl
    · exact isWord_of_isLower hlower
    · exact isWord_of_isDigit hdigit
    · exact isWord_underscore

theorem isWord_of_mem_name {name : List Char} (h : isName name = true) :
    ∀ c ∈ name, isWord c = true := by
  cases name with
  | nil => cases h
  | cons c rest =>
    simp only [isName, Bool.and_eq_true, Bool.or_eq_true, beq_iff_eq, List.all_eq_true] at h
    intro d hd
    rcases List.mem_cons.mp hd with rfl | hd
    · rcases h.1 with halpha | rfl
      · exact isWord_of_isAlpha halpha
      · exact isWord_underscore
    · exact h.2 d hd

theorem isBlank_space : isBlank ' ' = true := by decide

/-! ## The first word -/

variable {word rest : List Char}

theorem startsWord_of_append_eq {other tail : List Char} (hword : ∀ c ∈ word, isWord c = true)
    (hrest : startsWord rest = false) (hother : ∀ c ∈ other, isWord c = true) (hne : other ≠ word)
    (h : word ++ rest = other ++ tail) : startsWord tail = true := by
  rcases List.append_eq_append_iff.mp h with ⟨more, rfl, rfl⟩ | ⟨more, rfl, rfl⟩
  · cases more with
    | nil => simp at hne
    | cons c more =>
      have hc := hother c (by simp)
      rw [List.cons_append, startsWord, hc] at hrest
      cases hrest
  · cases more with
    | nil => simp at hne
    | cons c more => exact hword c (by simp)

theorem startsWithWord_append {words : List String}
    (hwords : ∀ w ∈ words, ∀ c ∈ w.toList, isWord c = true) (hword : ∀ c ∈ word, isWord c = true)
    (hrest : startsWord rest = false) :
    startsWithWord words (word ++ rest) = words.any (·.toList == word) := by
  induction words with
  | nil => rfl
  | cons w words ih =>
    have ih := ih fun v hv => hwords v (by simp [hv])
    rw [startsWithWord] at ih ⊢
    rw [List.any_cons, List.any_cons, ih]
    congr 1
    by_cases hw : w.toList = word
    · have hafter : after? w (word ++ rest) = some rest := after?_eq_some_iff.mpr (by rw [hw])
      simp [hafter, hrest, hw]
    · cases hafter : after? w (word ++ rest) with
      | none => simp [hw]
      | some tail =>
        have htail := startsWord_of_append_eq hword hrest (hwords w (by simp)) hw
          (after?_eq_some_iff.mp hafter)
        simp [hw, htail]

theorem not_startsWith_class (hword : ∀ c ∈ word, isWord c = true)
    (hrest : startsWord rest = false) (hne : "class".toList ≠ word) :
    (startsWith "class " (word ++ rest) || word ++ rest == "class".toList) = false := by
  have hclass : ∀ c ∈ "class".toList, isWord c = true := isWord_of_mem_reserved (by decide)
  rw [Bool.or_eq_false_iff, beq_eq_false_iff_ne]
  refine ⟨Bool.eq_false_iff.mpr fun hstarts => ?_, fun heq => ?_⟩
  · obtain ⟨tail, htail⟩ := startsWith_iff.mp hstarts
    have hspace : startsWord (' ' :: tail) = true :=
      startsWord_of_append_eq hword hrest hclass hne htail
    rw [startsWord, isWord_of_isBlank (by decide)] at hspace
    cases hspace
  · have hnil : startsWord [] = true :=
      startsWord_of_append_eq hword hrest hclass hne (by rw [heq]; rfl)
    cases hnil

theorem definedMethod?_eq_none (hword : ∀ c ∈ word, isWord c = true)
    (hrest : startsWord rest = false) (hne : "def".toList ≠ word) :
    definedMethod? (word ++ rest) = none := by
  cases hafter : after? "def" (word ++ rest) with
  | none => simp [definedMethod?, hafter]
  | some tail =>
    have hdef : ∀ c ∈ "def".toList, isWord c = true := isWord_of_mem_reserved (by decide)
    have htail := startsWord_of_append_eq hword hrest hdef hne (after?_eq_some_iff.mp hafter)
    cases tail with
    | nil => cases htail
    | cons c tail =>
      have hblank : isBlank c = false := isBlank_of_isWord htail
      simp [definedMethod?, hafter, afterBlanks?, hblank]

/-! ## Control structures -/

theorem opensControl_eq_false (hword : ∀ c ∈ word, isWord c = true)
    (hrest : startsWord rest = false) (hne : word ∉ controlWords.map String.toList)
    (hassigned : '=' ∉ word ++ rest) : opensControl (word ++ rest) = false := by
  have hcontrol : ∀ w ∈ controlWords, ∀ c ∈ w.toList, isWord c = true :=
    fun w hw => isWord_of_mem_reserved (List.mem_append_right _ hw)
  rw [opensControl, startsWithWord_append hcontrol hword hrest, firstMatch_eq_none]
  · simp only [Option.isSome_none, Bool.or_false, List.any_eq_false, beq_iff_eq]
    exact fun w hw heq => hne (List.mem_map.mpr ⟨w, hw, heq⟩)
  · intro suffix hsuffix before
    split
    · exact absurd (hsuffix.subset (by simp)) hassigned
    · rfl

/-- A word of its own at the end of the code closes the block only if it is `end`. -/
theorem closesInline_eq_false {front : List Char} (hword : ∀ c ∈ word, isWord c = true)
    (hne : word ≠ "end".toList) : closesInline (front ++ ' ' :: word) = false := by
  rw [closesInline]
  split
  · rename_i c tail hreverse
    refine Bool.eq_false_iff.mpr fun hblank => ?_
    have hsplit : front ++ [' '] ++ word = tail.reverse ++ [c] ++ "end".toList := by
      have := congrArg List.reverse hreverse
      rw [List.reverse_reverse] at this
      simpa using this
    rcases List.append_eq_append_iff.mp hsplit with ⟨more, hback, hmore⟩ | ⟨more, hback, hmore⟩ <;>
      rcases List.eq_nil_or_concat' more with rfl | ⟨init, d, rfl⟩
    · exact hne hmore
    · rw [← List.append_assoc] at hback
      obtain ⟨-, hd⟩ := List.append_inj' hback rfl
      rw [(List.cons.inj hd).1, isBlank_of_isWord (hword d (by simp [hmore]))] at hblank
      cases hblank
    · exact hne hmore.symm
    · rw [← List.append_assoc] at hback
      obtain ⟨-, hd⟩ := List.append_inj' hback rfl
      obtain rfl : ' ' = d := (List.cons.inj hd).1
      exact absurd (by rw [hmore]; simp : ' ' ∈ "end".toList) (by decide)
  · rfl

/-! ## Blocks -/

theorem getLast?_of_endsAfterDo {text : List Char} (h : endsAfterDo text = true) :
    text = [] ∨ text.getLast? = some '|' := by
  rw [endsAfterDo, Bool.or_eq_true, List.isEmpty_iff] at h
  refine h.imp_right fun h => ?_
  split at h
  · rename_i tail htail
    have hend : ['|'] <:+ text := by
      rw [← eq_of_beq h]
      exact (List.dropWhile_suffix _).trans
        ((List.suffix_cons '|' tail).trans (htail ▸ List.dropWhile_suffix _))
    obtain ⟨front, rfl⟩ := hend
    simp
  · cases h

theorem endsInDo_eq_false {code : List Char} (hbar : code.getLast? ≠ some '|')
    (hdo : ¬ "do".toList <:+ code) : endsInDo code = false := by
  rw [endsInDo, firstMatch_eq_none]
  · rfl
  · intro suffix hsuffix before
    rw [if_neg]
    intro hstarts
    rw [startsDo] at hstarts
    split at hstarts
    · rename_i tail hafter
      rw [after?_eq_some_iff] at hafter
      rw [hafter] at hsuffix
      rw [Bool.and_eq_true] at hstarts
      rcases getLast?_of_endsAfterDo hstarts.2 with rfl | hlast
      · exact hdo hsuffix
      · obtain ⟨front, rfl⟩ := hsuffix
        exact hbar (by rw [List.getLast?_append, List.getLast?_append, hlast]; rfl)
    · cases hstarts

theorem startsDo_do (before : Option Char) : startsDo before "do".toList = !endsWord before := by
  have hafter : after? "do" "do".toList = some [] := after?_eq_some_iff.mpr rfl
  rw [startsDo, hafter]
  simp [endsAfterDo]

theorem endsInDo_append {front : List Char} (h : endsWord front.getLast? = false) :
    endsInDo (front ++ "do".toList) = true := by
  refine isSome_firstMatch_append ?_
  rw [Option.or_none, startsDo_do, h]
  rfl

theorem beforeDo_append {front : List Char} (before : Option Char)
    (h : endsWord (front.getLast?.or before) = false) :
    beforeDo before (front ++ "do".toList) = front := by
  induction front generalizing before with
  | nil =>
    have hdo : startsDo before ['d', 'o'] = true := (startsDo_do before).trans (by simpa using h)
    exact if_pos hdo
  | cons c front ih =>
    have hdo : startsDo before (c :: (front ++ "do".toList)) = false := by
      rw [startsDo]
      split
      · rename_i tail hafter
        -- What follows this `do` ends in the other one, so it is not empty and holds no bar last.
        rw [after?_eq_some_iff] at hafter
        rw [Bool.and_eq_false_iff]
        refine .inr (Bool.eq_false_iff.mpr fun hends => ?_)
        rcases getLast?_of_endsAfterDo hends with rfl | hbar
        · have hlength := congrArg List.length hafter
          simp at hlength
        · have hlast := congrArg List.getLast? hafter
          rw [List.getLast?_append, hbar, ← List.cons_append, List.getLast?_append] at hlast
          exact absurd (Option.some.inj hlast : 'o' = '|') (by decide)
      · rfl
    rw [List.cons_append, beforeDo, hdo, if_neg Bool.false_ne_true]
    congr 1
    refine ih (some c) ?_
    cases front with
    | nil => exact h
    | cons d front => rwa [List.getLast?_cons_cons] at h

/-! ## Methods -/

theorem methodNameHere?_append {name mark : List Char} (hname : isName name = true)
    (hmark : mark = [] ∨ mark = ['?'] ∨ mark = ['!'] ∨ mark = ['=']) :
    methodNameHere? (name ++ mark) = some (name ++ mark) := by
  cases name with
  | nil => cases hname
  | cons c rest =>
    simp only [isName, Bool.and_eq_true, Bool.or_eq_true, beq_iff_eq, List.all_eq_true] at hname
    obtain ⟨hc, hrest⟩ := hname
    rw [List.cons_append, methodNameHere?, if_pos hc, List.takeWhile_append_of_pos hrest,
      List.dropWhile_append_of_pos hrest]
    rcases hmark with rfl | rfl | rfl | rfl <;> simp <;> decide

theorem definedMethod?_append {name mark : List Char} (hname : isName name = true)
    (hmark : mark = [] ∨ mark = ['?'] ∨ mark = ['!'] ∨ mark = ['=']) :
    definedMethod? ("def".toList ++ ' ' :: (name ++ mark)) = some (name ++ mark) := by
  have hdef : after? "def" ("def".toList ++ ' ' :: (name ++ mark)) = some (' ' :: (name ++ mark)) :=
    after?_eq_some_iff.mpr rfl
  have hself : after? "self." (name ++ mark) = none := by
    cases hafter : after? "self." (name ++ mark) with
    | none => rfl
    | some tail =>
      have hdot : '.' ∈ name ++ mark := by
        rw [after?_eq_some_iff.mp hafter]
        exact List.mem_append_left tail (by decide)
      rcases List.mem_append.mp hdot with hdot | hdot
      · exact absurd (isWord_of_mem_name hname _ hdot) (by decide)
      · rcases hmark with rfl | rfl | rfl | rfl <;> exact absurd hdot (by decide)
  have hstrip : stripStart (name ++ mark) = name ++ mark := by
    cases name with
    | nil => cases hname
    | cons c rest =>
      exact stripStart_cons (isBlank_of_isWord (isWord_of_mem_name hname c (by simp))) _
  rw [definedMethod?, hdef]
  simp [afterBlanks?, isBlank_space, hstrip, hself, methodNameHere?_append hname hmark]

/-! ## Actions -/

theorem call?_append {name : List Char} (hname : isCallName name = true) (argument : List Char) :
    call? (name ++ ' ' :: argument) = some (name, strip argument) := by
  obtain ⟨c, tail, rfl, hc, htail⟩ := isCallName_cons hname
  have hfirst : ('a' ≤ c ∧ c ≤ 'z') ∨ c = '_' := by
    refine hc.imp_left fun hlower => ?_
    obtain ⟨hlow, hhigh⟩ := Bool.and_eq_true_iff.mp hlower
    exact ⟨of_decide_eq_true hlow, of_decide_eq_true hhigh⟩
  have hnameChar : ∀ d ∈ tail, (d.isAlphanum || d == '_') = true := by
    intro d hd
    rw [Bool.or_eq_true, beq_iff_eq]
    rcases htail d hd with hlower | hdigit | rfl
    · exact .inl (Bool.or_eq_true_iff.mpr (.inl (Bool.or_eq_true_iff.mpr (.inr hlower))))
    · exact .inl (Bool.or_eq_true_iff.mpr (.inr hdigit))
    · exact .inr rfl
  rw [List.cons_append, call?, if_pos hfirst]
  simp only [List.takeWhile_append_of_pos hnameChar, List.dropWhile_append_of_pos hnameChar]
  rw [List.takeWhile_cons_of_neg (by decide), List.dropWhile_cons_of_neg (by decide),
    List.append_nil]
  rfl

theorem action_call {name argument : List Char} (hname : isCallName name = true)
    (hfree : name ∉ reservedWords.map String.toList) (hassigned : '=' ∉ blankLiterals argument) :
    action (name ++ ' ' :: argument) =
      if endsInDo (name ++ ' ' :: blankLiterals argument) then
        .declare ((kindOf? blockKinds name).getD .otherBlock)
          (strip (beforeDo none (strip argument))) true
      else callAction name (strip argument) := by
  have hword := isWord_of_mem_callName hname
  have hspace (text : List Char) : startsWord (' ' :: text) = false :=
    isWord_of_isBlank (by decide)
  simp only [reservedWords, List.map_append, List.mem_append, not_or, List.map_cons, List.map_nil,
    List.mem_cons, List.not_mem_nil, or_false] at hfree
  obtain ⟨⟨hclass, hdef, hend⟩, hcontrol⟩ := hfree
  have hquotes : ∀ c ∈ name ++ [' '], isQuote c = false := by
    intro c hc
    rcases List.mem_append.mp hc with hc | hc
    · exact isQuote_of_isPlain (isPlain_of_isWord (hword c hc))
    · rw [List.mem_singleton.mp hc]
      decide
  have hequals : '=' ∉ name ++ ' ' :: blankLiterals argument := by
    simp only [List.mem_append, List.mem_cons, not_or]
    refine ⟨fun hmem => ?_, by decide, hassigned⟩
    exact absurd (hword _ hmem) (by decide)
  have hcode : blankLiterals (name ++ ' ' :: argument) = name ++ ' ' :: blankLiterals argument := by
    have := blankLiterals_append hquotes argument
    simpa using this
  rw [action, startsWithWord_append isWord_of_mem_end hword (hspace _),
    not_startsWith_class hword (hspace _) (Ne.symm hclass),
    definedMethod?_eq_none hword (hspace _) (Ne.symm hdef), hcode]
  simp only [opensControl_eq_false hword (hspace _) hcontrol hequals, call?_append hname]
  rw [List.any_cons, List.any_nil, Bool.or_false, if_neg (by simpa using Ne.symm hend)]
  rfl

theorem action_method {name mark : List Char} (hname : isName name = true)
    (hmark : mark = [] ∨ mark = ['?'] ∨ mark = ['!'] ∨ mark = ['=']) :
    action ("def".toList ++ ' ' :: (name ++ mark)) =
      .declare ((kindOf? methodKinds (name ++ mark)).getD .otherMethod) (name ++ mark) true := by
  have hdef : ∀ c ∈ "def".toList, isWord c = true := isWord_of_mem_reserved (by decide)
  have hspace : startsWord (' ' :: (name ++ mark)) = false := isWord_of_isBlank isBlank_space
  rw [action, startsWithWord_append isWord_of_mem_end hdef hspace,
    not_startsWith_class hdef hspace (by decide), definedMethod?_append hname hmark]
  rfl

theorem action_control {word : String} {subject : List Char} (hcontrol : word ∈ controlWords)
    (hsubject : ∀ c ∈ subject, isWord c = true) (hne : subject ≠ "end".toList) :
    action (word.toList ++ ' ' :: subject) =
      .declare .otherBlock (word.toList ++ ' ' :: subject) true := by
  have hwords : ∀ w ∈ controlWords, ∀ c ∈ w.toList, isWord c = true :=
    fun w hw => isWord_of_mem_reserved (List.mem_append_right _ hw)
  have hothers : ∀ w ∈ controlWords,
      "end".toList ≠ w.toList ∧ "class".toList ≠ w.toList ∧ "def".toList ≠ w.toList := by
    decide
  obtain ⟨hend, hclass, hdef⟩ := hothers word hcontrol
  have hword := hwords word hcontrol
  have hspace : startsWord (' ' :: subject) = false := isWord_of_isBlank isBlank_space
  have hcode : blankLiterals (word.toList ++ ' ' :: subject) = word.toList ++ ' ' :: subject := by
    refine blankLiterals_of_unquoted fun c hc => ?_
    simp only [List.mem_append, List.mem_cons] at hc
    rcases hc with hc | rfl | hc
    · exact isQuote_of_isPlain (isPlain_of_isWord (hword c hc))
    · decide
    · exact isQuote_of_isPlain (isPlain_of_isWord (hsubject c hc))
  have hopens : opensControl (word.toList ++ ' ' :: subject) = true := by
    rw [opensControl, startsWithWord_append hwords hword hspace, Bool.or_eq_true]
    exact .inl (List.any_eq_true.mpr ⟨word, hcontrol, by simp⟩)
  rw [action, startsWithWord_append isWord_of_mem_end hword hspace,
    not_startsWith_class hword hspace hclass, definedMethod?_eq_none hword hspace hdef]
  simp only [hcode, hopens, closesInline_eq_false hsubject hne]
  rw [List.any_cons, List.any_nil, Bool.or_false, if_neg (by simpa using hend)]
  rfl

theorem startsFormulaClass_append {initial : Char} {rest : List Char}
    (hinitial : initial.isUpper = true) (hrest : ∀ c ∈ rest, isWord c = true) (tail : List Char) :
    startsFormulaClass
      ("class".toList ++ ' ' :: initial :: (rest ++ (" < Formula".toList ++ tail))) = true := by
  let header : Header :=
    { margin := [], gap := [' '], initial, name := rest, before := [' '], behind := [' ']
      first := 'F', gap_ne_nil := by simp, areBlank := List.all_eq_true.mp (by decide)
      isCapital := of_decide_eq_true hinitial, areWord := hrest
      startsSuperclass := .inl (by decide) }
  have htext : "class".toList ++ ' ' :: initial :: (rest ++ (" < Formula".toList ++ tail)) =
      header.text ++ ("ormula".toList ++ tail) := by
    simp [header, Header.text]
  rw [htext]
  exact header.startsFormulaClass_append _

theorem action_header {initial : Char} {rest : List Char} (hinitial : initial.isUpper = true)
    (hrest : ∀ c ∈ rest, isWord c = true) :
    action ("class".toList ++ ' ' :: initial :: (rest ++ " < Formula".toList)) =
      .openClass ("class".toList ++ ' ' :: initial :: (rest ++ " < Formula".toList)) true := by
  have hclass : ∀ c ∈ "class".toList, isWord c = true := isWord_of_mem_reserved (by decide)
  have hspace (text : List Char) : startsWord (' ' :: text) = false :=
    isWord_of_isBlank isBlank_space
  have hstarts (text : List Char) : startsWith "class " ("class".toList ++ ' ' :: text) = true :=
    startsWith_iff.mpr ⟨text, rfl⟩
  have hformula :
      startsFormulaClass ("class".toList ++ ' ' :: initial :: (rest ++ " < Formula".toList)) =
        true := startsFormulaClass_append hinitial hrest []
  rw [action, startsWithWord_append isWord_of_mem_end hclass (hspace _), hstarts, hformula]
  rfl

/-! ## Openers -/

/-- The kinds of the declarations that open a block. -/
def openedKinds : List Kind :=
  blockKinds.map (·.2) ++ methodKinds.map (·.2) ++ [.otherBlock, .otherMethod]

theorem kindOf?_getD_mem {table : List (String × Kind)} {kinds : List Kind} {default : Kind}
    (htable : table.map (·.2) ⊆ kinds) (hdefault : default ∈ kinds) (word : List Char) :
    (kindOf? table word).getD default ∈ kinds := by
  cases h : kindOf? table word with
  | none => exact hdefault
  | some kind =>
    rw [kindOf?, Option.map_eq_some_iff] at h
    obtain ⟨entry, hfind, rfl⟩ := h
    exact htable (List.mem_map_of_mem (List.mem_of_find?_eq_some hfind))

theorem callAction_ne_opening (word argument : List Char) (kind : Kind) (text : List Char) :
    callAction word argument ≠ .declare kind text true := by
  rw [callAction]
  repeat' split
  all_goals simp

theorem mem_openedKinds {statement argument : List Char} {kind : Kind}
    (h : action statement = .declare kind argument true) : kind ∈ openedKinds := by
  have hmethods : methodKinds.map (·.2) ⊆ openedKinds := by decide
  have hblocks : blockKinds.map (·.2) ⊆ openedKinds := by decide
  have hothers : Kind.otherBlock ∈ openedKinds ∧ Kind.otherMethod ∈ openedKinds := by decide
  rw [action] at h
  split at h
  · cases h
  · split at h
    · cases h
    · split at h
      · cases h
        exact kindOf?_getD_mem hmethods hothers.2 _
      · dsimp only at h
        split at h
        · obtain ⟨rfl, -, -⟩ := Action.declare.inj h
          exact hothers.1
        · split at h
          · obtain ⟨rfl, -, -⟩ := Action.declare.inj h
            exact kindOf?_getD_mem hblocks hothers.1 _
          · split at h
            · exact (callAction_ne_opening _ _ _ _ h).elim
            · cases h

end TapAudit.Script
