import TapAudit.Proofs.Text.Search
import TapAudit.Proofs.Url.Path
import TapAudit.Proofs.Version.Ending

/-!
# Versions in the names of archives

An archive is named by words, a version, perhaps a tail, and an extension. Its version is read back
from any plain URL that leads to it, whatever directories lie on the way.

- `stemHere?_version`: the version after its separator.
- `stem?_stem`: the words of the name hold no version before it.
- `withoutArchiveExtension_append`: an extension is taken off, and no longer one.
- `ofPath?_file`: the version of a path that leads to the archive.
- `ofUrl_named`: **the version of a URL that leads to the archive.**
-/

namespace TapAudit.Version

open Text
open Url (isUnreserved isUnreserved_of_isAlphanum isUnreserved_of_isAlpha)

/-! ## Names -/

/-- A word of letters. -/
structure Word where
  letters : List Char
  ne_nil : letters ≠ []
  areLetters : ∀ c ∈ letters, c.isAlpha = true

/-- An archive that is named after its version. -/
structure NamedArchive where
  words : List Word
  words_ne_nil : words ≠ []
  separator : Char
  isSeparator : separator = '-' ∨ separator = '_'
  /-- A `v` stands in front of the version. -/
  isMarked : Bool
  numbers : List Numeral
  numbers_ne_nil : numbers ≠ []
  suffix : Suffix
  tail : Option Tail
  extension : List Char
  isExtension : ∃ ext ∈ archiveExtensions, extension.map Char.toLower = ext.toList

namespace NamedArchive

variable (a : NamedArchive)

/-- The words of the name, with hyphens between them. -/
def name : List Char :=
  joinWith ['-'] (a.words.map Word.letters)

def version : List Char :=
  dotted a.numbers ++ a.suffix.text

def mark : List Char :=
  if a.isMarked then ['v'] else []

/-- The name of the file without its extension. -/
def stem : List Char :=
  a.name ++ a.separator :: (a.mark ++ (a.version ++ tailText a.tail))

def file : List Char :=
  a.stem ++ a.extension

end NamedArchive

variable (a : NamedArchive)

/-! ## The version after its separator -/

theorem dropV_mark (rest : List Char) :
    dropV (a.mark ++ (a.version ++ rest)) = a.version ++ rest := by
  obtain ⟨n, numbers, hnumbers⟩ := List.exists_cons_of_ne_nil a.numbers_ne_nil
  rw [NamedArchive.mark]
  split
  · rfl
  · rw [NamedArchive.version, hnumbers, dotted_cons, List.append_assoc, List.append_assoc,
      List.nil_append, dropV, afterLetters?_v_numeral, Option.getD_none]

theorem stemHere?_version :
    stemHere? (a.separator :: (a.mark ++ (a.version ++ tailText a.tail))) = some a.version := by
  have hseparator : isStemSeparator a.separator = true :=
    isStemSeparator_iff.mpr (a.isSeparator.imp_right .inl)
  obtain ⟨n, numbers, hnumbers⟩ := List.exists_cons_of_ne_nil a.numbers_ne_nil
  have hversion : a.version ++ tailText a.tail =
      n.digits ++ (dottedRest numbers ++ (a.suffix.text ++ tailText a.tail)) := by
    rw [NamedArchive.version, hnumbers, dotted_cons, List.append_assoc, List.append_assoc]
  have hdigit : EndsRun isDigit (a.suffix.text ++ tailText a.tail) :=
    endsRun_suffix (by decide) (fun c hc => isDigit_of_isAlpha (isAlpha_of_isLower hc)) _ _
  have hends : EndsRun (fun c => c == '.' || c == '_') (a.suffix.text ++ tailText a.tail) := by
    refine endsRun_suffix (by decide) (fun c hc => ?_) _ _
    have hnone := isStemSeparator_of_isAlphanum (isAlphanum_of_isLower hc)
    rw [isStemSeparator, Bool.or_assoc, Bool.or_eq_false_iff, Bool.or_comm] at hnone
    exact hnone.2
  have hlength : numbers.length ≤
      (dottedRest numbers ++ (a.suffix.text ++ tailText a.tail)).length := by
    have hle := length_le_dottedRest numbers
    rw [List.length_append]
    omega
  rw [stemHere?, if_pos hseparator, dropV_mark, hversion, number?_dotted n numbers hdigit]
  dsimp only [bind, Option.bind]
  rw [moreNumbers_dotted rfl hdigit hends hlength]
  dsimp only
  change ((endings (a.suffix.text ++ tailText a.tail)).find? LeavesTail).bind _ = _
  rw [find?_endings, Option.bind_some, NamedArchive.version, hnumbers, dotted_cons]
  rfl

/-! ## The version in a name -/

theorem number?_of_endsRun {text : List Char} (h : EndsRun isDigit text) : number? text = none := by
  cases text with
  | nil => rfl
  | cons c rest => rw [number?, List.takeWhile_cons_of_neg (by simp [h c rfl])]

theorem number?_word (w : Word) {rest : List Char} (hrest : EndsRun isDigit rest) :
    number? (dropV (w.letters ++ rest)) = none := by
  have hletters (letters : List Char) (h : ∀ c ∈ letters, c.isAlpha = true) :
      number? (letters ++ rest) = none := by
    apply number?_of_endsRun
    cases letters with
    | nil => exact hrest
    | cons c letters => exact endsRun_cons (isDigit_of_isAlpha (h c List.mem_cons_self)) _
  have hword := w.areLetters
  obtain ⟨c, letters, hcons⟩ := List.exists_cons_of_ne_nil w.ne_nil
  rw [hcons, dropV, List.cons_append, afterLetters?]
  rw [hcons] at hword
  split
  · rw [afterLetters?, Option.getD_some]
    exact hletters letters (List.forall_mem_cons.mp hword).2
  · rw [Option.getD_none]
    exact hletters (c :: letters) hword

/-- Behind the first word of a name there is no digit. -/
theorem exists_name_eq (w : Word) (words : List Word) {separator : Char}
    (h : isDigit separator = false) (rest : List Char) :
    ∃ behind, EndsRun isDigit behind ∧
      joinWith ['-'] ((w :: words).map Word.letters) ++ separator :: rest =
        w.letters ++ behind := by
  cases words with
  | nil => exact ⟨separator :: rest, endsRun_cons h rest, rfl⟩
  | cons next words =>
    refine ⟨'-' :: (joinWith ['-'] ((next :: words).map Word.letters) ++ separator :: rest),
      endsRun_cons (by decide) _, ?_⟩
    rw [List.map_cons, joinWith_cons (by simp), List.append_assoc, List.cons_append]

theorem stemHere?_of_isAlpha {c : Char} (h : c.isAlpha = true) (rest : List Char) :
    stemHere? (c :: rest) = none := by
  rw [stemHere?, isStemSeparator_of_isAlphanum (isAlphanum_of_isAlpha h)]
  rfl

theorem firstMatch_name {words : List Word} (hne : words ≠ []) {separator : Char}
    (hdigit : isDigit separator = false) {rest version : List Char}
    (h : stemHere? (separator :: rest) = some version) (before : Option Char) :
    firstMatch (fun _ rest => stemHere? rest) before
      (joinWith ['-'] (words.map Word.letters) ++ separator :: rest) = some version := by
  induction words generalizing before with
  | nil => exact absurd rfl hne
  | cons w words ih =>
    have hletters : ∀ c ∈ w.letters, ∀ (_ : Option Char) (rest : List Char),
        stemHere? (c :: rest) = none := fun c hc _ => stemHere?_of_isAlpha (w.areLetters c hc)
    cases words with
    | nil =>
      change firstMatch _ before (w.letters ++ separator :: rest) = _
      rw [firstMatch_append_of_none hletters, firstMatch, h]
    | cons next words =>
      have hhyphen : stemHere? ('-' :: (joinWith ['-'] ((next :: words).map Word.letters) ++
          separator :: rest)) = none := by
        obtain ⟨behind, hbehind, hname⟩ := exists_name_eq next words hdigit rest
        have hseparator : isStemSeparator '-' = true := rfl
        rw [hname, stemHere?, if_pos hseparator, number?_word next hbehind]
        rfl
      rw [List.map_cons, joinWith_cons (by simp), List.append_assoc, List.cons_append,
        firstMatch_append_of_none hletters, firstMatch_cons_of_none hhyphen]
      exact ih (by simp) (some '-')

theorem isDigit_separator : isDigit a.separator = false := by
  rcases a.isSeparator with h | h <;> rw [h] <;> decide

theorem stem?_stem : stem? a.stem = some a.version :=
  firstMatch_name a.words_ne_nil (isDigit_separator a) (stemHere?_version a) none

theorem bare?_stem : bare? a.stem = none := by
  obtain ⟨w, words, hwords⟩ := List.exists_cons_of_ne_nil a.words_ne_nil
  obtain ⟨behind, hbehind, hname⟩ := exists_name_eq w words (isDigit_separator a)
    (a.mark ++ (a.version ++ tailText a.tail))
  rw [NamedArchive.stem, NamedArchive.name, hwords, hname, bare?, bareHere?,
    number?_word w hbehind]
  rfl

/-! ## Characters of a name -/

theorem not_mem_version : '_' ∉ a.version := by
  rw [NamedArchive.version, List.mem_append, not_or]
  constructor
  · intro hmem
    exact absurd (of_mem_dotted (p := (· != '_')) (by decide) '_' hmem) (by decide)
  · intro hmem
    exact absurd (a.suffix.isAlphanum '_' hmem) (by decide)

theorem isUnreserved_name : ∀ c ∈ a.name, isUnreserved c = true := by
  refine of_mem_joinWith (by decide) fun part hpart c hc => ?_
  obtain ⟨w, -, rfl⟩ := List.mem_map.mp hpart
  exact isUnreserved_of_isAlpha (w.areLetters c hc)

theorem isUnreserved_tailText (tail : Option Tail) :
    ∀ c ∈ tailText tail, isUnreserved c = true := by
  cases tail with
  | none => exact fun _ hc => absurd hc List.not_mem_nil
  | some tail =>
    refine List.forall_mem_cons.mpr ⟨by decide, fun c hc => ?_⟩
    exact isUnreserved_of_isAlpha (isAlpha_of_isLower (tail.areSmall c hc))

theorem isUnreserved_stem : ∀ c ∈ a.stem, isUnreserved c = true := by
  have hseparator : isUnreserved a.separator = true := by
    rcases a.isSeparator with h | h <;> rw [h] <;> decide
  have hmark : ∀ c ∈ a.mark, isUnreserved c = true := by
    rw [NamedArchive.mark]
    split <;> simp [isUnreserved]
  have hversion : ∀ c ∈ a.version, isUnreserved c = true :=
    List.forall_mem_append.mpr ⟨of_mem_dotted (by decide),
      fun c hc => isUnreserved_of_isAlphanum (a.suffix.isAlphanum c hc)⟩
  rw [NamedArchive.stem, List.forall_mem_append, List.forall_mem_cons, List.forall_mem_append,
    List.forall_mem_append]
  exact ⟨isUnreserved_name a, hseparator, hmark, hversion, isUnreserved_tailText a.tail⟩

/-! ## The end of a name -/

/-- Before the letters at the end of the text there is a digit or a hyphen. -/
def EndsPlainly (text : List Char) : Prop :=
  ∃ front mark letters, text = front ++ mark :: letters ∧ (mark.isDigit = true ∨ mark = '-') ∧
    ∀ c ∈ letters, c.isAlpha = true

theorem EndsPlainly.prepend {text : List Char} (h : EndsPlainly text) (front : List Char) :
    EndsPlainly (front ++ text) := by
  obtain ⟨start, mark, letters, rfl, hmark, hletters⟩ := h
  exact ⟨front ++ start, mark, letters, (List.append_assoc front start _).symm, hmark, hletters⟩

theorem EndsPlainly.append {text letters : List Char} (h : EndsPlainly text)
    (hletters : ∀ c ∈ letters, c.isAlpha = true) : EndsPlainly (text ++ letters) := by
  obtain ⟨front, mark, first, rfl, hmark, hfirst⟩ := h
  refine ⟨front, mark, first ++ letters, ?_, hmark, List.forall_mem_append.mpr ⟨hfirst, hletters⟩⟩
  rw [List.append_assoc, List.cons_append]

theorem endsPlainly_digits {digits : List Char} (hne : digits ≠ [])
    (h : ∀ c ∈ digits, c.isDigit = true) : EndsPlainly digits :=
  ⟨digits.dropLast, digits.getLast hne, [], (List.dropLast_append_getLast hne).symm,
    .inl (h _ (List.getLast_mem hne)), fun _ hc => absurd hc List.not_mem_nil⟩

theorem endsPlainly_dotted (n : Numeral) (numbers : List Numeral) :
    EndsPlainly (n.digits ++ dottedRest numbers) := by
  induction numbers generalizing n with
  | nil =>
    change EndsPlainly (n.digits ++ [])
    rw [List.append_nil]
    exact endsPlainly_digits n.ne_nil n.areDigits
  | cons m numbers ih =>
    rw [dottedRest_cons, List.append_cons]
    exact (ih m).prepend _

theorem endsPlainly_version : EndsPlainly a.version := by
  obtain ⟨n, numbers, hnumbers⟩ := List.exists_cons_of_ne_nil a.numbers_ne_nil
  have hdotted := endsPlainly_dotted n numbers
  rw [NamedArchive.version, hnumbers, dotted_cons]
  cases a.suffix with
  | none => exact hdotted.append fun _ hc => absurd hc List.not_mem_nil
  | letter c hsmall =>
    exact hdotted.append (List.forall_mem_singleton.mpr (isAlpha_of_isLower hsmall))
  | stage name hname digits hdigits =>
    obtain ⟨c, word, hword, hc, hsmall⟩ := exists_stageName hname
    have hname : ∀ c ∈ name.toList, c.isAlpha = true := by
      rw [hword, List.forall_mem_cons]
      exact ⟨isAlpha_of_isLower hc, fun d hd => isAlpha_of_isLower (hsmall d hd)⟩
    rw [Suffix.text, ← List.append_assoc]
    by_cases hnil : digits = []
    · subst hnil
      rw [List.append_nil]
      exact hdotted.append hname
    · exact (endsPlainly_digits hnil hdigits).prepend _

theorem endsPlainly_stem : EndsPlainly a.stem := by
  rw [NamedArchive.stem, List.append_cons, ← List.append_assoc, ← List.append_assoc]
  cases a.tail with
  | none =>
    rw [tailText, List.append_nil]
    exact (endsPlainly_version a).prepend _
  | some tail =>
    exact ⟨_, '-', tail.word, rfl, .inr rfl, fun c hc => isAlpha_of_isLower (tail.areSmall c hc)⟩

theorem not_tar_suffix {text : List Char} (h : EndsPlainly text) :
    ¬ ".tar".toList <:+ text.map Char.toLower := by
  obtain ⟨front, mark, letters, rfl, hmark, hletters⟩ := h
  have hnotch : mark.toLower.isAlpha = false ∧ mark.toLower ≠ '.' := by
    rcases hmark with hdigit | rfl
    · have hall : (tenDigits.all fun c => !c.toLower.isAlpha && c.toLower != '.') = true := by
        decide
      simpa using of_isDigit hall hdigit
    · decide
  have hlower : ∀ c ∈ (letters.map Char.toLower).reverse, c.isAlpha = true := by
    intro c hc
    obtain ⟨d, hd, rfl⟩ := List.mem_map.mp (List.mem_reverse.mp hc)
    rw [Char.isAlpha_toLower_eq_isAlpha]
    exact hletters d hd
  rintro ⟨start, hstart⟩
  -- Read backwards, the letters end at the dot on the one side and at the mark on the other.
  have hreverse := congrArg List.reverse hstart
  rw [List.map_append, List.map_cons, List.reverse_append, List.reverse_append, List.reverse_cons,
    List.append_assoc, List.singleton_append] at hreverse
  have hdrop := congrArg (List.dropWhile Char.isAlpha) hreverse
  rw [dropWhile_run hlower (endsRun_cons hnotch.1 _)] at hdrop
  have hleft : (".tar".toList.reverse ++ start.reverse).dropWhile Char.isAlpha =
      '.' :: start.reverse := rfl
  rw [hleft] at hdrop
  exact hnotch.2 (List.cons.inj hdrop).1.symm

/-! ## Extensions -/

/-- No extension ends in an earlier one, and one that ends in a later one has `.tar` in front. -/
theorem archiveExtensions_pairwise :
    archiveExtensions.Pairwise fun earlier later => ¬ earlier.toList <:+ later.toList ∧
      (later.toList <:+ earlier.toList → earlier.toList = ".tar".toList ++ later.toList) := by
  decide +kernel

/-- The extension of a name is the first that fits, unless the name without it ends in `.tar`. -/
theorem find?_extension {front : List Char} (hfront : ¬ ".tar".toList <:+ front) {ext : String}
    (hext : ext ∈ archiveExtensions) :
    (archiveExtensions.find? fun e => e.toList.isSuffixOf (front ++ ext.toList)) = some ext := by
  obtain ⟨before, after, hlist⟩ := List.append_of_mem hext
  have hpairwise := archiveExtensions_pairwise
  rw [hlist, List.pairwise_append] at hpairwise
  rw [List.find?_eq_some_iff_append]
  refine ⟨List.isSuffixOf_iff_suffix.mpr (List.suffix_append front _), before, after, hlist, ?_⟩
  intro earlier hearlier
  obtain ⟨hlater, htar⟩ := hpairwise.2.2 earlier hearlier ext List.mem_cons_self
  rw [Bool.not_eq_true', ← Bool.not_eq_true, List.isSuffixOf_iff_suffix]
  intro hsuffix
  rcases List.suffix_or_suffix_of_suffix hsuffix (List.suffix_append front _) with h | h
  · exact hlater h
  · rw [htar h] at hsuffix
    obtain ⟨start, hstart⟩ := hsuffix
    rw [← List.append_assoc] at hstart
    exact hfront ⟨start, List.append_cancel_right hstart⟩

theorem lt_of_toLower {c : Char} (h : c.toLower.toNat < 128) : c.toNat < 128 := by
  by_cases hupper : c.isUpper = true
  · exact lt_of_isUpper hupper
  · rwa [Char.toLower_eq_of_not_isUpper hupper] at h

theorem isUnreserved_of_toLower {c : Char} (h : isUnreserved c.toLower = true) :
    isUnreserved c = true := by
  have hlt := lt_of_toLower (Url.lt_of_isUnreserved h)
  have hc := of_lt (p := fun c => !isUnreserved c.toLower || isUnreserved c) (by decide) hlt
  simpa [h] using hc

theorem isUnreserved_of_mem_extension {extension : List Char} {ext : String}
    (hext : ext ∈ archiveExtensions) (h : extension.map Char.toLower = ext.toList) :
    ∀ c ∈ extension, isUnreserved c = true := by
  have hall : (archiveExtensions.all fun ext => ext.toList.all isUnreserved) = true := by
    decide +kernel
  have hplain := List.all_eq_true.mp (List.all_eq_true.mp hall ext hext)
  intro c hc
  apply isUnreserved_of_toLower
  apply hplain
  rw [← h]
  exact List.mem_map_of_mem hc

theorem withoutArchiveExtension_append {stem extension : List Char} {ext : String}
    (hstem : ∀ c ∈ stem, c.toNat < 128) (hends : EndsPlainly stem)
    (hext : ext ∈ archiveExtensions) (h : extension.map Char.toLower = ext.toList) :
    withoutArchiveExtension (stem ++ extension) = stem := by
  have hextension : ∀ c ∈ extension, c.toNat < 128 := fun c hc =>
    Url.lt_of_isUnreserved (isUnreserved_of_mem_extension hext h c hc)
  have hlower : lower (stem ++ extension) = stem.map Char.toLower ++ ext.toList := by
    rw [lower_of_lt (List.forall_mem_append.mpr ⟨hstem, hextension⟩), List.map_append, h]
  have hlength : ext.length = extension.length := by
    rw [← List.length_map Char.toLower, h]
    rfl
  rw [withoutArchiveExtension, hlower, find?_extension (not_tar_suffix hends) hext]
  dsimp only
  rw [hlength, List.length_append, Nat.add_sub_cancel, List.take_left]

/-! ## The version of a URL -/

theorem withoutArchiveExtension_file : withoutArchiveExtension a.file = a.stem := by
  obtain ⟨ext, hext, h⟩ := a.isExtension
  have hstem : ∀ c ∈ a.stem, c.toNat < 128 := fun c hc =>
    Url.lt_of_isUnreserved (isUnreserved_stem a c hc)
  exact withoutArchiveExtension_append hstem (endsPlainly_stem a) hext h

theorem isUnreserved_file : ∀ c ∈ a.file, isUnreserved c = true := by
  obtain ⟨ext, hext, h⟩ := a.isExtension
  exact List.forall_mem_append.mpr
    ⟨isUnreserved_stem a, isUnreserved_of_mem_extension hext h⟩

theorem ofPath?_file {path : Path} (h : path.name = a.file) : ofPath? path = some a.version := by
  rw [ofPath?, h, withoutArchiveExtension_file, bare?_stem, stem?_stem, Option.none_or,
    Option.map_some, restoreDots_eq_self (not_mem_version a), Option.some_or]

theorem ofPath?_ofText (front : List Char) :
    ofPath? (Path.ofText (front ++ '/' :: a.file)) = some a.version := by
  have hslash : '/' ∉ a.file := fun hmem =>
    Url.ne_slash_of_isUnreserved (isUnreserved_file a '/' hmem) rfl
  have hmem : a.separator ∈ a.file := by
    simp [NamedArchive.file, NamedArchive.stem]
  have hne : a.file ≠ [] := List.ne_nil_of_mem hmem
  have hdot : a.file ≠ ['.'] := by
    intro hfile
    rw [hfile, List.mem_singleton] at hmem
    rcases a.isSeparator with h | h <;> rw [h] at hmem <;> exact absurd hmem (by decide)
  exact ofPath?_file a (Path.name_ofText hslash hne hdot)

theorem ofUrl_of_path {url path version : List Char} (hpath : Url.path url = .ok path)
    (hplain : ∀ c ∈ path, Url.isUnescaped c = true)
    (hversion : ofPath? (Path.ofText path) = some version) :
    ofUrl url = .ok (pure (some version)) := by
  unfold ofUrl
  rw [hpath]
  dsimp only [bind, Except.bind]
  rw [Url.unescape_of_isUnescaped hplain, hversion]
  rfl

/-- A URL of plain characters that leads to a named archive. -/
structure NamedUrl extends NamedArchive where
  host : List Char
  isPlainHost : ∀ c ∈ host, isUnreserved c = true
  directories : List (List Char)
  arePlain : ∀ directory ∈ directories, ∀ c ∈ directory, isUnreserved c = true

namespace NamedUrl

/-- The path without the slash in front. -/
def location (u : NamedUrl) : List Char :=
  u.directories.flatMap (· ++ ['/']) ++ u.file

def text (u : NamedUrl) : List Char :=
  "https://".toList ++ (u.host ++ '/' :: u.location)

end NamedUrl

theorem cons_slash_flatMap (directories : List (List Char)) :
    '/' :: directories.flatMap (· ++ ['/']) = directories.flatMap ('/' :: ·) ++ ['/'] := by
  induction directories with
  | nil => rfl
  | cons directory directories ih =>
    rw [List.flatMap_cons, List.flatMap_cons, List.append_assoc, List.append_assoc, ← ih]
    rfl

theorem location_plain (u : NamedUrl) :
    ∀ c ∈ u.location, isUnreserved c = true ∨ c = '/' := by
  rw [NamedUrl.location, List.forall_mem_append]
  constructor
  · intro c hc
    obtain ⟨directory, hdirectory, hc⟩ := List.mem_flatMap.mp hc
    rcases List.mem_append.mp hc with hc | hc
    · exact .inl (u.arePlain directory hdirectory c hc)
    · exact .inr (List.mem_singleton.mp hc)
  · exact fun c hc => .inl (isUnreserved_file u.toNamedArchive c hc)

/-- **The version is read back** from every URL that was made for it. -/
theorem ofUrl_named (u : NamedUrl) : ofUrl u.text = .ok (pure (some u.version)) := by
  have hchars : ∀ c ∈ u.location, Url.isPathChar c = true ∧ Url.isUnescaped c = true := by
    intro c hc
    rcases location_plain u c hc with h | rfl
    · exact ⟨Url.isPathChar_of_isUnreserved h, Url.isUnescaped_of_isUnreserved h⟩
    · decide
  have hpath : Url.path u.text = .ok ('/' :: u.location) :=
    Url.path_https u.isPlainHost fun c hc => (hchars c hc).1
  have hplain : ∀ c ∈ '/' :: u.location, Url.isUnescaped c = true :=
    List.forall_mem_cons.mpr ⟨by decide, fun c hc => (hchars c hc).2⟩
  have hlocation : '/' :: u.location = u.directories.flatMap ('/' :: ·) ++ '/' :: u.file := by
    rw [NamedUrl.location, ← List.cons_append, cons_slash_flatMap, List.append_assoc,
      List.singleton_append]
  apply ofUrl_of_path hpath hplain
  rw [hlocation]
  exact ofPath?_ofText u.toNamedArchive _

/-- An archive below directories that look like versions, with a tail that begins like a stage. -/
def sampleUrl : NamedUrl where
  words :=
    [{ letters := "open".toList
       ne_nil := by decide
       areLetters := List.all_eq_true.mp (by decide) },
      { letters := "ssh".toList
        ne_nil := by decide
        areLetters := List.all_eq_true.mp (by decide) }]
  words_ne_nil := by decide
  separator := '_'
  isSeparator := .inr rfl
  isMarked := true
  numbers :=
    [.ofNat 7,
      { digits := "04".toList
        ne_nil := by decide
        areDigits := List.all_eq_true.mp (by decide) }]
  numbers_ne_nil := by decide
  suffix := .stage "p" (by decide) "12".toList (List.all_eq_true.mp (by decide))
  tail :=
    some
      { word := "arm".toList
        ne_nil := by decide
        areSmall := List.all_eq_true.mp (by decide)
        isOther := by decide }
  extension := ".Tar.GZ".toList
  isExtension := ⟨".tar.gz", by decide, by decide⟩
  host := "example.com".toList
  isPlainHost := List.all_eq_true.mp (by decide)
  directories := ["v9.9".toList, "1.0".toList]
  arePlain :=
    List.forall_mem_cons.mpr ⟨List.all_eq_true.mp (by decide),
      List.forall_mem_singleton.mpr (List.all_eq_true.mp (by decide))⟩

theorem ofUrl_named_sample :
    ofUrl "https://example.com/v9.9/1.0/open-ssh_v7.04p12-arm.Tar.GZ".toList =
      .ok (pure (some "7.04p12".toList)) := by
  have htext : sampleUrl.text =
      "https://example.com/v9.9/1.0/open-ssh_v7.04p12-arm.Tar.GZ".toList := by
    decide +kernel
  have hversion : sampleUrl.version = "7.04p12".toList := by decide +kernel
  rw [← htext, ← hversion]
  exact ofUrl_named sampleUrl

end TapAudit.Version
