import Mathlib.Data.List.TakeWhile
import TapAudit.Path
import TapAudit.Proofs.Text.Letter
import TapAudit.Proofs.Text.Lines
import TapAudit.Proofs.Url

/-!
# The path of a plain URL

A URL whose host and path are made of characters that stand for themselves is cut into its parts
where it seems to be, and its last part names a file.

- `path_https`: the path of such a URL.
- `name_ofText`: the file that a path leads to.
-/

namespace TapAudit

open Text

namespace Url

/-! ## Characters -/

/-- A character that stands for itself everywhere in a URL. -/
def isUnreserved (c : Char) : Bool :=
  c.isAlphanum || c == '-' || c == '.' || c == '_' || c == '~'

/-- A character of a path that neither ends it nor is dropped from it. -/
def isPathChar (c : Char) : Bool :=
  !(['\t', '\r', '\n', '#', '?', ';'].contains c)

theorem isUnreserved_of_isAlphanum {c : Char} (h : c.isAlphanum = true) :
    isUnreserved c = true := by
  simp only [isUnreserved, h, Bool.true_or]

theorem isUnreserved_of_isAlpha {c : Char} (h : c.isAlpha = true) : isUnreserved c = true :=
  isUnreserved_of_isAlphanum (isAlphanum_of_isAlpha h)

theorem lt_of_isUnreserved {c : Char} (h : isUnreserved c = true) : c.toNat < 128 := by
  simp only [isUnreserved, Bool.or_eq_true, beq_iff_eq] at h
  rcases h with (((h | rfl) | rfl) | rfl) | rfl
  · exact lt_of_isAlphanum h
  all_goals decide

theorem of_isUnreserved {p : Char → Bool}
    (hall : ∀ n < 128, (!isUnreserved (Char.ofNat n) || p (Char.ofNat n)) = true) {c : Char}
    (h : isUnreserved c = true) : p c = true := by
  have hc := of_lt (p := fun c => !isUnreserved c || p c) hall (lt_of_isUnreserved h)
  simpa [h] using hc

theorem isPathChar_of_isUnreserved {c : Char} (h : isUnreserved c = true) :
    isPathChar c = true :=
  of_isUnreserved (by decide) h

theorem isUnescaped_of_isUnreserved {c : Char} (h : isUnreserved c = true) :
    isUnescaped c = true :=
  of_isUnreserved (by decide) h

theorem ne_slash_of_isUnreserved {c : Char} (h : isUnreserved c = true) : c ≠ '/' := by
  rintro rfl
  exact absurd h (by decide)

/-! ## The parts of a URL -/

theorem withoutParameters_eq_self {path : List Char} (h : ';' ∉ path) :
    withoutParameters path = path := by
  have hsuffix : afterLast '/' path <:+ path := by
    rw [afterLast, ← List.reverse_prefix, List.reverse_reverse]
    exact List.takeWhile_prefix _
  obtain ⟨front, hfront⟩ := hsuffix
  have hlength : path.length - (afterLast '/' path).length = front.length := by
    rw [← congrArg List.length hfront, List.length_append]
    omega
  have hlast : (afterLast '/' path).takeWhile (· != ';') = afterLast '/' path := by
    refine List.takeWhile_eq_self_iff.mpr fun c hc => ?_
    rw [bne_iff_ne]
    rintro rfl
    exact h (hfront ▸ List.mem_append_right front hc)
  rw [withoutParameters, hlength, hlast]
  nth_rewrite 1 [← hfront]
  rw [List.take_left, hfront]

theorem cleaned_https (rest : List Char) (h : ∀ c ∈ rest, isPathChar c = true) :
    cleaned ("https://".toList ++ rest) = "https://".toList ++ rest := by
  have hchars : ∀ c ∈ "https://".toList ++ rest, isPathChar c = true :=
    List.forall_mem_append.mpr ⟨List.all_eq_true.mp (by decide), h⟩
  change ("https://".toList ++ rest).filter _ = _
  refine List.filter_eq_self.mpr fun c hc => ?_
  have hkept := hchars c hc
  change (!(c == '\t' || c == '\r' || c == '\n')) = true
  simp only [isPathChar, List.contains_cons, Bool.not_or, Bool.and_eq_true] at hkept
  simp only [Bool.not_or, Bool.and_eq_true]
  exact ⟨⟨hkept.1, hkept.2.1⟩, hkept.2.2.1⟩

theorem authority_host {host : List Char} (h : ∀ c ∈ host, isUnreserved c = true)
    (rest : List Char) : authority ('/' :: '/' :: (host ++ '/' :: rest)) = (host, '/' :: rest) := by
  have hhost : ∀ c ∈ host, (!(c == '/' || c == '?' || c == '#')) = true := fun c hc =>
    of_isUnreserved (p := fun c => !(c == '/' || c == '?' || c == '#')) (by decide) (h c hc)
  have hends : EndsRun (fun c => !(c == '/' || c == '?' || c == '#')) ('/' :: rest) :=
    endsRun_cons (by decide) rest
  rw [authority, takeWhile_run hhost hends, dropWhile_run hhost hends]

theorem checkAuthority_host {host : List Char} (h : ∀ c ∈ host, isUnreserved c = true) :
    checkAuthority host = .ok () := by
  have hnot (mark : Char) (hmark : isUnreserved mark = false) : host.contains mark = false := by
    rw [← Bool.not_eq_true, List.contains_iff_mem]
    intro hmem
    rw [h mark hmem] at hmark
    cases hmark
  have hhidden : host.any hidesDelimiter = false := by
    rw [List.any_eq_false]
    intro c hc
    have hplain := of_isUnreserved (p := fun c => !hidesDelimiter c) (by decide) (h c hc)
    simpa using hplain
  rw [checkAuthority_eq_ok_iff, hnot '[' (by decide), hnot ']' (by decide)]
  exact ⟨rfl, fun hopen => absurd hopen (by decide), hhidden⟩

theorem path_https {host rest : List Char} (hhost : ∀ c ∈ host, isUnreserved c = true)
    (hrest : ∀ c ∈ rest, isPathChar c = true) :
    path ("https://".toList ++ (host ++ '/' :: rest)) = .ok ('/' :: rest) := by
  have hne (mark : Char) (hmark : isPathChar mark = false) (hslash : mark ≠ '/') :
      mark ∉ '/' :: rest := by
    intro hmem
    rcases List.mem_cons.mp hmem with heq | hmem
    · exact hslash heq
    · rw [hrest mark hmem] at hmark
      cases hmark
  have hwhole (mark : Char) (hmark : isPathChar mark = false) (hslash : mark ≠ '/') :
      ('/' :: rest).takeWhile (· != mark) = '/' :: rest := by
    refine List.takeWhile_eq_self_iff.mpr fun c hc => ?_
    rw [bne_iff_ne]
    rintro rfl
    exact hne c hmark hslash hc
  have hcleaned := cleaned_https (host ++ '/' :: rest) <|
    List.forall_mem_append.mpr ⟨fun c hc => isPathChar_of_isUnreserved (hhost c hc),
      List.forall_mem_cons.mpr ⟨by decide, hrest⟩⟩
  have hscheme : scheme ("https://".toList ++ (host ++ '/' :: rest)) =
      ("https".toList, '/' :: '/' :: (host ++ '/' :: rest)) := rfl
  rw [path, hcleaned, hscheme]
  dsimp only
  rw [authority_host hhost]
  dsimp only
  rw [checkAuthority_host hhost, hwhole '#' (by decide) (by decide),
    hwhole '?' (by decide) (by decide),
    withoutParameters_eq_self (hne ';' (by decide) (by decide))]
  rfl

end Url

theorem Path.name_ofText {front file : List Char} (hslash : '/' ∉ file) (hne : file ≠ [])
    (hdot : file ≠ ['.']) : (Path.ofText (front ++ '/' :: file)).name = file := by
  have hkept : [file].filter (fun part => !part.isEmpty && part != ['.']) = [file] := by
    simp [hne, hdot]
  rw [Path.name, Path.ofText, splitOn_append_sep, splitOn_eq_singleton hslash, List.filter_append,
    hkept, List.getLast?_concat, Option.getD_some]

end TapAudit
