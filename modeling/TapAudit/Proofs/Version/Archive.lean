import TapAudit.Proofs.Script.Statement
import TapAudit.Proofs.Version.Named
import TapAudit.Snapshot

/-!
# The version of an archive

A download declared by the URL of an archive that is named after dotted numbers has these numbers
as its version. No tag stands in its way.

- `firstQuoted?_literal`: what stands between quotes.
- `ofPath?_archive`: the version of the archive, which is a named one.
- `ofTag?_archive`: its URL has no tag.
- `downloadVersion_archive`: the version of the download.
-/

namespace TapAudit

open Text

/-! ## Quotes -/

namespace Script

theorem upToQuote?_append {mark : Char} {content : List Char} (hmark : mark ∉ content)
    (hfeed : '\n' ∉ content) (rest : List Char) :
    upToQuote? mark (content ++ mark :: rest) = some content := by
  induction content with
  | nil => rw [List.nil_append, upToQuote?, if_pos rfl]
  | cons c content ih =>
    rw [List.mem_cons, not_or] at hmark hfeed
    rw [List.cons_append, upToQuote?, if_neg (Ne.symm hmark.1), if_neg (Ne.symm hfeed.1),
      ih hmark.2 hfeed.2]
    rfl

theorem firstQuoted?_literal {content : List Char} (hmark : '"' ∉ content)
    (hfeed : '\n' ∉ content) : firstQuoted? (literal content) = some content := by
  have hquoted : quotedHere? (literal content) = some content := by
    rw [literal, quotedHere?, if_pos (by decide), upToQuote?_append hmark hfeed]
  rw [firstQuoted?, literal, firstMatch, ← literal, hquoted]

end Script

/-! ## Archives -/

namespace Version

/-- The name of an archive of some version. -/
def archiveName (numbers : List Numeral) : List Char :=
  "foo-".toList ++ dotted numbers ++ ".tar.gz".toList

def archiveUrl (numbers : List Numeral) : List Char :=
  "https://example.com/".toList ++ archiveName numbers

theorem of_mem_archiveName {p : Char → Bool}
    (hall : ("foo-".toList ++ '.' :: tenDigits ++ ".tar.gz".toList).all p = true)
    {numbers : List Numeral} : ∀ c ∈ archiveName numbers, p c = true := by
  rw [List.all_append, List.all_append, Bool.and_eq_true, Bool.and_eq_true] at hall
  obtain ⟨⟨hfront, hdotted⟩, hback⟩ := hall
  exact List.forall_mem_append.mpr
    ⟨List.forall_mem_append.mpr ⟨List.all_eq_true.mp hfront, of_mem_dotted hdotted⟩,
      List.all_eq_true.mp hback⟩

/-- The archive as one that is named after its version. -/
def namedArchive (numbers : List Numeral) (hne : numbers ≠ []) : NamedArchive where
  words := [⟨"foo".toList, by decide, List.all_eq_true.mp (by decide)⟩]
  words_ne_nil := List.cons_ne_nil _ _
  separator := '-'
  isSeparator := .inl rfl
  isMarked := false
  numbers := numbers
  numbers_ne_nil := hne
  suffix := .none
  tail := none
  extension := ".tar.gz".toList
  isExtension := ⟨".tar.gz", by decide, by decide⟩

theorem version_namedArchive {numbers : List Numeral} (hne : numbers ≠ []) :
    (namedArchive numbers hne).version = dotted numbers :=
  List.append_nil _

theorem file_namedArchive {numbers : List Numeral} (hne : numbers ≠ []) :
    (namedArchive numbers hne).file = archiveName numbers := by
  have hstem : (namedArchive numbers hne).stem = "foo-".toList ++ dotted numbers := by
    rw [NamedArchive.stem, version_namedArchive]
    change "foo-".toList ++ (dotted numbers ++ []) = _
    rw [List.append_nil]
  rw [NamedArchive.file, hstem]
  rfl

theorem ofPath?_archive {numbers : List Numeral} (hne : numbers ≠ []) :
    ofPath? (Path.ofText ('/' :: archiveName numbers)) = some (dotted numbers) := by
  rw [← file_namedArchive hne, ← version_namedArchive hne]
  exact ofPath?_ofText (namedArchive numbers hne) []

theorem ofUrl_archive {numbers : List Numeral} (hne : numbers ≠ []) :
    ofUrl (archiveUrl numbers) = .ok (pure (some (dotted numbers))) := by
  have hhost : ∀ c ∈ "example.com".toList, Url.isUnreserved c = true :=
    List.all_eq_true.mp (by decide)
  have hparts : archiveUrl numbers =
      "https://".toList ++ ("example.com".toList ++ '/' :: archiveName numbers) := rfl
  have hpath : Url.path (archiveUrl numbers) = .ok ('/' :: archiveName numbers) := by
    rw [hparts]
    exact Url.path_https hhost (of_mem_archiveName (by decide))
  have hplain : ∀ c ∈ '/' :: archiveName numbers, Url.isUnescaped c = true :=
    List.forall_mem_cons.mpr ⟨by decide, of_mem_archiveName (by decide)⟩
  exact ofUrl_of_path hpath hplain (ofPath?_archive hne)

/-! ## Downloads -/

theorem tagHere?_eq_none {c : Char} (hcolon : c ≠ ':') (ht : c ≠ 't') (before : Option Char)
    (rest : List Char) : tagHere? before (c :: rest) = none := by
  have hfirst : after? ":tag" (c :: rest) = none :=
    Option.eq_none_iff_forall_ne_some.mpr fun tail h =>
      hcolon (List.cons.inj (after?_eq_some_iff.mp h)).1
  have hsecond : after? "tag:" (c :: rest) = none :=
    Option.eq_none_iff_forall_ne_some.mpr fun tail h =>
      ht (List.cons.inj (after?_eq_some_iff.mp h)).1
  rw [tagHere?, hfirst, hsecond]
  cases endsWord before <;> rfl

theorem firstMatch_tag_foo (rest : List Char) :
    firstMatch tagHere? none ("\"https://example.com/foo-".toList ++ rest) =
      firstMatch tagHere? (some '-') rest := rfl

theorem ofTag?_archive (numbers : List Numeral) :
    ofTag? (Script.literal (archiveUrl numbers)) = none := by
  have hchars : ∀ c ∈ dotted numbers, (c != ':' && c != 't') = true := of_mem_dotted (by decide)
  have hplain : ∀ c ∈ dotted numbers, ∀ before rest, tagHere? before (c :: rest) = none := by
    intro c hc before rest
    have hne := hchars c hc
    rw [Bool.and_eq_true, bne_iff_ne, bne_iff_ne] at hne
    exact tagHere?_eq_none hne.1 hne.2 before rest
  have hsplit : Script.literal (archiveUrl numbers) =
      "\"https://example.com/foo-".toList ++ (dotted numbers ++ ".tar.gz".toList ++ ['"']) := rfl
  have hend (before : Option Char) :
      firstMatch tagHere? before (".tar.gz".toList ++ ['"']) = none := by
    change firstMatch tagHere? before ('.' :: "tar.gz\"".toList) = none
    rw [firstMatch_cons_of_none (tagHere?_eq_none (by decide) (by decide) before _)]
    rfl
  rw [ofTag?, hsplit, firstMatch_tag_foo, List.append_assoc, firstMatch_append_of_none hplain, hend,
    Option.bind_none]

end Version

theorem Snapshot.downloadVersion_archive {numbers : List Numeral} (hne : numbers ≠ []) :
    downloadVersion (Script.literal (Version.archiveUrl numbers)) =
      .ok (pure (some (dotted numbers))) := by
  have hchars : ∀ c ∈ Version.archiveUrl numbers, (c != '"' && c != '\n') = true :=
    List.forall_mem_append.mpr
      ⟨List.all_eq_true.mp (by decide), Version.of_mem_archiveName (by decide)⟩
  have hmark : '"' ∉ Version.archiveUrl numbers := fun hmem => absurd (hchars _ hmem) (by decide)
  have hfeed : '\n' ∉ Version.archiveUrl numbers := fun hmem => absurd (hchars _ hmem) (by decide)
  rw [downloadVersion, Version.ofTag?_archive, Script.firstQuoted?_literal hmark hfeed]
  exact Version.ofUrl_archive hne

end TapAudit
