import TapAudit.Proofs.Precedence
import TapAudit.Proofs.Script.Exchange

/-!
# The order of attributes

Which of two attributes of different kinds comes first makes no difference to the snapshot, if they
stand on lines next to each other and a formula class is found in either order (`ofText_exchange`).
What a declaration tells depends on the others only in so far as they are stable blocks
(`describesStable_of_blocks`), and declarations of different kinds tell of different fields
(`add_add_comm`).

The order may settle whether a class is found: behind the line `class Foo <` a word is the start of
a superclass and a semicolon is not (`not_ofText_exchange`).
-/

namespace TapAudit.Snapshot

open Script Text

variable {all all' : List Declaration}

theorem describesStable_of_blocks (h : all'.map isStableBlock = all.map isStableBlock)
    (d : Declaration) : describesStable all' d = describesStable all d := by
  have hhas : hasStableBlock all' = hasStableBlock all := by
    have hany (ds : List Declaration) : ds.any isStableBlock = (ds.map isStableBlock).any id := by
      rw [List.any_map, Function.id_comp]
    rw [hasStableBlock_eq, hasStableBlock_eq, hany, hany, h]
  have hstable : isStable all' d = isStable all d := by
    cases hparent : d.parent with
    | none => rw [isStable, isStable, hparent]
    | some p =>
      have hblock (ds : List Declaration) :
          (ds[p]?).any isStableBlock = ((ds.map isStableBlock)[p]?).any id := by
        rw [List.getElem?_map]
        cases ds[p]? <;> rfl
      rw [isStable_of_parent hparent, isStable_of_parent hparent, hblock, hblock, h]
  rw [describesStable, describesStable, hhas, hstable]

theorem add_add_comm (f : Fields) {d e : Declaration} (h : d.kind ≠ e.kind) :
    ((f.add all d).value.add all e).value = ((f.add all e).value.add all d).value := by
  have hother {kind : Kind} {P Q : Prop} (hd : d.kind = kind ∧ P) : ¬ (e.kind = kind ∧ Q) :=
    fun he => h (hd.1.trans he.1.symm)
  simp only [add_value, Fields.mk.injEq]
  refine ⟨?_, ?_, ?_, ?_⟩
  all_goals
    split_ifs with he hd hd
    · exact absurd he (hother hd)
    · rfl
    · rfl
    · rfl

theorem add_declaration (a : AttributeLine) (f : Fields) (line line' : Nat) (parent : Option Nat) :
    (f.add all (a.declaration line parent)).value =
      (f.add all (a.declaration line' parent)).value :=
  add_congr f rfl rfl rfl rfl

theorem isStableBlock_declaration (a : AttributeLine) (line : Nat) (parent : Option Nat) :
    isStableBlock (a.declaration line parent) = false := by
  have hkinds : ∀ entry ∈ attributeWords, entry.2 ≠ .stableBlock := by decide
  rw [isStableBlock, AttributeLine.declaration,
    beq_eq_false_iff_ne.mpr (hkinds _ a.mem_attributeWords), Bool.false_and]

section

variable {a b : AttributeLine} {before behind : List Declaration} {line : Nat} {parent : Option Nat}
  (hall : all = before ++ a.declaration line parent :: b.declaration (line + 1) parent :: behind)
  (hall' : all' = before ++ b.declaration line parent :: a.declaration (line + 1) parent :: behind)

include hall hall'

theorem fields_exchange (hkind : a.kind ≠ b.kind) :
    (Fields.addAll all' {} all').value = (Fields.addAll all {} all).value := by
  have hblocks : all'.map isStableBlock = all.map isStableBlock := by
    simp [hall, hall', isStableBlock_declaration]
  have hadd (f : Fields) (d : Declaration) : (f.add all' d).value = (f.add all d).value :=
    add_congr f rfl rfl rfl (describesStable_of_blocks hblocks d)
  have hswap (f : Fields) :
      ((f.add all (b.declaration line parent)).value.add all
          (a.declaration (line + 1) parent)).value =
        ((f.add all (a.declaration line parent)).value.add all
          (b.declaration (line + 1) parent)).value := by
    rw [add_add_comm f (Ne.symm hkind), add_declaration a f (line + 1) line,
      add_declaration b _ line (line + 1)]
  rw [addAll_value, addAll_value]
  simp only [hadd]
  conv_lhs => arg 3; rw [hall']
  conv_rhs => arg 3; rw [hall]
  rw [List.foldl_append, List.foldl_append, List.foldl_cons, List.foldl_cons, List.foldl_cons,
    List.foldl_cons, hswap]

theorem areReadable_exchange :
    Number.AreReadable (numerals all') ↔ Number.AreReadable (numerals all) := by
  have hsplit (d e : Declaration) : numerals (before ++ d :: e :: behind) =
      numerals before ++ (numerals [d] ++ (numerals [e] ++ numerals behind)) := by
    rw [← numerals_append, ← numerals_append, ← numerals_append]
    rfl
  have hline (e : AttributeLine) (n : Nat) :
      numerals [e.declaration n parent] = numerals [e.declaration line parent] := by
    have hread : isRead (e.declaration n parent) = isRead (e.declaration line parent) := rfl
    rw [numerals, numerals, List.filter_singleton, List.filter_singleton, hread]
    cases isRead (e.declaration line parent) <;> rfl
  rw [hall, hall', hsplit, hsplit, hline a (line + 1), hline b (line + 1)]
  simp only [Number.areReadable_append]
  exact and_congr_right fun _ => and_left_comm

end

/--
**The order of attributes.** If two attributes of different kinds stand on lines next to each other,
the snapshot stays what it is when the lines change places, whatever stands in front of them and
behind them, and it is read from both texts or from neither of them. Both lines or neither of them
have to start with a semicolon, unless a formula class is found in both texts or in neither of them
anyway.
-/
theorem ofText_exchange {text text' : List Char} {front back : List (List Char)}
    {a b : AttributeLine} (htext : lines text = front ++ a.raw :: b.raw :: back)
    (htext' : lines text' = front ++ b.raw :: a.raw :: back)
    (hreading : (Walk.after {} front).IsReading) (hkind : a.kind ≠ b.kind)
    (hstart : a.startsWithSemicolon = b.startsWithSemicolon ∨ isFormula text' = isFormula text) :
    ofText text' = ofText text ∧ ∀ s, readText text' = .ok s ↔ readText text = .ok s := by
  have hformula : isFormula text' = isFormula text :=
    hstart.elim (isFormula_exchange htext htext') id
  obtain ⟨before, behind, line, parent, hall, hall'⟩ :=
    declarations_exchange a b htext htext' hreading
  have htexts : ofText text' = ofText text := by
    by_cases h : isFormula text = true
    · rw [ofText_formula h, ofText_formula (hformula.trans h)]
      exact ofDeclarations_congr (fields_exchange hall hall' hkind)
    · rw [ofText_of_not_formula h, ofText_of_not_formula (hformula ▸ h)]
  have hreadable : Number.AreReadable (scriptNumerals text') ↔
      Number.AreReadable (scriptNumerals text) := by
    rw [scriptNumerals, scriptNumerals, hformula]
    split_ifs
    · exact areReadable_exchange hall hall'
    · rfl
  refine ⟨htexts, fun s => ?_⟩
  rw [readText_eq_ok_iff, readText_eq_ok_iff, hreadable, htexts]

/-- The line of a download. -/
def downloadLine : AttributeLine where
  raw := "  url \"https://example.com/foo-1.0.tar.gz\" # stable".toList
  statement := "url \"https://example.com/foo-1.0.tar.gz\"".toList
  word := "url"
  argument := "\"https://example.com/foo-1.0.tar.gz\"".toList
  kind := .url
  statements_eq := by decide +kernel
  call_eq := by decide +kernel
  mem_attributeWords := by decide
  action_eq := by decide +kernel
  heredoc_eq := by decide +kernel

/-- The line of a revision. -/
def revisionLine : AttributeLine where
  raw := "  revision 1".toList
  statement := "revision 1".toList
  word := "revision"
  argument := "1".toList
  kind := .revision
  statements_eq := by decide +kernel
  call_eq := by decide +kernel
  mem_attributeWords := by decide
  action_eq := by decide +kernel
  heredoc_eq := by decide +kernel

/-- The formula with the revision behind the download. -/
def revisionBehind : List Char :=
  ("class Foo < Formula\n  url \"https://example.com/foo-1.0.tar.gz\" # stable\n" ++
    "  revision 1\nend").toList

/-- The formula with the revision in front of the download. -/
def revisionInFront : List Char :=
  ("class Foo < Formula\n  revision 1\n" ++
    "  url \"https://example.com/foo-1.0.tar.gz\" # stable\nend").toList

theorem ofText_exchange_revision :
    ofText revisionInFront = ofText revisionBehind ∧
      ∀ s, readText revisionInFront = .ok s ↔ readText revisionBehind = .ok s := by
  have htext : lines revisionBehind =
      ["class Foo < Formula".toList] ++ downloadLine.raw :: revisionLine.raw :: ["end".toList] := by
    decide +kernel
  have htext' : lines revisionInFront =
      ["class Foo < Formula".toList] ++ revisionLine.raw :: downloadLine.raw :: ["end".toList] := by
    decide +kernel
  exact ofText_exchange htext htext' (by decide +kernel) (by decide) (.inl (by decide +kernel))

/-- The line of a description with a semicolon in front. -/
def semicolonLine : AttributeLine where
  raw := "  ;desc \"Foo\"".toList
  statement := "desc \"Foo\"".toList
  word := "desc"
  argument := "\"Foo\"".toList
  kind := .desc
  statements_eq := by decide +kernel
  call_eq := by decide +kernel
  mem_attributeWords := by decide
  action_eq := by decide +kernel
  heredoc_eq := by decide +kernel

/-- The line `class Foo <` is no header if a semicolon follows, but it is one if a revision does. -/
theorem not_ofText_exchange :
    ofText "class Foo <\n  ;desc \"Foo\"\n  revision 1\nend".toList = .ok none ∧
      ofText "class Foo <\n  revision 1\n  ;desc \"Foo\"\nend".toList ≠ .ok none ∧
      ¬ ∀ (text text' : List Char) (front back : List (List Char)) (a b : AttributeLine),
        lines text = front ++ a.raw :: b.raw :: back →
          lines text' = front ++ b.raw :: a.raw :: back →
            (Walk.after {} front).IsReading → a.kind ≠ b.kind → ofText text' = ofText text := by
  have hnone : ofText "class Foo <\n  ;desc \"Foo\"\n  revision 1\nend".toList = .ok none :=
    ofText_of_not_formula (by decide +kernel)
  have hsome : ofText "class Foo <\n  revision 1\n  ;desc \"Foo\"\nend".toList ≠ .ok none :=
    fun h => not_isFormula_of_ofText h (by decide +kernel)
  refine ⟨hnone, hsome, fun h => hsome ?_⟩
  have htext : lines "class Foo <\n  ;desc \"Foo\"\n  revision 1\nend".toList =
      ["class Foo <".toList] ++ semicolonLine.raw :: revisionLine.raw :: ["end".toList] := by
    decide +kernel
  have htext' : lines "class Foo <\n  revision 1\n  ;desc \"Foo\"\nend".toList =
      ["class Foo <".toList] ++ revisionLine.raw :: semicolonLine.raw :: ["end".toList] := by
    decide +kernel
  rw [h _ _ _ _ _ _ htext htext' (by decide +kernel) (by decide), hnone]

end TapAudit.Snapshot
