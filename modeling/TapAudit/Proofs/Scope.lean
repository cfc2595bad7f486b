import TapAudit.Proofs.Script.Insertion
import TapAudit.Proofs.Snapshot

/-!
# The scope of the version fields

The version fields are read in the class body and in its stable blocks. A block of any other kind
that is put into a script therefore changes none of them, whatever it declares (`ofText_insert`):
the declarations in it are out of scope, and all others stand where they stood, under other numbers
(`isStable_back`, `isStable_front`).
-/

namespace TapAudit.Snapshot

open Script Text

/-! ## Taking declarations into account -/

variable {all all' : List Declaration} {d d' : Declaration}

theorem declaredInteger_value (d : Declaration) :
    (declaredInteger d).value = leadingInteger? d.argument := by
  rw [declaredInteger]
  cases leadingInteger? d.argument <;> rfl

theorem addAll_value (all : List Declaration) (f : Fields) (ds : List Declaration) :
    (f.addAll all ds).value = ds.foldl (fun f d => (f.add all d).value) f := by
  induction ds generalizing f with
  | nil => rfl
  | cons d ds ih => exact ih (f.add all d).value

theorem add_congr (f : Fields) (hkind : d'.kind = d.kind) (hargument : d'.argument = d.argument)
    (htop : d'.isTopLevel = d.isTopLevel)
    (hstable : describesStable all' d' = describesStable all d) :
    (f.add all' d').value = (f.add all d).value := by
  rw [Fields.add, Fields.add, hkind, htop, hstable, hargument]
  split
  · split
    · simp [declaredInteger_value, hargument]
    · rfl
  · split
    · simp [declaredInteger_value, hargument]
    · rfl
  all_goals rfl

theorem add_of_opener (f : Fields) (h : d.kind ∈ openedKinds) : (f.add all d).value = f := by
  have hopened : ∀ kind ∈ openedKinds, kind ≠ .revision ∧ kind ≠ .versionScheme ∧ kind ≠ .url ∧
      kind ≠ .version := by
    decide
  obtain ⟨hrevision, hscheme, hurl, hversion⟩ := hopened d.kind h
  rw [Fields.add]
  split
  · contradiction
  · contradiction
  · contradiction
  · contradiction
  · rfl

theorem add_of_out (f : Fields) (htop : d.isTopLevel = false) (hstable : isStable all d = false) :
    (f.add all d).value = f := by
  have hdescribes : describesStable all d = false := by rw [describesStable, hstable]; rfl
  rw [Fields.add, htop, hdescribes]
  split <;> rfl

theorem ofDeclarations_congr
    (h : (Fields.addAll all' {} all').value = (Fields.addAll all {} all).value) :
    ((ofDeclarations all').map fun s => some s.value) =
      (ofDeclarations all).map fun s => some s.value := by
  rw [ofDeclarations, ofDeclarations]
  simp only [h]
  split
  · simp [Except.map, h]
  · simp [Except.map, h]
  · next argument _ _ => cases downloadVersion argument <;> simp [Except.map, h]

/-! ## Stable blocks -/

/-- A stable block of the class body. -/
def isStableBlock (d : Declaration) : Bool :=
  d.kind == .stableBlock && d.isTopLevel

theorem hasStableBlock_eq (all : List Declaration) : hasStableBlock all = all.any isStableBlock :=
  rfl

theorem isStable_of_parent {p : Nat} (h : d.parent = some p) :
    isStable all d = (all[p]?).any isStableBlock := by
  rw [isStable, h]
  rfl

/-! ## A block that is put in -/

theorem isTopLevel_shift (s : Shift) (d : Declaration) :
    (s.declaration d).isTopLevel = d.isTopLevel := by
  simp [Shift.declaration, Declaration.isTopLevel]

theorem isStableBlock_shift (s : Shift) (d : Declaration) :
    isStableBlock (s.declaration d) = isStableBlock d := by
  rw [isStableBlock, isStableBlock, isTopLevel_shift]
  rfl

variable (i : Insertion)

theorem isStableBlock_opener : isStableBlock i.opener = false := by
  rw [isStableBlock, beq_eq_false_iff_ne.mpr i.opener_kind.2, Bool.false_and]

theorem isTopLevel_block (hd : d ∈ i.block) : d.isTopLevel = false := by
  obtain ⟨p, hp, -⟩ := i.block_parent d hd
  rw [Declaration.isTopLevel, hp]
  rfl

theorem isStableBlock_block (hd : d ∈ i.block) : isStableBlock d = false := by
  rw [isStableBlock, isTopLevel_block i hd, Bool.and_false]

theorem any_isStableBlock_later (j : Nat) :
    (i.extended[later i.front.length (1 + i.block.length) j]?).any isStableBlock =
      (i.original[j]?).any isStableBlock := by
  rw [Insertion.extended, Insertion.original]
  by_cases hj : j < i.front.length
  · rw [later_of_lt hj, List.getElem?_append_left hj, List.getElem?_append_left hj]
  · have hle : i.front.length ≤ j := Nat.le_of_not_lt hj
    have hnew : j + (1 + i.block.length) - i.front.length =
        (j - i.front.length + i.block.length) + 1 := by omega
    rw [later_of_le hle, List.getElem?_append_right (by omega), List.getElem?_append_right hle,
      hnew, List.getElem?_cons_succ, List.getElem?_append_right (by omega),
      Nat.add_sub_cancel, List.getElem?_map]
    cases i.back[j - i.front.length]? with
    | none => rfl
    | some d => exact isStableBlock_shift _ d

theorem hasStableBlock_extended : hasStableBlock i.extended = hasStableBlock i.original := by
  have hblock : i.block.any isStableBlock = false := by
    rw [List.any_eq_false]
    intro d hd
    simp [isStableBlock_block i hd]
  have hback : isStableBlock ∘ i.shift.declaration = isStableBlock :=
    funext (isStableBlock_shift i.shift)
  rw [hasStableBlock_eq, hasStableBlock_eq, Insertion.extended, Insertion.original]
  simp only [List.any_append, List.any_cons, List.any_map, isStableBlock_opener, hblock, hback,
    Bool.false_or]

theorem isStable_back (d : Declaration) :
    isStable i.extended (i.shift.declaration d) = isStable i.original d := by
  cases hparent : d.parent with
  | none => simp [isStable, Shift.declaration, hparent]
  | some p =>
    have hshift : (i.shift.declaration d).parent =
        some (later i.front.length (1 + i.block.length) p) := by
      rw [Shift.declaration, hparent]
      rfl
    rw [isStable_of_parent hparent, isStable_of_parent hshift, any_isStableBlock_later]

theorem isStable_front (hd : d ∈ i.front) : isStable i.extended d = isStable i.original d := by
  cases hparent : d.parent with
  | none => simp [isStable, hparent]
  | some p =>
    have hlater := any_isStableBlock_later i p
    rw [later_of_lt (i.front_parent d hd p hparent)] at hlater
    rw [isStable_of_parent hparent, isStable_of_parent hparent, hlater]

theorem isStable_block (hd : d ∈ i.block) : isStable i.extended d = false := by
  obtain ⟨p, hparent, hlow, hhigh⟩ := i.block_parent d hd
  obtain ⟨j, rfl⟩ := Nat.exists_eq_add_of_le hlow
  rw [isStable_of_parent hparent, Insertion.extended, List.getElem?_append_right hlow,
    Nat.add_sub_cancel_left]
  cases j with
  | zero => rw [List.getElem?_cons_zero, Option.any_some, isStableBlock_opener]
  | succ j =>
    have hj : j < i.block.length := by omega
    rw [List.getElem?_cons_succ, List.getElem?_append_left hj, List.getElem?_eq_getElem hj,
      Option.any_some, isStableBlock_block i (List.getElem_mem hj)]

theorem describesStable_congr (htop : d'.isTopLevel = d.isTopLevel)
    (hstable : isStable i.extended d' = isStable i.original d) :
    describesStable i.extended d' = describesStable i.original d := by
  rw [describesStable, describesStable, hstable, hasStableBlock_extended, htop]

theorem fields_extended :
    (Fields.addAll i.extended {} i.extended).value =
      (Fields.addAll i.original {} i.original).value := by
  have hfront (f : Fields) :
      i.front.foldl (fun f d => (f.add i.extended d).value) f =
        i.front.foldl (fun f d => (f.add i.original d).value) f := by
    refine List.foldl_ext _ _ f fun f d hd => ?_
    exact add_congr f rfl rfl rfl (describesStable_congr i rfl (isStable_front i hd))
  have hblock (f : Fields) : i.block.foldl (fun f d => (f.add i.extended d).value) f = f := by
    refine (List.foldl_ext _ (fun f _ => f) f fun f d hd => ?_).trans (List.foldl_fixed i.block)
    exact add_of_out f (isTopLevel_block i hd) (isStable_block i hd)
  have hback (f : Fields) :
      (i.back.map i.shift.declaration).foldl (fun f d => (f.add i.extended d).value) f =
        i.back.foldl (fun f d => (f.add i.original d).value) f := by
    rw [List.foldl_map]
    refine List.foldl_ext _ _ f fun f d _ => ?_
    exact add_congr f rfl rfl (isTopLevel_shift _ d)
      (describesStable_congr i (isTopLevel_shift _ d) (isStable_back i d))
  rw [addAll_value, addAll_value]
  conv_lhs => arg 3; rw [Insertion.extended]
  conv_rhs => arg 3; rw [Insertion.original]
  rw [List.foldl_append, List.foldl_cons, List.foldl_append, List.foldl_append, hfront,
    add_of_opener _ i.opener_kind.1, hblock, hback]

theorem isRead_of_opener (h : d.kind ∈ openedKinds) : isRead d = false := by
  have hopened : ∀ kind ∈ openedKinds, (kind == .revision || kind == .versionScheme) = false := by
    decide
  rw [isRead, hopened d.kind h, Bool.false_and]

theorem numerals_append (ds es : List Declaration) :
    numerals (ds ++ es) = numerals ds ++ numerals es := by
  rw [numerals, List.filter_append, List.filterMap_append, numerals, numerals]

theorem numerals_extended : numerals i.extended = numerals i.original := by
  have hinside : numerals (i.opener :: i.block) = [] := by
    have hread : ∀ d ∈ i.opener :: i.block, ¬ isRead d = true := by
      rw [List.forall_mem_cons]
      refine ⟨Bool.eq_false_iff.mp (isRead_of_opener i.opener_kind.1), fun d hd => ?_⟩
      simp [isRead, isTopLevel_block i hd]
    rw [numerals, List.filter_eq_nil_iff.mpr hread, List.filterMap_nil]
  have hback : numerals (i.back.map i.shift.declaration) = numerals i.back := by
    have hshift : isRead ∘ i.shift.declaration = isRead := by
      funext d
      rw [Function.comp_apply, isRead, isTopLevel_shift]
      rfl
    rw [numerals, List.filter_map, hshift, List.filterMap_map]
    rfl
  rw [Insertion.extended, Insertion.original, numerals_append, ← List.cons_append,
    numerals_append, hinside, hback, numerals_append]
  rfl

/-- What a block declares that is put into a script is not taken into account, and none of its
integers is read. -/
theorem ofText_insert {text text' opener closing : List Char} {front inner back : List (List Char)}
    (htext : lines text = front ++ back)
    (htext' : lines text' = front ++ opener :: (inner ++ closing :: back))
    (hreading : (Walk.after {} front).IsReading)
    (hblock : (Walk.after {} front).IsBlock opener inner closing) (hformula : isFormula text)
    (hformula' : isFormula text') :
    readText text' = readText text ∧ ofText text' = ofText text := by
  obtain ⟨i, hi, hi'⟩ := declarations_insert htext htext' hreading hblock
  have htexts : ofText text' = ofText text := by
    rw [ofText_formula hformula, ofText_formula hformula', ← hi, ← hi']
    exact ofDeclarations_congr (fields_extended i)
  have hnumerals : scriptNumerals text' = scriptNumerals text := by
    rw [scriptNumerals, scriptNumerals, if_pos hformula, if_pos hformula', ← hi, ← hi',
      numerals_extended]
  exact ⟨by rw [readText_eq, readText_eq, hnumerals, htexts], htexts⟩

/-- The version of a resource is not that of the formula, not even in a stable block of its own. -/
theorem ofText_insert_resource :
    readText ("class Foo < Formula\n  version \"1.0\"\n  resource \"bar\" do\n" ++
          "    stable do\n      version \"2.0\"\n    end\n  end\nend").toList =
        readText "class Foo < Formula\n  version \"1.0\"\nend".toList ∧
      ofText ("class Foo < Formula\n  version \"1.0\"\n  resource \"bar\" do\n" ++
          "    stable do\n      version \"2.0\"\n    end\n  end\nend").toList =
        ofText "class Foo < Formula\n  version \"1.0\"\nend".toList := by
  have htext : lines "class Foo < Formula\n  version \"1.0\"\nend".toList =
      ["class Foo < Formula".toList, "  version \"1.0\"".toList] ++ ["end".toList] := by
    decide
  have hblock : (Walk.after {} ["class Foo < Formula".toList, "  version \"1.0\"".toList]).IsBlock
      "  resource \"bar\" do".toList
      ["    stable do".toList, "      version \"2.0\"".toList, "    end".toList]
      "  end".toList :=
    { opens := ⟨.resource, "\"bar\"".toList, [], by decide +kernel, by decide⟩
      stays := by decide +kernel
      stack_eq := by decide +kernel
      reading := by decide +kernel
      closes := by decide +kernel }
  exact ofText_insert htext (by decide +kernel) (by decide +kernel) hblock (by decide +kernel)
    (by decide +kernel)

end TapAudit.Snapshot
