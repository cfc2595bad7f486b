import TapAudit.Proofs.Script.Moments

/-!
# Nesting

Whatever its text, a script declares a forest listed in preorder: a parent comes before its children
and opens a block, and blocks do not cross. The reason is an invariant of the walk (`IsNested`): the
stack, read from its top, is the chain of parents of the next declaration, with at most the class
body below it, and everything declared since a block was opened stands in that block.

- `IsNested.step`: every step keeps the invariant.
- `declarations_nested`: what follows for the declarations of a script.
-/

namespace TapAudit.Script

open Text

/-! ## Forests -/

/-- The declaration at `i` stands in the block of the one at `p`, at any depth. -/
inductive Within (ds : List Declaration) (p : Nat) : Nat → Prop
  | direct {i : Nat} {d : Declaration} (h : ds[i]? = some d) (hp : d.parent = some p) :
      Within ds p i
  | deeper {i q : Nat} {d : Declaration} (h : ds[i]? = some d) (hq : d.parent = some q)
      (hin : Within ds p q) : Within ds p i

/-- Declarations that form a forest listed in preorder. -/
structure IsForest (ds : List Declaration) : Prop where
  parent : ∀ {j p : Nat} {d : Declaration}, ds[j]? = some d → d.parent = some p →
    p < j ∧ ∃ e, ds[p]? = some e ∧ e.opensBlock = true
  within : ∀ {i j p : Nat} {d : Declaration}, ds[j]? = some d → d.parent = some p →
    p < i → i < j → Within ds p i

/-- Blocks from the innermost outwards, each of them standing directly in the next one. -/
def IsChain (ds : List Declaration) : List Nat → Prop
  | [] => True
  | p :: rest =>
    (∃ d, ds[p]? = some d ∧ d.opensBlock = true ∧ d.parent = rest.head?) ∧ IsChain ds rest

variable {ds more : List Declaration} {p i : Nat} {blocks : List Nat}

theorem getElem?_append_of_eq_some {d : Declaration} (h : ds[i]? = some d) :
    (ds ++ more)[i]? = some d := by
  obtain ⟨hi, rfl⟩ := List.getElem?_eq_some_iff.mp h
  rw [List.getElem?_append_left hi, List.getElem?_eq_getElem hi]

theorem getElem?_of_append {d : Declaration} (h : (ds ++ more)[i]? = some d) (hi : i < ds.length) :
    ds[i]? = some d := by
  rwa [List.getElem?_append_left hi] at h

theorem Within.append (h : Within ds p i) : Within (ds ++ more) p i := by
  induction h with
  | direct h hp => exact .direct (getElem?_append_of_eq_some h) hp
  | deeper h hq _ ih => exact .deeper (getElem?_append_of_eq_some h) hq ih

theorem IsChain.append (h : IsChain ds blocks) : IsChain (ds ++ more) blocks := by
  induction blocks with
  | nil => trivial
  | cons p rest ih =>
    obtain ⟨⟨d, hd, hopens, hparent⟩, hrest⟩ := h
    exact ⟨⟨d, getElem?_append_of_eq_some hd, hopens, hparent⟩, ih hrest⟩

theorem IsChain.tail (h : IsChain ds blocks) : IsChain ds blocks.tail := by
  cases blocks with
  | nil => trivial
  | cons p rest => exact h.2

theorem IsChain.lt_length (h : IsChain ds blocks) (hp : p ∈ blocks) : p < ds.length := by
  induction blocks with
  | nil => cases hp
  | cons q rest ih =>
    rcases List.mem_cons.mp hp with rfl | hp
    · obtain ⟨⟨d, hd, -⟩, -⟩ := h
      exact (List.getElem?_eq_some_iff.mp hd).1
    · exact ih h.2 hp

theorem IsChain.within {d : Declaration} (h : IsChain ds blocks) (hd : ds[i]? = some d)
    (hparent : d.parent = blocks.head?) (hp : p ∈ blocks) : Within ds p i := by
  induction blocks generalizing i d with
  | nil => cases hp
  | cons q rest ih =>
    obtain ⟨⟨e, he, -, heparent⟩, hrest⟩ := h
    rcases List.mem_cons.mp hp with rfl | hp
    · exact .direct hd hparent
    · exact .deeper hd hparent (ih hrest he heparent hp)

/-! ## The stack -/

namespace Walk

/-- The open blocks are these, innermost first, and below them is at most the class body. -/
def HasBlocks (w : Walk) (blocks : List Nat) : Prop :=
  w.stack = blocks.map some ∨ w.stack = blocks.map some ++ [none]

theorem HasBlocks.parent_eq {w : Walk} (h : w.HasBlocks blocks) : w.parent = blocks.head? := by
  rcases h with h | h <;> cases blocks <;> simp [parent, h]

theorem HasBlocks.tail {w : Walk} {frame : Option Nat} {rest : List (Option Nat)}
    (h : w.HasBlocks blocks) (hstack : w.stack = frame :: rest) :
    HasBlocks { w with stack := rest } blocks.tail := by
  rw [HasBlocks, hstack] at h
  cases blocks with
  | nil =>
    rcases h with h | h
    · cases h
    · cases h
      exact .inl rfl
  | cons p blocks =>
    rcases h with h | h
    · cases h
      exact .inl rfl
    · cases h
      exact .inr rfl

theorem HasBlocks.push {w : Walk} (h : w.HasBlocks blocks) (p : Nat) :
    HasBlocks { w with stack := some p :: w.stack } (p :: blocks) := by
  rcases h with h | h
  · exact .inl (by simp [h])
  · exact .inr (by simp [h])

/-! ## The invariant -/

/-- What holds between two statements, given what has been declared. -/
structure IsNested (before : List Declaration) (w : Walk) : Prop where
  declared_eq : w.declared = before.length
  forest : IsForest before
  frames : ∃ blocks, w.HasBlocks blocks ∧ IsChain before blocks ∧
    ∀ p ∈ blocks, ∀ i, p < i → i < before.length → Within before p i

/-- A declaration directly in the innermost open block keeps the forest. -/
theorem isForest_append {before : List Declaration} {d : Declaration} (h : IsForest before)
    (hchain : IsChain before blocks)
    (hwithin : ∀ p ∈ blocks, ∀ i, p < i → i < before.length → Within before p i)
    (hparent : d.parent = blocks.head?) : IsForest (before ++ [d]) := by
  have hnew {j : Nat} {e : Declaration} (hj : (before ++ [d])[j]? = some e)
      (hlt : ¬ j < before.length) : j = before.length ∧ e = d := by
    rw [List.getElem?_append_right (by omega), List.getElem?_singleton] at hj
    split at hj
    · next hzero => exact ⟨by omega, (Option.some.inj hj).symm⟩
    · cases hj
  constructor
  · intro j p e hj hp
    by_cases hlt : j < before.length
    · obtain ⟨hpj, f, hf, hopens⟩ := h.parent (getElem?_of_append hj hlt) hp
      exact ⟨hpj, f, getElem?_append_of_eq_some hf, hopens⟩
    · obtain ⟨rfl, rfl⟩ := hnew hj hlt
      rw [hparent] at hp
      cases blocks with
      | nil => cases hp
      | cons q rest =>
        cases hp
        obtain ⟨⟨f, hf, hopens, -⟩, -⟩ := hchain
        exact ⟨(List.getElem?_eq_some_iff.mp hf).1, f, getElem?_append_of_eq_some hf, hopens⟩
  · intro i j p e hj hp hpi hij
    by_cases hlt : j < before.length
    · exact (h.within (getElem?_of_append hj hlt) hp hpi hij).append
    · obtain ⟨rfl, rfl⟩ := hnew hj hlt
      rw [hparent] at hp
      exact (hwithin p (List.mem_of_mem_head? hp) i hpi hij).append

theorem IsNested.declare {before : List Declaration} {w : Walk} (h : IsNested before w)
    (kind : Kind) (argument : List Char) (opensBlock : Bool) :
    IsNested (before ++ (w.declare kind argument opensBlock).1)
      (w.declare kind argument opensBlock).2 := by
  obtain ⟨hdeclared, hforest, blocks, hblocks, hchain, hwithin⟩ := h
  set d : Declaration := { kind, line := w.line, parent := w.parent, argument, opensBlock } with hd
  have hparent : d.parent = blocks.head? := hblocks.parent_eq
  have hlast : (before ++ [d])[before.length]? = some d := by simp
  have hlength : (before ++ [d]).length = before.length + 1 := by simp
  have hforest' := isForest_append hforest hchain hwithin hparent
  -- The new declaration stands in every open block.
  have hin : ∀ p ∈ blocks, ∀ i, p < i → i < (before ++ [d]).length →
      Within (before ++ [d]) p i := by
    intro p hp i hpi hi
    rw [hlength] at hi
    rcases Nat.lt_or_eq_of_le (Nat.le_of_lt_succ hi) with hlt | rfl
    · exact (hwithin p hp i hpi hlt).append
    · exact hchain.append.within hlast hparent hp
  have hdeclared' : w.declared + 1 = (before ++ [d]).length := by rw [hlength, hdeclared]
  cases opensBlock with
  | false => exact ⟨hdeclared', hforest', blocks, hblocks, hchain.append, hin⟩
  | true =>
    refine ⟨hdeclared', hforest', w.declared :: blocks, hblocks.push _,
      ⟨⟨d, hdeclared ▸ hlast, rfl, hparent⟩, hchain.append⟩, ?_⟩
    intro p hp i hpi hi
    rcases List.mem_cons.mp hp with rfl | hp
    · have hle : i < w.declared + 1 := hdeclared' ▸ hi
      omega
    · exact hin p hp i hpi hi

theorem IsNested.step {before made : List Declaration} {w w' : Walk} (h : IsNested before w)
    (hstep : w.Step made w') : IsNested (before ++ made) w' := by
  cases hstep with
  | idle => rwa [List.append_nil]
  | close hstack =>
    obtain ⟨hdeclared, hforest, blocks, hblocks, hchain, hwithin⟩ := h
    rw [List.append_nil]
    exact ⟨hdeclared, hforest, blocks.tail, hblocks.tail hstack, hchain.tail,
      fun p hp => hwithin p (List.mem_of_mem_tail hp)⟩
  | openClass hstack hseen =>
    rw [List.append_nil]
    exact ⟨h.declared_eq, h.forest, [], .inr rfl, trivial, fun p hp => absurd hp List.not_mem_nil⟩
  | declare kind argument opensBlock => exact h.declare kind argument opensBlock

theorem isKept_isNested : IsKept IsNested where
  step _ h hstep := h.step hstep
  move _ _ _ _ _ _ h := ⟨h.declared_eq, h.forest, h.frames⟩

theorem isNested_start : IsNested [] {} :=
  ⟨rfl, ⟨fun h => by simp at h, fun h => by simp at h⟩, [], .inl rfl, trivial,
    fun p hp => absurd hp List.not_mem_nil⟩

theorem isNested_after (raws : List (List Char)) : IsNested (found {} raws) (after {} raws) := by
  simpa using isKept_isNested.found isNested_start raws

/-! ## Lines -/

/-- The declarations made so far stand in the order of their lines. -/
def IsOrdered (before : List Declaration) (w : Walk) : Prop :=
  (before.Pairwise fun d e => d.line ≤ e.line) ∧ ∀ d ∈ before, 1 ≤ d.line ∧ d.line ≤ w.line

theorem isKept_isOrdered : IsKept IsOrdered where
  step := by
    rintro before made w w' hline ⟨hsorted, hbounds⟩ hstep
    cases hstep with
    | idle => exact ⟨by simpa, by simpa⟩
    | close hstack => exact ⟨by simpa, by simpa⟩
    | openClass hstack hseen => exact ⟨by simpa, by simpa⟩
    | declare kind argument opensBlock =>
      constructor
      · refine List.pairwise_append.mpr ⟨hsorted, List.pairwise_singleton _ _, ?_⟩
        intro d hd e he
        rw [List.mem_singleton.mp he]
        exact (hbounds d hd).2
      · intro d hd
        rcases List.mem_append.mp hd with hd | hd
        · exact hbounds d hd
        · rw [List.mem_singleton.mp hd]
          exact ⟨hline, le_refl _⟩
  move := by
    rintro before w line heredoc stopped hline ⟨hsorted, hbounds⟩
    exact ⟨hsorted, fun d hd => ⟨(hbounds d hd).1, (hbounds d hd).2.trans hline⟩⟩

end Walk

/-! ## The declarations of a script -/

open Walk

/--
**Declarations are nested.** The declarations of any text form a forest listed in preorder, in the
order of their lines. Each is made at a moment at which exactly the blocks of its parents are open,
with at most the class body below them.
-/
theorem declarations_nested (text : List Char) :
    IsForest (declarations text).value ∧
      ((declarations text).value.Pairwise fun d e => d.line ≤ e.line) ∧
      (∀ d ∈ (declarations text).value, 1 ≤ d.line ∧ d.line ≤ (lines text).length) ∧
      (declarations text).value = (moments {} (lines text)).flatMap Moment.made ∧
      ∀ m ∈ moments {} (lines text), ∃ blocks,
        m.walk.HasBlocks blocks ∧ IsChain (declarations text).value blocks ∧
          ∀ d ∈ m.made, d.parent = blocks.head? ∧
            (d.parent = none → m.walk.stack = [] ∨ m.walk.stack = [none]) := by
  rw [declarations_value]
  have hordered : IsOrdered (found {} (lines text)) (after {} (lines text)) := by
    have hstart : IsOrdered [] {} := ⟨List.Pairwise.nil, fun d hd => absurd hd List.not_mem_nil⟩
    simpa using isKept_isOrdered.found hstart (lines text)
  refine ⟨(isNested_after _).forest, hordered.1, ?_, found_eq_flatMap .., fun m hm => ?_⟩
  · have hline := line_after {} (lines text)
    intro d hd
    obtain ⟨hlow, hhigh⟩ := hordered.2 d hd
    refine ⟨hlow, ?_⟩
    simpa [hline] using hhigh
  · obtain ⟨made, rest, hfound, hnested⟩ := isKept_isNested.moment isNested_start hm
    obtain ⟨-, -, blocks, hblocks, hchain, -⟩ := hnested
    rw [List.nil_append] at hchain
    refine ⟨blocks, hblocks, hfound ▸ hchain.append, fun d hd => ?_⟩
    have hparent : d.parent = blocks.head? := by
      rw [← hblocks.parent_eq]
      exact ((step_moment m.walk m.statement).of_mem hd).2
    refine ⟨hparent, fun hnone => ?_⟩
    rw [hparent, List.head?_eq_none_iff] at hnone
    subst hnone
    simpa [HasBlocks] using hblocks

end TapAudit.Script
