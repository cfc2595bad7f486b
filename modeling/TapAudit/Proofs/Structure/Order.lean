import Mathlib.Data.List.Forall2
import Mathlib.Tactic.Common
import TapAudit.Structure.Order

/-!
# Which declarations come too late

A declaration that has a tier and stands in a scope is counted. One of them comes too late if a
counted declaration of a higher tier stands before it in its scope, and the violation names the
nearest of these. The walk keeps the highest tier of each scope and raises it only by declarations
in order; the invariant that carries the proof (`Tracks`) is that this still is the maximum over all
declarations seen in the scope, so the search for an earlier one is made only when there is one.

- `addTo_found`, `of?_addTo`: what adding a declaration does to the scopes.
- `Tracks.step`: every declaration keeps the invariant and gives the violation that it should.
- `tracks_take`: what holds after any number of declarations.
- `violations_nearest`: **the violations are the declarations that come too late, in order, each
  with the nearest declaration before it that should have come after.**
-/

namespace TapAudit.Structure

variable {all : List Declaration}

/-! ## Counted declarations -/

/-- The declaration at a position is counted: its kind has a tier, and it stands in the class body
or in a variant block of the class body. -/
structure IsCounted (all : List Declaration) (i : Nat) (d : Declaration) (rank : Nat) : Prop where
  get : all[i]? = some d
  rank_eq : rank? d.kind = some rank
  scope : d.parent = none ∨ ∃ p block, d.parent = some p ∧ all[p]? = some block ∧
    block.kind ∈ [Kind.stableBlock, .develBlock, .headBlock] ∧ block.parent = none

/-- Position `i` comes before position `j` in one scope and holds a higher tier. -/
def IsAbove (all : List Declaration) (i j : Nat) : Prop :=
  i < j ∧ ∃ d e high low, IsCounted all i d high ∧ IsCounted all j e low ∧
    d.parent = e.parent ∧ low < high

/-- Position `i` is the last before `j` that comes before it in its scope with a higher tier. -/
def IsNearest (all : List Declaration) (i j : Nat) : Prop :=
  IsAbove all i j ∧ ∀ k, i < k → ¬ IsAbove all k j

/-- The tier of a declaration, if it is counted. -/
def order? (all : List Declaration) (d : Declaration) : Option Nat :=
  if isOrdered all d then rank? d.kind else none

theorem isOrdered_iff {d : Declaration} :
    isOrdered all d = true ↔ d.parent = none ∨ ∃ p block, d.parent = some p ∧
      all[p]? = some block ∧ block.kind ∈ [Kind.stableBlock, .develBlock, .headBlock] ∧
        block.parent = none := by
  unfold isOrdered
  cases hparent : d.parent with
  | none => simp
  | some p =>
    cases hblock : all[p]? with
    | none => simp [hblock]
    | some block => simp [hblock, isVariantBlock, Declaration.isTopLevel, or_assoc]

theorem isCounted_iff {i rank : Nat} {d : Declaration} :
    IsCounted all i d rank ↔ all[i]? = some d ∧ order? all d = some rank := by
  unfold order?
  constructor
  · intro h
    rw [if_pos (isOrdered_iff.mpr h.scope)]
    exact ⟨h.get, h.rank_eq⟩
  · rintro ⟨hget, horder⟩
    split at horder
    · next hordered => exact ⟨hget, horder, isOrdered_iff.mp hordered⟩
    · cases horder

/-- What the order sees at a position of a scope. -/
def placed? (all : List Declaration) (block : Option Nat) (i : Nat) :
    Option (Nat × Declaration) :=
  all[i]?.bind fun d => if d.parent = block then (order? all d).map (·, d) else none

theorem placed?_eq_some_iff {block : Option Nat} {i rank : Nat} {d : Declaration} :
    placed? all block i = some (rank, d) ↔ IsCounted all i d rank ∧ d.parent = block := by
  unfold placed?
  rw [isCounted_iff, Option.bind_eq_some_iff]
  constructor
  · rintro ⟨e, hget, h⟩
    split at h
    · next hparent =>
      obtain ⟨r, horder, hpair⟩ := Option.map_eq_some_iff.mp h
      cases hpair
      exact ⟨⟨hget, horder⟩, hparent⟩
    · cases h
  · rintro ⟨⟨hget, horder⟩, hparent⟩
    refine ⟨d, hget, ?_⟩
    rw [if_pos hparent, horder, Option.map_some]

/-- The counted declarations of a scope before a position, latest first. -/
def seenBefore (all : List Declaration) (block : Option Nat) (n : Nat) :
    List (Nat × Declaration) :=
  (List.range n).reverse.filterMap (placed? all block)

theorem seenBefore_succ (block : Option Nat) (n : Nat) :
    seenBefore all block (n + 1) = (placed? all block n).toList ++ seenBefore all block n := by
  unfold seenBefore
  rw [List.range_succ, List.reverse_append, List.reverse_singleton, List.singleton_append,
    List.filterMap_cons]
  cases placed? all block n <;> rfl

/-! ## One scope -/

namespace Scope

/-- The highest tier of what was seen. -/
def top (seen : List (Nat × Declaration)) : Nat :=
  (seen.map Prod.fst).foldr max 0

theorem le_top {seen : List (Nat × Declaration)} {e : Nat × Declaration} (he : e ∈ seen) :
    e.1 ≤ top seen := by
  induction seen with
  | nil => cases he
  | cons first rest ih =>
    show e.1 ≤ max first.1 (top rest)
    rcases List.mem_cons.mp he with rfl | he
    · omega
    · have hle := ih he
      omega

theorem exists_top {seen : List (Nat × Declaration)} {rank : Nat} (h : rank < top seen) :
    ∃ e ∈ seen, rank < e.1 := by
  induction seen with
  | nil => exact absurd h (Nat.not_lt_zero _)
  | cons first rest ih =>
    change rank < max first.1 (top rest) at h
    by_cases hfirst : rank < first.1
    · exact ⟨first, List.mem_cons_self, hfirst⟩
    · obtain ⟨e, he, hrank⟩ := ih (by omega)
      exact ⟨e, List.mem_cons_of_mem _ he, hrank⟩

/-- The scope of a block in which some declarations were seen; none before the first of them. -/
def ofSeen? (block : Option Nat) (seen : List (Nat × Declaration)) : Option Scope :=
  match seen with
  | [] => none
  | _ :: _ => some { block, highest := top seen, seen }

theorem isSome_find? {block : Option Nat} {seen : List (Nat × Declaration)} {s : Scope}
    {rank : Nat} (hs : ofSeen? block seen = some s) (hrank : rank < s.highest) :
    (s.seen.find? (rank < ·.1)).isSome := by
  cases seen with
  | nil => cases hs
  | cons first rest =>
    cases hs
    obtain ⟨e, he, hlt⟩ := exists_top hrank
    rw [List.find?_isSome]
    exact ⟨e, he, decide_eq_true hlt⟩

/-- What a declaration violates, given what was seen before it. -/
def found (seen : List (Nat × Declaration)) (rank : Nat) (d : Declaration) : List Violation :=
  ((seen.find? (rank < ·.1)).map fun e => ⟨e.2, d⟩).toList

theorem add_ofSeen? {block : Option Nat} {seen : List (Nat × Declaration)} {s : Scope} {rank : Nat}
    {d : Declaration} (hs : ofSeen? block seen = some s) :
    (s.add rank d).1 = found seen rank d ∧
      ofSeen? block ((rank, d) :: seen) = some (s.add rank d).2 := by
  cases hseen : seen with
  | nil => rw [hseen] at hs; cases hs
  | cons first rest =>
    have hadd : s = { block, highest := top seen, seen } := by
      rw [hseen] at hs ⊢
      exact (Option.some.inj hs).symm
    have htop : top ((rank, d) :: seen) = max rank (top seen) := rfl
    rw [← hseen, hadd]
    unfold add found
    by_cases hrank : rank < top seen
    · rw [if_pos hrank]
      have hmax : max rank (top seen) = top seen := by omega
      have hsome := isSome_find? hs (show rank < s.highest by rw [hadd]; exact hrank)
      rw [hadd] at hsome
      obtain ⟨e, he⟩ := Option.isSome_iff_exists.mp hsome
      simp only [he]
      exact ⟨rfl, by simp only [ofSeen?, htop, hmax]⟩
    · rw [if_neg hrank]
      have hmax : max rank (top seen) = rank := by omega
      have hnone : seen.find? (rank < ·.1) = none := by
        rw [List.find?_eq_none]
        intro e he
        have hle := le_top he
        simp only [decide_eq_true_eq]
        omega
      rw [hnone]
      exact ⟨rfl, by simp only [ofSeen?, htop, hmax]⟩

/-! ## All scopes -/

/-- The scope of a block among several. -/
def of? (scopes : List Scope) (block : Option Nat) : Option Scope :=
  scopes.find? (·.block == block)

theorem of?_cons (s : Scope) (rest : List Scope) (block : Option Nat) :
    of? (s :: rest) block = if s.block = block then some s else of? rest block := by
  unfold of?
  rw [List.find?_cons]
  by_cases h : s.block = block
  · simp [h]
  · rw [if_neg h, beq_false_of_ne h]

theorem add_block (s : Scope) (rank : Nat) (d : Declaration) :
    (s.add rank d).2.block = s.block := by
  unfold add
  dsimp only
  split
  · split <;> rfl
  · rfl

theorem addTo_found (scopes : List Scope) (rank : Nat) (d : Declaration) :
    (addTo scopes rank d).1 =
      match of? scopes d.parent with
      | none => []
      | some s => (s.add rank d).1 := by
  induction scopes with
  | nil => rfl
  | cons s rest ih =>
    rw [of?_cons, addTo]
    by_cases h : s.block = d.parent
    · rw [if_pos h, if_pos h]
    · rw [if_neg h, if_neg h]
      exact ih

theorem of?_addTo (scopes : List Scope) (rank : Nat) (d : Declaration) (block : Option Nat) :
    of? (addTo scopes rank d).2 block =
      if d.parent = block then
        match of? scopes block with
        | none => some { block, highest := rank, seen := [(rank, d)] }
        | some s => some (s.add rank d).2
      else of? scopes block := by
  induction scopes with
  | nil =>
    by_cases h : d.parent = block
    · simp [addTo, of?, h]
    · simp [addTo, of?, h]
  | cons s rest ih =>
    rw [addTo]
    by_cases h : s.block = d.parent
    · rw [if_pos h, of?_cons, of?_cons, add_block, h]
      by_cases hblock : d.parent = block
      · simp only [if_pos hblock]
      · simp only [if_neg hblock]
    · rw [if_neg h, of?_cons, of?_cons, ih]
      by_cases hblock : s.block = block
      · rw [if_pos hblock, if_pos hblock, if_neg (fun hd => h (hblock.trans hd.symm))]
      · rw [if_neg hblock, if_neg hblock]

end Scope

/-! ## The run -/

/-- What one declaration violates, and the scopes after it. -/
def step (all : List Declaration) (scopes : List Scope) (d : Declaration) :
    List Violation × List Scope :=
  match order? all d with
  | some rank => Scope.addTo scopes rank d
  | none => ([], scopes)

theorem violationsFrom_cons (scopes : List Scope) (d : Declaration) (rest : List Declaration) :
    violationsFrom all scopes (d :: rest) =
      (step all scopes d).1 ++ violationsFrom all (step all scopes d).2 rest := by
  rw [violationsFrom, step, order?]
  cases rank? d.kind with
  | none => simp
  | some rank => cases isOrdered all d <;> simp

/-- The scopes after some declarations. -/
def scopesAfter (all : List Declaration) (scopes : List Scope) (ds : List Declaration) :
    List Scope :=
  ds.foldl (fun scopes d => (step all scopes d).2) scopes

theorem violationsFrom_append (scopes : List Scope) (front back : List Declaration) :
    violationsFrom all scopes (front ++ back) =
      violationsFrom all scopes front ++
        violationsFrom all (scopesAfter all scopes front) back := by
  induction front generalizing scopes with
  | nil => rfl
  | cons d rest ih =>
    rw [List.cons_append, violationsFrom_cons, violationsFrom_cons, ih, List.append_assoc]
    rfl

/-- The scopes hold what was seen before a position, each with the maximum of its tiers. -/
def Tracks (all : List Declaration) (n : Nat) (scopes : List Scope) : Prop :=
  ∀ block, Scope.of? scopes block = Scope.ofSeen? block (seenBefore all block n)

/-- The violation at a position: the last declaration seen in its scope that has a higher tier. -/
def violationAt? (all : List Declaration) (j : Nat) : Option Violation :=
  all[j]?.bind fun d => (order? all d).bind fun rank =>
    ((seenBefore all d.parent j).find? (rank < ·.1)).map fun e => ⟨e.2, d⟩

theorem Tracks.step {n : Nat} {scopes : List Scope} {d : Declaration} (h : Tracks all n scopes)
    (hd : all[n]? = some d) :
    (Structure.step all scopes d).1 = (violationAt? all n).toList ∧
      Tracks all (n + 1) (Structure.step all scopes d).2 := by
  unfold Structure.step violationAt?
  rw [hd, Option.bind_some]
  cases horder : order? all d with
  | none =>
    refine ⟨rfl, fun block => ?_⟩
    have hplaced : placed? all block n = none := by
      simp [placed?, hd, horder]
    rw [seenBefore_succ, hplaced]
    exact h block
  | some rank =>
    have hplaced (block : Option Nat) :
        placed? all block n = if d.parent = block then some (rank, d) else none := by
      simp [placed?, hd, horder]
    constructor
    · show (Scope.addTo scopes rank d).1 = Scope.found (seenBefore all d.parent n) rank d
      rw [Scope.addTo_found]
      have hscope := h d.parent
      cases hs : Scope.of? scopes d.parent with
      | none =>
        rw [hs] at hscope
        cases hseen : seenBefore all d.parent n with
        | nil => rfl
        | cons first rest => rw [hseen] at hscope; cases hscope
      | some s => exact (Scope.add_ofSeen? (hscope.symm.trans hs)).1
    · intro block
      show Scope.of? (Scope.addTo scopes rank d).2 block = _
      rw [Scope.of?_addTo, seenBefore_succ, hplaced]
      by_cases hblock : d.parent = block
      · rw [if_pos hblock, if_pos hblock, Option.toList_some, List.singleton_append]
        have hscope := h block
        cases hs : Scope.of? scopes block with
        | none =>
          rw [hs] at hscope
          cases hseen : seenBefore all block n with
          | nil => simp [Scope.ofSeen?, Scope.top]
          | cons first rest => rw [hseen] at hscope; cases hscope
        | some s => exact (Scope.add_ofSeen? (hscope.symm.trans hs)).2.symm
      · rw [if_neg hblock, if_neg hblock]
        exact h block

/-- After any number of declarations the scopes hold what was seen, and the violations so far are
those at the positions so far. -/
theorem tracks_take {n : Nat} (hn : n ≤ all.length) :
    Tracks all n (scopesAfter all [] (all.take n)) ∧
      violationsFrom all [] (all.take n) = (List.range n).filterMap (violationAt? all) := by
  induction n with
  | zero => exact ⟨fun _ => rfl, rfl⟩
  | succ n ih =>
    obtain ⟨htracks, hfound⟩ := ih (by omega)
    obtain ⟨d, hd⟩ : ∃ d, all[n]? = some d := ⟨all[n], List.getElem?_eq_getElem (by omega)⟩
    obtain ⟨hstep, hnext⟩ := htracks.step hd
    have htake : all.take (n + 1) = all.take n ++ [d] := by
      rw [List.take_add_one, hd, Option.toList_some]
    rw [htake]
    constructor
    · rw [scopesAfter, List.foldl_append]
      exact hnext
    · rw [violationsFrom_append, hfound, violationsFrom_cons, hstep, List.range_succ,
        List.filterMap_append]
      cases h : violationAt? all n <;> simp [h, violationsFrom]

/-! ## Positions -/

theorem find?_reverse_range {p : Nat → Bool} {n i : Nat} :
    (List.range n).reverse.find? p = some i ↔
      i < n ∧ p i = true ∧ ∀ k, i < k → k < n → p k = false := by
  induction n with
  | zero => simp
  | succ n ih =>
    rw [List.range_succ, List.reverse_append, List.reverse_singleton, List.singleton_append,
      List.find?_cons]
    cases hp : p n with
    | true =>
      simp only [Option.some.injEq]
      constructor
      · rintro rfl
        exact ⟨by omega, hp, fun k hk hkn => by omega⟩
      · rintro ⟨hi, -, hlast⟩
        by_contra hne
        have := hlast n (by omega) (by omega)
        rw [hp] at this
        cases this
    | false =>
      simp only [ih]
      constructor
      · rintro ⟨hi, hpi, hlast⟩
        refine ⟨by omega, hpi, fun k hk hkn => ?_⟩
        by_cases hkeq : k = n
        · rw [hkeq, hp]
        · exact hlast k hk (by omega)
      · rintro ⟨hi, hpi, hlast⟩
        have hne : i ≠ n := by
          rintro rfl
          rw [hp] at hpi
          cases hpi
        exact ⟨by omega, hpi, fun k hk hkn => hlast k hk (by omega)⟩

/-- The last position before `j` that holds a higher tier in its scope. -/
def nearest? (all : List Declaration) (j : Nat) : Option Nat :=
  all[j]?.bind fun d => (order? all d).bind fun rank =>
    (List.range j).reverse.find? fun i => (placed? all d.parent i).any (rank < ·.1)

theorem nearest?_eq_some_iff {i j : Nat} : nearest? all j = some i ↔ IsNearest all i j := by
  -- `i` is seen from `j`, given what stands at `j`
  have habove {e : Declaration} {low k : Nat} (he : IsCounted all j e low) (hk : k < j) :
      (placed? all e.parent k).any (low < ·.1) = true ↔ IsAbove all k j := by
    rw [Option.any_eq_true]
    constructor
    · rintro ⟨⟨high, d⟩, hplaced, hlt⟩
      obtain ⟨hd, hparent⟩ := placed?_eq_some_iff.mp hplaced
      exact ⟨hk, d, e, high, low, hd, he, hparent, of_decide_eq_true hlt⟩
    · rintro ⟨-, d, e', high, low', hd, he', hparent, hlt⟩
      obtain ⟨hget, horder⟩ := isCounted_iff.mp he
      obtain ⟨hget', horder'⟩ := isCounted_iff.mp he'
      cases hget.symm.trans hget'
      cases horder.symm.trans horder'
      exact ⟨(high, d), placed?_eq_some_iff.mpr ⟨hd, hparent⟩, decide_eq_true hlt⟩
  unfold nearest?
  constructor
  · intro h
    obtain ⟨e, hget, h⟩ := Option.bind_eq_some_iff.mp h
    obtain ⟨low, horder, h⟩ := Option.bind_eq_some_iff.mp h
    have he := isCounted_iff.mpr ⟨hget, horder⟩
    obtain ⟨hi, hany, hlast⟩ := find?_reverse_range.mp h
    refine ⟨(habove he hi).mp hany, fun k hk hkj => ?_⟩
    have hfalse := hlast k hk hkj.1
    rw [(habove he hkj.1).mpr hkj] at hfalse
    cases hfalse
  · rintro ⟨hij, hlast⟩
    obtain ⟨hi, _, e, _, low, _, he, _, _⟩ := id hij
    obtain ⟨hget, horder⟩ := isCounted_iff.mp he
    rw [hget, Option.bind_some, horder, Option.bind_some, find?_reverse_range]
    refine ⟨hi, (habove he hi).mpr hij, fun k hk hkj => ?_⟩
    rw [← Bool.not_eq_true]
    exact fun hany => hlast k hk ((habove he hkj).mp hany)

theorem violationAt?_eq (j : Nat) :
    violationAt? all j = (nearest? all j).bind fun i =>
      all[i]?.bind fun d => all[j]?.map fun e => ⟨d, e⟩ := by
  unfold violationAt? nearest?
  cases hget : all[j]? with
  | none => rfl
  | some e =>
    rw [Option.bind_some, Option.bind_some]
    cases order? all e with
    | none => rfl
    | some low =>
      rw [Option.bind_some, Option.bind_some, seenBefore, List.find?_filterMap]
      cases hfind : (List.range j).reverse.find? fun i =>
          (placed? all e.parent i).any (low < ·.1) with
      | none => rfl
      | some i =>
        obtain ⟨-, hany, -⟩ := find?_reverse_range.mp hfind
        obtain ⟨⟨high, d⟩, hplaced, -⟩ := (Option.any_eq_true _ _).mp hany
        obtain ⟨hd, -⟩ := placed?_eq_some_iff.mp hplaced
        rw [Option.bind_some, Option.bind_some, hplaced, hd.get]
        rfl

/-- Whatever comes too late comes after a nearest declaration that should have come after. -/
theorem exists_isNearest {i j : Nat} (h : IsAbove all i j) : ∃ k, IsNearest all k j := by
  by_contra hnone
  -- without a nearest one, from any position on there would be a later one before `j`
  have hlater (n : Nat) : ∃ k, n ≤ k ∧ IsAbove all k j := by
    induction n with
    | zero => exact ⟨i, Nat.zero_le i, h⟩
    | succ n ih =>
      obtain ⟨k, hk, habove⟩ := ih
      by_contra hlast
      refine hnone ⟨k, habove, fun m hm hmj => hlast ⟨m, by omega, hmj⟩⟩
  obtain ⟨k, hk, habove⟩ := hlater j
  have hlt := habove.1
  omega

/-- The positions of the violations, each after that of its nearest declaration. -/
def latePositions (all : List Declaration) : List (Nat × Nat) :=
  (List.range all.length).filterMap fun j => (nearest? all j).map (·, j)

theorem mem_latePositions_iff {i j : Nat} :
    (i, j) ∈ latePositions all ↔ IsNearest all i j := by
  unfold latePositions
  rw [List.mem_filterMap, ← nearest?_eq_some_iff]
  constructor
  · rintro ⟨k, -, hk⟩
    obtain ⟨m, hm, hpair⟩ := Option.map_eq_some_iff.mp hk
    cases hpair
    exact hm
  · intro h
    obtain ⟨⟨_, _, e, _, _, _, he, _, _⟩, _⟩ := nearest?_eq_some_iff.mp h
    obtain ⟨hj, -⟩ := List.getElem?_eq_some_iff.mp he.get
    exact ⟨j, List.mem_range.mpr hj, by rw [h, Option.map_some]⟩

theorem violations_eq (all : List Declaration) :
    violations all = (List.range all.length).filterMap (violationAt? all) := by
  have h := (@tracks_take all _ (Nat.le_refl _)).2
  rwa [List.take_length] at h

theorem violations_latePositions (all : List Declaration) :
    List.Forall₂ (fun (v : Violation) (p : Nat × Nat) =>
      all[p.1]? = some v.earlier ∧ all[p.2]? = some v.later) (violations all)
      (latePositions all) := by
  rw [violations_eq, latePositions]
  refine List.rel_filterMap (R := Eq) ?_ (List.forall₂_refl _)
  rintro j - rfl
  rw [violationAt?_eq]
  dsimp only
  cases h : nearest? all j with
  | none => exact .none
  | some i =>
    obtain ⟨⟨_, d, e, _, _, hd, he, _, _⟩, _⟩ := nearest?_eq_some_iff.mp h
    rw [Option.bind_some, hd.get, he.get]
    exact Option.Rel.some ⟨hd.get, he.get⟩

/--
**The violations are the declarations that come too late.** In source order there is exactly one for
each counted declaration that has one of a higher tier before it in its scope, and it names the last
of these; none are left exactly if the tiers do not decrease within any scope. Whenever a tier below
the highest of its scope is met, the search for the earlier declaration finds one.
-/
theorem violations_nearest (all : List Declaration) :
    (∃ positions : List (Nat × Nat),
      List.Forall₂ (fun (v : Violation) (p : Nat × Nat) =>
        all[p.1]? = some v.earlier ∧ all[p.2]? = some v.later) (violations all) positions ∧
      positions.Pairwise (fun p q => p.2 < q.2) ∧
      (∀ i j, (i, j) ∈ positions ↔ IsNearest all i j) ∧
      ∀ j, (∃ i, (i, j) ∈ positions) ↔ ∃ i, IsAbove all i j) ∧
    (violations all = [] ↔
      ∀ i j d e r s, i < j → IsCounted all i d r → IsCounted all j e s → d.parent = e.parent →
        r ≤ s) ∧
    ∀ front d back, all = front ++ d :: back → ∀ rank s, order? all d = some rank →
      Scope.of? (scopesAfter all [] front) d.parent = some s → rank < s.highest →
        ∃ earlier, s.seen.find? (rank < ·.1) = some earlier := by
  have hpositions (j : Nat) : (∃ i, (i, j) ∈ latePositions all) ↔ ∃ i, IsAbove all i j := by
    constructor
    · rintro ⟨i, hi⟩
      exact ⟨i, (mem_latePositions_iff.mp hi).1⟩
    · rintro ⟨i, hi⟩
      obtain ⟨k, hk⟩ := exists_isNearest hi
      exact ⟨k, mem_latePositions_iff.mpr hk⟩
  refine ⟨⟨latePositions all, violations_latePositions all, ?_, fun _ _ => mem_latePositions_iff,
    hpositions⟩, ?_, ?_⟩
  · refine List.Pairwise.filterMap _ ?_ List.pairwise_lt_range
    intro j k hjk p hp q hq
    obtain ⟨i, -, rfl⟩ := Option.map_eq_some_iff.mp hp
    obtain ⟨m, -, rfl⟩ := Option.map_eq_some_iff.mp hq
    exact hjk
  · have hempty : violations all = [] ↔ latePositions all = [] := by
      have hlength := (violations_latePositions all).length_eq
      rw [← List.length_eq_zero_iff, ← List.length_eq_zero_iff, hlength]
    rw [hempty]
    constructor
    · intro hnil i j d e r s hij hd he hparent
      by_contra hlt
      obtain ⟨k, hk⟩ := (hpositions j).mpr ⟨i, hij, d, e, r, s, hd, he, hparent, by omega⟩
      rw [hnil] at hk
      cases hk
    · intro hsorted
      rw [List.eq_nil_iff_forall_not_mem]
      rintro ⟨i, j⟩ hmem
      obtain ⟨⟨hij, d, e, r, s, hd, he, hparent, hlt⟩, -⟩ := mem_latePositions_iff.mp hmem
      have hle := hsorted i j d e r s hij hd he hparent
      omega
  · intro front d back hall rank s _ hs hrank
    have htracks := (@tracks_take all front.length (by simp [hall])).1
    have htake : all.take front.length = front := by rw [hall, List.take_left]
    rw [htake] at htracks
    have hscope := (htracks d.parent).symm.trans hs
    exact Option.isSome_iff_exists.mp (Scope.isSome_find? hscope hrank)

/-- Two scopes side by side: each late declaration is told with the nearest one of its own scope. -/
example :
    let stable : Declaration := { kind := .stableBlock, line := 1, opensBlock := true }
    let checksum : Declaration := { kind := .checksum, line := 2, parent := some 0 }
    let mirror : Declaration := { kind := .mirror, line := 3, parent := some 0 }
    let desc : Declaration := { kind := .desc, line := 5 }
    violations [stable, checksum, mirror, desc] = [⟨checksum, mirror⟩, ⟨stable, desc⟩] := by
  decide

end TapAudit.Structure
