import TapAudit.Proofs.Script.Action
import TapAudit.Proofs.Script.Nesting

/-!
# Inserting a block

A block that is inserted between two lines of a script leaves everything after it as it was, but for
the positions and the lines (`declarations_insert`). The walk over what follows is the same walk,
renumbered (`Walk.renumbered`): lines and positions from the insertion on are moved up, and the open
blocks, all of them opened before, stay where they are.

Inside the block nothing stands in the class body: every declaration in it has the opening one, or
another declaration of the block, as its parent (`IsInside`).
-/

namespace TapAudit.Script

open Text

/-! ## Renumbering -/

/-- Where a position is found after `count` declarations have been put in front of position
`start`. -/
def later (start count i : Nat) : Nat :=
  if i < start then i else i + count

theorem later_of_lt {start count i : Nat} (h : i < start) : later start count i = i :=
  if_pos h

theorem later_of_le {start count i : Nat} (h : start ≤ i) : later start count i = i + count :=
  if_neg (Nat.not_lt.mpr h)

/-- How many declarations and lines are put in, and the position where that is done. -/
structure Shift where
  start : Nat
  count : Nat
  lines : Nat

/-- A declaration that comes after the inserted ones. -/
def Shift.declaration (s : Shift) (d : Declaration) : Declaration :=
  { d with line := d.line + s.lines, parent := d.parent.map (later s.start s.count) }

namespace Walk

/-- A state after the inserted declarations. -/
def renumbered (w : Walk) (s : Shift) : Walk :=
  { w with
    line := w.line + s.lines
    declared := w.declared + s.count
    stack := w.stack.map (Option.map (later s.start s.count)) }

variable {w : Walk} {s : Shift}

theorem parent_renumbered : (w.renumbered s).parent = w.parent.map (later s.start s.count) := by
  cases h : w.stack with
  | nil => simp [parent, renumbered, h]
  | cons frame rest => cases frame <;> simp [parent, renumbered, h]

theorem declare_renumbered (h : s.start ≤ w.declared) (kind : Kind) (argument : List Char)
    (opensBlock : Bool) :
    (w.renumbered s).declare kind argument opensBlock =
      ((w.declare kind argument opensBlock).1.map s.declaration,
        (w.declare kind argument opensBlock).2.renumbered s) := by
  have hlater : later s.start s.count w.declared = w.declared + s.count := later_of_le h
  simp only [declare, parent_renumbered]
  cases opensBlock <;> simp [renumbered, Shift.declaration, hlater, Nat.add_right_comm]

theorem act_renumbered (h : s.start ≤ w.declared) (a : Action) :
    ((w.renumbered s).act a).value =
      ((w.act a).value.1.map s.declaration, (w.act a).value.2.renumbered s) := by
  cases a with
  | close =>
    cases hstack : w.stack with
    | nil => simp [act, renumbered, hstack]
    | cons frame rest => simp [act, renumbered, hstack]
  | openClass header isFormula =>
    have hempty : (w.renumbered s).stack.isEmpty = w.stack.isEmpty := by
      cases hstack : w.stack <;> simp [renumbered, hstack]
    have hseen : (w.renumbered s).seenClass = w.seenClass := rfl
    simp only [act, hempty, hseen]
    split
    · rfl
    · simp only [declare_renumbered h]
      rfl
  | declare kind argument opensBlock =>
    simp only [act, declare_renumbered h]
    rfl
  | bareHead => rfl
  | skip => rfl

theorem readStatements_renumbered (h : s.start ≤ w.declared) (statements : List (List Char)) :
    ((w.renumbered s).readStatements statements).value =
      ((w.readStatements statements).value.1.map s.declaration,
        (w.readStatements statements).value.2.renumbered s) := by
  induction statements generalizing w with
  | nil => rfl
  | cons statement rest ih =>
    have hnext : s.start ≤ (Moment.next ⟨w, statement⟩).declared := by
      rw [(step_moment w statement).declared_eq]
      omega
    have hact := act_renumbered h (action statement)
    have hmade : Moment.made ⟨w.renumbered s, statement⟩ =
        (Moment.made ⟨w, statement⟩).map s.declaration := congrArg Prod.fst hact
    have hrest : Moment.next ⟨w.renumbered s, statement⟩ =
        (Moment.next ⟨w, statement⟩).renumbered s := congrArg Prod.snd hact
    rw [readStatements_cons, readStatements_cons, hmade, hrest, ih hnext, List.map_append]

theorem readLine_renumbered (h : s.start ≤ w.declared) (raw : List Char) :
    ((w.renumbered s).readLine raw).value =
      ((w.readLine raw).value.1.map s.declaration, (w.readLine raw).value.2.renumbered s) := by
  by_cases hread : w.IsReading ∧ ¬ IsMarker raw
  · have hnext : (w.renumbered s).nextLine = w.nextLine.renumbered s := by
      simp [nextLine, renumbered, Nat.add_right_comm]
    have hreading : (w.renumbered s).IsReading := hread.1
    have hstatements := readStatements_renumbered (w := w.nextLine) h (statements (strip raw))
    rw [readLine_reading hreading hread.2, readLine_reading hread.1 hread.2, hnext, hstatements]
    rfl
  · have hpassed : ¬ ((w.renumbered s).IsReading ∧ ¬ IsMarker raw) := hread
    have hpassOver : (w.renumbered s).passOver raw = (w.passOver raw).renumbered s := by
      simp only [passOver, nextLine, renumbered, Nat.add_right_comm]
      rfl
    rw [readLine_passedOver hpassed, readLine_passedOver hread, hpassOver, List.map_nil]

/-- A walk over further lines is the same, renumbered. -/
theorem found_renumbered (h : s.start ≤ w.declared) (raws : List (List Char)) :
    (w.renumbered s).found raws = (w.found raws).map s.declaration := by
  induction raws generalizing w with
  | nil => rfl
  | cons raw raws ih =>
    have hnext : s.start ≤ (w.readLine raw).value.2.declared := by
      rw [declared_readLine]
      omega
    rw [found_cons, found_cons, readLine_renumbered h, ih hnext, List.map_append]

/-! ## Inside a block -/

/-- What holds inside a block, given what has been declared in it: its frame is on the stack, and
above it are frames of the block only. -/
structure IsInside (start : Nat) (outer : List (Option Nat)) (seenClass : Bool)
    (before : List Declaration) (w : Walk) : Prop where
  declared_eq : w.declared = start + 1 + before.length
  seenClass_eq : w.seenClass = seenClass
  frames : ∃ inner : List Nat, w.stack = inner.map some ++ some start :: outer ∧
    ∀ p ∈ inner, start < p ∧ p < w.declared
  parents : ∀ d ∈ before, ∃ p, d.parent = some p ∧ start ≤ p ∧ p < w.declared

variable {start : Nat} {outer : List (Option Nat)} {seenClass : Bool} {before : List Declaration}

theorem IsInside.exists_parent (h : IsInside start outer seenClass before w) :
    ∃ p, w.parent = some p ∧ start ≤ p ∧ p < w.declared := by
  obtain ⟨hdeclared, -, ⟨inner, hstack, hinner⟩, -⟩ := h
  cases inner with
  | nil =>
    refine ⟨start, ?_, le_refl _, by omega⟩
    simp [parent, hstack]
  | cons p inner =>
    have hp := hinner p List.mem_cons_self
    refine ⟨p, ?_, by omega, hp.2⟩
    simp [parent, hstack]

theorem IsInside.step {made : List Declaration} {w' : Walk}
    (h : IsInside start outer seenClass before w) (hstep : Step w made w')
    (hstays : some start :: outer <:+ w'.stack) :
    IsInside start outer seenClass (before ++ made) w' := by
  have hparent := h.exists_parent
  obtain ⟨hdeclared, hseen, ⟨inner, hstack, hinner⟩, hparents⟩ := h
  cases hstep with
  | idle =>
    rw [List.append_nil]
    exact ⟨hdeclared, hseen, ⟨inner, hstack, hinner⟩, hparents⟩
  | close hframe =>
    rw [List.append_nil]
    rw [hstack] at hframe
    cases inner with
    | nil =>
      -- The frame of the block itself would be gone.
      obtain ⟨-, rfl⟩ := List.cons.inj hframe
      have hlength : (some start :: outer).length ≤ outer.length := hstays.length_le
      rw [List.length_cons] at hlength
      omega
    | cons p inner =>
      obtain ⟨-, rfl⟩ := List.cons.inj hframe
      exact ⟨hdeclared, hseen, ⟨inner, rfl, fun q hq => hinner q (List.mem_cons_of_mem p hq)⟩,
        hparents⟩
  | openClass hempty =>
    rw [hempty] at hstack
    simp at hstack
  | declare kind argument opensBlock =>
    have hdeclared' : w.declared + 1 = start + 1 + (before ++ (w.declare kind argument
        opensBlock).1).length := by
      rw [hdeclared, List.length_append]
      rfl
    have hparents' : ∀ d ∈ before ++ (w.declare kind argument opensBlock).1,
        ∃ p, d.parent = some p ∧ start ≤ p ∧ p < w.declared + 1 := by
      intro d hd
      rcases List.mem_append.mp hd with hd | hd
      · obtain ⟨p, hp, hlow, hhigh⟩ := hparents d hd
        exact ⟨p, hp, hlow, by omega⟩
      · obtain ⟨p, hp, hlow, hhigh⟩ := hparent
        rw [List.mem_singleton.mp hd]
        exact ⟨p, hp, hlow, by omega⟩
    have hinner' : ∀ p ∈ inner, start < p ∧ p < w.declared + 1 := by
      intro p hp
      have hp := hinner p hp
      omega
    cases opensBlock with
    | false => exact ⟨hdeclared', hseen, ⟨inner, hstack, hinner'⟩, hparents'⟩
    | true =>
      refine ⟨hdeclared', hseen, ⟨w.declared :: inner, ?_, ?_⟩, hparents'⟩
      · simp [declare, hstack]
      · intro p hp
        rcases List.mem_cons.mp hp with rfl | hp
        · exact ⟨by omega, Nat.lt_succ_self _⟩
        · exact hinner' p hp

theorem isMovable_isInside : IsMovable (IsInside start outer seenClass) :=
  fun _ _ _ _ _ _ h => ⟨h.declared_eq, h.seenClass_eq, h.frames, h.parents⟩

/-! ## Blocks -/

/-- What the statements of a line do. -/
def actions (raw : List Char) : List Action :=
  (statements raw).map action

theorem actions_marker {raw : List Char} (h : IsMarker raw) : actions raw = [.skip] := by
  have hstatements : statements "__END__".toList = ["__END__".toList] := by decide
  have hcode : blankLiterals "__END__".toList = "__END__".toList :=
    blankLiterals_of_unquoted (of_isUnquoted (by decide))
  have haction : action "__END__".toList = .skip := by
    simp only [action, hcode]
    decide
  rw [actions, ← statements_strip, h, hstatements, List.map_singleton, haction]

theorem exists_first {raw : List Char} {a : Action} {rest : List Action}
    (h : actions raw = a :: rest) (ha : a ≠ .skip) :
    ¬ IsMarker raw ∧ ∃ statement others, statements (strip raw) = statement :: others ∧
      action statement = a ∧ others.map action = rest := by
  constructor
  · intro hmarker
    rw [actions_marker hmarker] at h
    exact ha (List.cons.inj h).1.symm
  · rw [statements_strip]
    exact List.map_eq_cons_iff.mp h

theorem readLine_ending {raw : List Char} {frame : Option Nat} {rest : List (Option Nat)}
    (hw : w.IsReading) (h : actions raw = [.close]) (hstack : w.stack = frame :: rest) :
    (w.readLine raw).value =
      ([], { w with line := w.line + 1, stack := rest, heredoc := opened? raw }) := by
  obtain ⟨hraw, statement, others, hstatements, haction, hothers⟩ := exists_first h (by simp)
  rw [readLine_reading hw hraw, hstatements, List.map_eq_nil_iff.mp hothers,
    readStatements_singleton, haction]
  simp [act, nextLine, hstack]

/-- Some lines that, read from a state on, make up a block: a line whose first statement opens it,
lines that leave its frame on the stack, and nothing above it in the end, and a line that closes
it. -/
structure IsBlock (w : Walk) (opener : List Char) (inner : List (List Char))
    (closing : List Char) : Prop where
  opens : ∃ kind argument rest, actions opener = .declare kind argument true :: rest ∧
    kind ≠ .stableBlock
  stays : ∀ m ∈ (w.moments (opener :: inner)).tail, some w.declared :: w.stack <:+ m.next.stack
  stack_eq : (w.after (opener :: inner)).stack = some w.declared :: w.stack
  reading : (w.after (opener :: inner)).IsReading
  closes : actions closing = [.close] ∧ opened? closing = none

theorem IsBlock.isInside {opener closing : List Char} {inner : List (List Char)}
    (h : w.IsBlock opener inner closing) (hw : w.IsReading) :
    ∃ (d : Declaration) (block : List Declaration), w.found (opener :: inner) = d :: block ∧
      d.kind ∈ openedKinds ∧ d.kind ≠ .stableBlock ∧
      IsInside w.declared w.stack w.seenClass block (w.after (opener :: inner)) := by
  obtain ⟨⟨kind, argument, rest, hopener, hkind⟩, hstays, -, -, -⟩ := h
  obtain ⟨hraw, statement, others, hstatements, haction, -⟩ := exists_first hopener (by simp)
  obtain ⟨m, hm⟩ : ∃ m : Moment, m = ⟨w.nextLine, statement⟩ := ⟨_, rfl⟩
  have hmade : m.made = (w.nextLine.declare kind argument true).1 := by
    rw [hm, Moment.made, haction]
    rfl
  have hnext : m.next = (w.nextLine.declare kind argument true).2 := by
    rw [hm, Moment.next, haction]
    rfl
  have hfirst : (w.readLine opener).value =
      (m.made ++ (m.next.readStatements others).value.1,
        { (m.next.readStatements others).value.2 with heredoc := opened? opener }) := by
    rw [readLine_reading hw hraw, hstatements, readStatements_cons, hm]
  have hmoments : (w.moments (opener :: inner)).tail =
      m.next.momentsOfStatements others ++ (w.readLine opener).value.2.moments inner := by
    rw [moments, momentsOfLine, if_pos ⟨hw, hraw⟩, hstatements, momentsOfStatements, hm]
    rfl
  rw [hmoments] at hstays
  -- The opening line may go on with further statements, which are inside already.
  have hkept (ms : List Moment) (hms : ∀ m ∈ ms, some w.declared :: w.stack <:+ m.next.stack) :
      IsKeptAt (IsInside w.declared w.stack w.seenClass) ms :=
    fun m hm _ _ hbefore => hbefore.step (step_moment m.walk m.statement) (hms m hm)
  obtain ⟨hothers, hinner⟩ := List.forall_mem_append.mp hstays
  have hstart : IsInside w.declared w.stack w.seenClass [] m.next := by
    rw [hnext]
    exact ⟨rfl, rfl, ⟨[], rfl, by simp⟩, by simp⟩
  have hline : 0 < m.next.line := by
    rw [hnext]
    exact Nat.succ_pos _
  have hrest := kept_readStatements (hkept _ hothers) hstart hline
  have hopened : IsInside w.declared w.stack w.seenClass
      (m.next.readStatements others).value.1 (w.readLine opener).value.2 := by
    rw [hfirst]
    exact isMovable_isInside _ _ _ _ _ (le_refl _) hrest
  refine ⟨{ kind, line := w.line + 1, parent := w.parent, argument, opensBlock := true },
    (m.next.readStatements others).value.1 ++ (w.readLine opener).value.2.found inner, ?_,
    mem_openedKinds haction, hkind, kept_found isMovable_isInside (hkept _ hinner) hopened⟩
  rw [found_cons, congrArg Prod.fst hfirst, hmade, List.append_assoc]
  rfl

theorem map_later_frames {frames : List (Option Nat)} {count : Nat}
    (h : ∀ p, some p ∈ frames → p < start) :
    frames.map (Option.map (later start count)) = frames := by
  refine (List.map_congr_left fun frame hframe => ?_).trans (List.map_id frames)
  cases frame with
  | none => rfl
  | some p => rw [Option.map_some, later_of_lt (h p hframe), id_eq]

/-- A block declares one thing directly where it stands, and leaves the walk as it was but for the
numbers. -/
theorem IsBlock.found {opener closing : List Char} {inner : List (List Char)}
    (h : w.IsBlock opener inner closing) (hw : w.IsReading)
    (hframes : ∀ p, some p ∈ w.stack → p < w.declared) :
    ∃ (d : Declaration) (block : List Declaration),
      d.kind ∈ openedKinds ∧ d.kind ≠ .stableBlock ∧
      (∀ e ∈ block, ∃ p, e.parent = some p ∧ w.declared ≤ p ∧ p < w.declared + 1 + block.length) ∧
      ∀ back, w.found (opener :: (inner ++ closing :: back)) =
        d :: (block ++ (w.found back).map
          (Shift.declaration ⟨w.declared, 1 + block.length, inner.length + 2⟩)) := by
  obtain ⟨d, block, hfound, hkind, hstable, hinside⟩ := h.isInside hw
  obtain ⟨-, -, hstack, hreading, hclosing, hquiet⟩ := h
  have hlast : ((w.after (opener :: inner)).readLine closing).value =
      ([], w.renumbered ⟨w.declared, 1 + block.length, inner.length + 2⟩) := by
    have hline : (w.after (opener :: inner)).line = w.line + (inner.length + 1) := line_after ..
    rw [readLine_ending hreading hclosing hstack, hquiet, hinside.seenClass_eq, hreading.1, hline,
      hinside.declared_eq]
    simp only [renumbered, map_later_frames hframes, hw.1, hw.2, Walk.mk.injEq, Prod.mk.injEq,
      and_true, true_and]
    omega
  refine ⟨d, block, hkind, hstable, fun e he => ?_, fun back => ?_⟩
  · obtain ⟨p, hp, hlow, hhigh⟩ := hinside.parents e he
    exact ⟨p, hp, hlow, hinside.declared_eq ▸ hhigh⟩
  · rw [← List.cons_append, found_append, hfound, found_cons, hlast,
      found_renumbered (le_refl _)]
    rfl

end Walk

/-! ## The declarations of the script -/

/-- The declarations of a script into which a block is put. -/
structure Insertion where
  front : List Declaration
  /-- The declaration that opens the block. -/
  opener : Declaration
  /-- What is declared in the block. -/
  block : List Declaration
  /-- What comes after the block, without it. -/
  back : List Declaration
  /-- How many lines the block has. -/
  lines : Nat
  opener_kind : opener.kind ∈ openedKinds ∧ opener.kind ≠ .stableBlock
  front_parent : ∀ d ∈ front, ∀ p, d.parent = some p → p < front.length
  block_parent : ∀ d ∈ block, ∃ p, d.parent = some p ∧
    front.length ≤ p ∧ p < front.length + 1 + block.length

namespace Insertion

def shift (i : Insertion) : Shift :=
  ⟨i.front.length, 1 + i.block.length, i.lines⟩

/-- The declarations without the block. -/
def original (i : Insertion) : List Declaration :=
  i.front ++ i.back

/-- The declarations with the block. -/
def extended (i : Insertion) : List Declaration :=
  i.front ++ i.opener :: (i.block ++ i.back.map i.shift.declaration)

end Insertion

open Walk

theorem declarations_insert {text text' opener closing : List Char}
    {front inner back : List (List Char)} (htext : lines text = front ++ back)
    (htext' : lines text' = front ++ opener :: (inner ++ closing :: back))
    (hreading : (after {} front).IsReading)
    (hblock : (after {} front).IsBlock opener inner closing) :
    ∃ i : Insertion, i.original = (declarations text).value ∧
      i.extended = (declarations text').value := by
  have hnested := isNested_after front
  have hdeclared := hnested.declared_eq
  have hframes : ∀ p, some p ∈ (after {} front).stack → p < (after {} front).declared := by
    intro p hp
    obtain ⟨blocks, hblocks, hchain, -⟩ := hnested.frames
    rw [hdeclared]
    refine hchain.lt_length ?_
    rcases hblocks with hstack | hstack
    · simpa [hstack] using hp
    · simpa [hstack] using hp
  obtain ⟨d, block, hkind, hstable, hparents, hfound⟩ := hblock.found hreading hframes
  rw [hdeclared] at hparents hfound
  refine ⟨⟨found {} front, d, block, (after {} front).found back, inner.length + 2,
    ⟨hkind, hstable⟩, ?_, hparents⟩, ?_, ?_⟩
  · intro e he p hp
    obtain ⟨j, hj, rfl⟩ := List.mem_iff_getElem.mp he
    have hlt := (hnested.forest.parent (List.getElem?_eq_getElem hj) hp).1
    omega
  · rw [declarations_value, htext, found_append]
    rfl
  · rw [declarations_value, htext', found_append, hfound]
    rfl

end TapAudit.Script
