import TapAudit.Proofs.Script.Walk

/-!
# Moments of a walk

A walk is taken apart into its moments, the statements it reads, each with the state in which it is
read. What a walk declares is what it declares at its moments (`found_eq_flatMap`), and what every
step keeps holds at every moment and at the end (`IsKept.found`, `IsKept.moment`).

A single step does one of four things: nothing, closing the innermost block, opening the class of
the formula, or making a declaration (`Step`).
-/

namespace TapAudit.Script.Walk

open Text

/-! ## One step -/

/-- What a statement may declare and where it may lead. -/
inductive Step (w : Walk) : List Declaration → Walk → Prop
  | idle : Step w [] w
  | close {frame : Option Nat} {rest : List (Option Nat)} (h : w.stack = frame :: rest) :
      Step w [] { w with stack := rest }
  | openClass (hstack : w.stack = []) (hseen : w.seenClass = false) :
      Step w [] { w with seenClass := true, stack := [none] }
  | declare (kind : Kind) (argument : List Char) (opensBlock : Bool) :
      Step w (w.declare kind argument opensBlock).1 (w.declare kind argument opensBlock).2

theorem step_act (w : Walk) (a : Action) : Step w (w.act a).value.1 (w.act a).value.2 := by
  cases a with
  | close =>
    cases hstack : w.stack with
    | nil => simpa [act, hstack] using Step.idle
    | cons frame rest => simpa [act, hstack] using Step.close hstack
  | openClass header isFormula =>
    rw [act]
    split
    · next h =>
      simp only [Bool.and_eq_true, Bool.not_eq_true', List.isEmpty_iff] at h
      exact .openClass h.1.2 h.1.1
    · exact .declare ..
  | declare kind argument opensBlock => exact .declare ..
  | bareHead => exact .idle
  | skip => exact .idle

theorem Step.line_eq {w w' : Walk} {made : List Declaration} (h : Step w made w') :
    w'.line = w.line := by
  cases h <;> rfl

theorem Step.declared_eq {w w' : Walk} {made : List Declaration} (h : Step w made w') :
    w'.declared = w.declared + made.length := by
  cases h <;> rfl

theorem Step.stopped_eq {w w' : Walk} {made : List Declaration} (h : Step w made w') :
    w'.stopped = w.stopped := by
  cases h <;> rfl

theorem Step.of_mem {w w' : Walk} {made : List Declaration} {d : Declaration}
    (h : Step w made w') (hd : d ∈ made) : d.line = w.line ∧ d.parent = w.parent := by
  cases h with
  | idle => cases hd
  | close => cases hd
  | openClass => cases hd
  | declare =>
    rw [List.mem_singleton.mp hd]
    exact ⟨rfl, rfl⟩

/-! ## Lines -/

/-- The next line is looked at. -/
def IsReading (w : Walk) : Prop :=
  w.stopped = false ∧ w.heredoc = none

instance (w : Walk) : Decidable w.IsReading :=
  inferInstanceAs (Decidable (_ ∧ _))

/-- The line marks the start of the inline data. -/
def IsMarker (raw : List Char) : Prop :=
  strip raw = "__END__".toList

instance (raw : List Char) : Decidable (IsMarker raw) :=
  inferInstanceAs (Decidable (_ = _))

/-- The terminator of the heredoc that a line opens, if it is read. A line that is blank or only a
comment opens none. -/
def opened? (raw : List Char) : Option (List Char) :=
  if (strip raw).isEmpty || (strip raw).head? == some '#' then none else heredoc? (strip raw)

/-- The state in which the first statement of the next line is read. -/
def nextLine (w : Walk) : Walk :=
  { w with line := w.line + 1 }

theorem statements_of_comment {text : List Char}
    (h : (text.isEmpty || text.head? == some '#') = true) : statements text = [] := by
  cases text with
  | nil => rfl
  | cons c rest =>
    obtain rfl : c = '#' := by simpa using h
    rfl

theorem readLine_reading {w : Walk} {raw : List Char} (hw : w.IsReading) (hraw : ¬ IsMarker raw) :
    (w.readLine raw).value =
      ((w.nextLine.readStatements (statements (strip raw))).value.1,
        { (w.nextLine.readStatements (statements (strip raw))).value.2 with
          heredoc := opened? raw }) := by
  cases hcode : (strip raw).isEmpty || (strip raw).head? == some '#' with
  | false =>
    rw [readLine_code hw.1 hw.2 hraw hcode, opened?, hcode]
    rfl
  | true =>
    have hmarker : strip raw ≠ "__END__".toList := hraw
    rw [readLine, opened?, statements_of_comment hcode]
    simp only [hw.1, hw.2, hcode, if_neg hmarker, if_pos, Bool.false_eq_true, if_false]
    simp [readStatements, nextLine, hw.1]

/-- The state after a line that is not looked at. -/
def passOver (w : Walk) (raw : List Char) : Walk :=
  { w.nextLine with
    heredoc := if w.stopped = false ∧ w.heredoc = some (strip raw) then none else w.heredoc
    stopped := w.stopped || w.heredoc.isNone }

theorem readLine_passedOver {w : Walk} {raw : List Char} (h : ¬ (w.IsReading ∧ ¬ IsMarker raw)) :
    (w.readLine raw).value = ([], w.passOver raw) := by
  rw [readLine, passOver]
  cases hstopped : w.stopped with
  | true => simp [nextLine, hstopped]
  | false =>
    cases hheredoc : w.heredoc with
    | some terminator =>
      by_cases hend : strip raw = terminator
      · simp [nextLine, hstopped, hend]
      · simp [nextLine, hstopped, hheredoc, hend, Ne.symm hend]
    | none =>
      have hmarker : strip raw = "__END__".toList := by
        by_contra hraw
        exact h ⟨⟨hstopped, hheredoc⟩, hraw⟩
      simp [hmarker, nextLine, hheredoc]

/-! ## Runs -/

/-- The declarations made on some lines. -/
def found (w : Walk) (raws : List (List Char)) : List Declaration :=
  (w.readLines raws).value.1

/-- The state after some lines. -/
def after (w : Walk) (raws : List (List Char)) : Walk :=
  (w.readLines raws).value.2

@[simp] theorem found_nil (w : Walk) : w.found [] = [] := rfl

@[simp] theorem after_nil (w : Walk) : w.after [] = w := rfl

theorem found_cons (w : Walk) (raw : List Char) (raws : List (List Char)) :
    w.found (raw :: raws) =
      (w.readLine raw).value.1 ++ (w.readLine raw).value.2.found raws := rfl

theorem after_cons (w : Walk) (raw : List Char) (raws : List (List Char)) :
    w.after (raw :: raws) = (w.readLine raw).value.2.after raws := rfl

theorem found_append (w : Walk) (front back : List (List Char)) :
    w.found (front ++ back) = w.found front ++ (w.after front).found back := by
  rw [found, readLines_append]
  rfl

theorem declarations_value (text : List Char) :
    (declarations text).value = found {} (lines text) := by
  rw [declarations, found]
  simp only [Logged.bind_value]
  split <;> rfl

/-! ## Moments -/

/-- A statement that is read, and the state in which it is. -/
structure Moment where
  walk : Walk
  statement : List Char

/-- What is declared at a moment. -/
def Moment.made (m : Moment) : List Declaration :=
  (m.walk.act (action m.statement)).value.1

/-- The state after a moment. -/
def Moment.next (m : Moment) : Walk :=
  (m.walk.act (action m.statement)).value.2

theorem step_moment (w : Walk) (statement : List Char) :
    w.Step (Moment.made ⟨w, statement⟩) (Moment.next ⟨w, statement⟩) :=
  step_act ..

def momentsOfStatements (w : Walk) : List (List Char) → List Moment
  | [] => []
  | statement :: rest =>
    ⟨w, statement⟩ :: (Moment.next ⟨w, statement⟩).momentsOfStatements rest

def momentsOfLine (w : Walk) (raw : List Char) : List Moment :=
  if w.IsReading ∧ ¬ IsMarker raw then w.nextLine.momentsOfStatements (statements (strip raw))
  else []

/-- The moments of a walk over some lines. -/
def moments (w : Walk) : List (List Char) → List Moment
  | [] => []
  | raw :: rest => w.momentsOfLine raw ++ (w.readLine raw).value.2.moments rest

theorem readStatements_cons (w : Walk) (statement : List Char) (rest : List (List Char)) :
    (w.readStatements (statement :: rest)).value =
      (Moment.made ⟨w, statement⟩ ++
          ((Moment.next ⟨w, statement⟩).readStatements rest).value.1,
        ((Moment.next ⟨w, statement⟩).readStatements rest).value.2) := rfl

theorem line_readStatements (w : Walk) (statements : List (List Char)) :
    (w.readStatements statements).value.2.line = w.line := by
  induction statements generalizing w with
  | nil => rfl
  | cons statement rest ih =>
    rw [readStatements_cons, ih]
    exact (step_moment w statement).line_eq

theorem stopped_readStatements (w : Walk) (statements : List (List Char)) :
    (w.readStatements statements).value.2.stopped = w.stopped := by
  induction statements generalizing w with
  | nil => rfl
  | cons statement rest ih =>
    rw [readStatements_cons, ih]
    exact (step_moment w statement).stopped_eq

theorem readStatements_eq_flatMap (w : Walk) (statements : List (List Char)) :
    (w.readStatements statements).value.1 =
      (w.momentsOfStatements statements).flatMap Moment.made := by
  induction statements generalizing w with
  | nil => rfl
  | cons statement rest ih =>
    rw [readStatements_cons, momentsOfStatements, List.flatMap_cons, ih]

theorem readLine_eq_flatMap (w : Walk) (raw : List Char) :
    (w.readLine raw).value.1 = (w.momentsOfLine raw).flatMap Moment.made := by
  by_cases h : w.IsReading ∧ ¬ IsMarker raw
  · rw [readLine_reading h.1 h.2, momentsOfLine, if_pos h, readStatements_eq_flatMap]
  · rw [readLine_passedOver h, momentsOfLine, if_neg h]
    rfl

theorem line_readLine (w : Walk) (raw : List Char) :
    (w.readLine raw).value.2.line = w.line + 1 := by
  by_cases h : w.IsReading ∧ ¬ IsMarker raw
  · rw [readLine_reading h.1 h.2]
    exact line_readStatements ..
  · rw [readLine_passedOver h]
    rfl

theorem line_after (w : Walk) (raws : List (List Char)) :
    (w.after raws).line = w.line + raws.length := by
  induction raws generalizing w with
  | nil => rfl
  | cons raw raws ih =>
    rw [after_cons, ih, line_readLine, List.length_cons]
    omega

theorem line_of_mem_readStatements {w : Walk} {statements : List (List Char)} {d : Declaration}
    (h : d ∈ (w.readStatements statements).value.1) : d.line = w.line := by
  induction statements generalizing w with
  | nil => cases h
  | cons statement rest ih =>
    have hstep := step_moment w statement
    rw [readStatements_cons] at h
    rcases List.mem_append.mp h with h | h
    · exact (hstep.of_mem h).1
    · rw [ih h, hstep.line_eq]

theorem line_of_mem_readLine {w : Walk} {raw : List Char} {d : Declaration}
    (h : d ∈ (w.readLine raw).value.1) : d.line = w.line + 1 := by
  by_cases hread : w.IsReading ∧ ¬ IsMarker raw
  · rw [readLine_reading hread.1 hread.2] at h
    exact line_of_mem_readStatements h
  · rw [readLine_passedOver hread] at h
    cases h

theorem line_of_mem_found {w : Walk} {raws : List (List Char)} {d : Declaration}
    (h : d ∈ w.found raws) : w.line < d.line := by
  induction raws generalizing w with
  | nil => cases h
  | cons raw raws ih =>
    rw [found_cons] at h
    rcases List.mem_append.mp h with h | h
    · have hline := line_of_mem_readLine h
      omega
    · have hline := ih h
      rw [line_readLine] at hline
      omega

theorem found_eq_flatMap (w : Walk) (raws : List (List Char)) :
    w.found raws = (w.moments raws).flatMap Moment.made := by
  induction raws generalizing w with
  | nil => rfl
  | cons raw raws ih =>
    rw [found_cons, moments, List.flatMap_append, readLine_eq_flatMap, ih]

/-! ## What steps keep -/

/-- Every step at one of these moments keeps a property of a state and of all that has been declared
before it. -/
def IsKeptAt (P : List Declaration → Walk → Prop) (ms : List Moment) : Prop :=
  ∀ m ∈ ms, ∀ before, 0 < m.walk.line → P before m.walk → P (before ++ m.made) m.next

/-- The property does not depend on what else a state knows than lines, declarations and blocks. -/
def IsMovable (P : List Declaration → Walk → Prop) : Prop :=
  ∀ (before : List Declaration) (w : Walk) (line : Nat) (heredoc : Option (List Char))
    (stopped : Bool), w.line ≤ line → P before w → P before { w with line, heredoc, stopped }

section

variable {P : List Declaration → Walk → Prop} {before : List Declaration} {w : Walk}

theorem IsMovable.nextLine (h : IsMovable P) (hw : P before w) : P before w.nextLine :=
  h before w (w.line + 1) w.heredoc w.stopped (Nat.le_succ _) hw

theorem kept_readStatements {statements : List (List Char)}
    (hstep : IsKeptAt P (w.momentsOfStatements statements)) (hw : P before w) (hline : 0 < w.line) :
    P (before ++ (w.readStatements statements).value.1) (w.readStatements statements).value.2 := by
  induction statements generalizing before w with
  | nil => simpa [readStatements] using hw
  | cons statement rest ih =>
    obtain ⟨hfirst, hrest⟩ := List.forall_mem_cons.mp hstep
    have hline' := (step_moment w statement).line_eq
    have hnext := ih hrest (hfirst before hline hw) (hline' ▸ hline)
    rwa [List.append_assoc] at hnext

theorem kept_readLine (hmove : IsMovable P) {raw : List Char}
    (hstep : IsKeptAt P (w.momentsOfLine raw)) (hw : P before w) :
    P (before ++ (w.readLine raw).value.1) (w.readLine raw).value.2 := by
  by_cases hread : w.IsReading ∧ ¬ IsMarker raw
  · rw [momentsOfLine, if_pos hread] at hstep
    rw [readLine_reading hread.1 hread.2]
    have hread := kept_readStatements hstep (hmove.nextLine hw) (Nat.succ_pos _)
    exact hmove _ _ _ _ _ (le_refl _) hread
  · rw [readLine_passedOver hread, List.append_nil]
    exact hmove before w.nextLine _ _ _ (le_refl _) (hmove.nextLine hw)

theorem kept_found (hmove : IsMovable P) {raws : List (List Char)}
    (hstep : IsKeptAt P (w.moments raws)) (hw : P before w) :
    P (before ++ w.found raws) (w.after raws) := by
  induction raws generalizing before w with
  | nil => simpa using hw
  | cons raw raws ih =>
    obtain ⟨hfirst, hrest⟩ := List.forall_mem_append.mp hstep
    rw [found_cons, after_cons, ← List.append_assoc]
    exact ih hrest (kept_readLine hmove hfirst hw)

end

/-- A property that every step keeps, wherever it is made. -/
structure IsKept (P : List Declaration → Walk → Prop) : Prop where
  step : ∀ {before made : List Declaration} {w w' : Walk}, 0 < w.line → P before w →
    Step w made w' → P (before ++ made) w'
  move : IsMovable P

namespace IsKept

variable {P : List Declaration → Walk → Prop} {before : List Declaration} {w : Walk}

theorem keptAt (h : IsKept P) (ms : List Moment) : IsKeptAt P ms :=
  fun m _ _ hline hw => h.step hline hw (step_moment m.walk m.statement)

theorem found (h : IsKept P) (hw : P before w) (raws : List (List Char)) :
    P (before ++ w.found raws) (w.after raws) :=
  kept_found h.move (h.keptAt _) hw

theorem momentOfStatements (h : IsKept P) (hw : P before w) (hline : 0 < w.line)
    {statements : List (List Char)} {m : Moment} (hm : m ∈ w.momentsOfStatements statements) :
    ∃ made rest, (w.readStatements statements).value.1 = made ++ rest ∧
      P (before ++ made) m.walk := by
  induction statements generalizing before w with
  | nil => cases hm
  | cons statement statements ih =>
    rcases List.mem_cons.mp hm with rfl | hm
    · exact ⟨[], _, rfl, by simpa using hw⟩
    · have hstep := step_moment w statement
      obtain ⟨made, rest, hmade, hP⟩ :=
        ih (h.step hline hw hstep) (hstep.line_eq ▸ hline) hm
      refine ⟨Moment.made ⟨w, statement⟩ ++ made, rest, ?_, ?_⟩
      · rw [readStatements_cons, hmade, List.append_assoc]
      · rwa [← List.append_assoc]

/-- What every step keeps holds at every moment of a run, for the declarations made before it. -/
theorem moment (h : IsKept P) (hw : P before w) {raws : List (List Char)} {m : Moment}
    (hm : m ∈ w.moments raws) :
    ∃ made rest, w.found raws = made ++ rest ∧ P (before ++ made) m.walk := by
  induction raws generalizing before w with
  | nil => cases hm
  | cons raw raws ih =>
    rw [found_cons]
    rcases List.mem_append.mp hm with hm | hm
    · rw [momentsOfLine] at hm
      split at hm
      · next hread =>
        obtain ⟨made, rest, hmade, hP⟩ :=
          h.momentOfStatements (h.move.nextLine hw) (Nat.succ_pos _) hm
        rw [readLine_reading hread.1 hread.2, hmade, List.append_assoc]
        exact ⟨made, _, rfl, hP⟩
      · cases hm
    · obtain ⟨made, rest, hmade, hP⟩ := ih (kept_readLine h.move (h.keptAt _) hw) hm
      refine ⟨(w.readLine raw).value.1 ++ made, rest, ?_, ?_⟩
      · rw [hmade, List.append_assoc]
      · rwa [← List.append_assoc]

end IsKept

/-! ## Counting -/

theorem isKept_declared (n : Nat) : IsKept fun before w => w.declared = n + before.length where
  step := by
    intro before made w w' _ h hstep
    rw [hstep.declared_eq, h, List.length_append, Nat.add_assoc]
  move := fun _ _ _ _ _ _ h => h

theorem declared_readLine (w : Walk) (raw : List Char) :
    (w.readLine raw).value.2.declared = w.declared + (w.readLine raw).value.1.length := by
  have hkept := isKept_declared w.declared
  have hstart : w.declared = w.declared + ([] : List Declaration).length := rfl
  simpa using kept_readLine hkept.move (hkept.keptAt (w.momentsOfLine raw)) hstart

end TapAudit.Script.Walk
