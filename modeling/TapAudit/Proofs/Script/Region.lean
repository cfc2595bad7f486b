import TapAudit.Proofs.Script.Moments

/-!
# Regions of a script

Each line of a script lies in its code, in the body of a heredoc, or in the inline data. The region
of a line follows from the lines before it, and it says which other lines could stand in its place
without being noticed: any in the inline data, any but the terminator in a heredoc, and blank lines
and comments for each other in the code.

- `region_after`: the region that a walk is in.
- `readLine_replaced`: one line replaced.
- `readLines_replaced`: several lines replaced.
- `declarations_replaced`: **what is passed over can be replaced without being noticed.**
-/

namespace TapAudit.Script

open Text

/-- The part of a script in which a line lies. -/
inductive Region where
  | code
  /-- The body of the heredoc that ends at `terminator`. -/
  | heredoc (terminator : List Char)
  /-- What follows the line `__END__`. -/
  | data
  deriving DecidableEq, Repr

/-- A blank line or a comment. -/
def IsRemark (raw : List Char) : Prop :=
  strip raw = [] ∨ (strip raw).head? = some '#'

instance (raw : List Char) : Decidable (IsRemark raw) :=
  inferInstanceAs (Decidable (_ ∨ _))

namespace Region

/-- The region behind a line that lies in a region. -/
def next : Region → List Char → Region
  | code, raw =>
    if Walk.IsMarker raw then data
    else
      match Walk.opened? raw with
      | some terminator => heredoc terminator
      | none => code
  | heredoc terminator, raw => if strip raw = terminator then code else heredoc terminator
  | data, _ => data

/-- The region in which a line of a text lies. -/
def ofLine (text : List Char) (k : Nat) : Region :=
  ((lines text).take k).foldl next code

/-- The line `raw'` may stand in place of `raw`. -/
def MayReplace (raw raw' : List Char) : Region → Prop
  | code => IsRemark raw ∧ IsRemark raw'
  | heredoc terminator => strip raw ≠ terminator ∧ strip raw' ≠ terminator
  | data => True

instance (raw raw' : List Char) (region : Region) : Decidable (region.MayReplace raw raw') :=
  match region with
  | code => inferInstanceAs (Decidable (_ ∧ _))
  | heredoc _ => inferInstanceAs (Decidable (_ ∧ _))
  | data => inferInstanceAs (Decidable True)

end Region

namespace Walk

/-- The region of the next line. -/
def region (w : Walk) : Region :=
  if w.stopped then .data
  else
    match w.heredoc with
    | some terminator => .heredoc terminator
    | none => .code

theorem isReading_iff {w : Walk} : w.IsReading ↔ w.region = .code := by
  unfold IsReading region
  cases w.stopped <;> cases w.heredoc <;> simp

/-- A line leads a walk from its region into the next one. -/
theorem region_readLine (w : Walk) (raw : List Char) :
    (w.readLine raw).value.2.region = w.region.next raw := by
  by_cases h : w.IsReading ∧ ¬ IsMarker raw
  · have hstopped := stopped_readStatements w.nextLine (statements (strip raw))
    rw [readLine_reading h.1 h.2, isReading_iff.mp h.1, Region.next, if_neg h.2, region]
    dsimp only
    rw [hstopped, show w.nextLine.stopped = false from h.1.1]
    rfl
  · rw [readLine_passedOver h, passOver, region, region]
    cases hstopped : w.stopped with
    | true => rfl
    | false =>
      cases hheredoc : w.heredoc with
      | some terminator =>
        by_cases hend : strip raw = terminator
        · simp [Region.next, hend]
        · simp [Region.next, hend, Ne.symm hend]
      | none =>
        have hmarker : IsMarker raw := by
          by_contra hraw
          exact h ⟨⟨hstopped, hheredoc⟩, hraw⟩
        simp [Region.next, hmarker]

theorem region_after (w : Walk) (raws : List (List Char)) :
    (w.after raws).region = raws.foldl Region.next w.region := by
  induction raws generalizing w with
  | nil => rfl
  | cons raw raws ih => rw [after_cons, ih, region_readLine, List.foldl_cons]

/-! ## Lines that are passed over -/

theorem readLine_remark {w : Walk} {raw : List Char} (hw : w.IsReading) (h : IsRemark raw) :
    w.readLine raw = pure ([], w.nextLine) := by
  have hcode : ((strip raw).isEmpty || (strip raw).head? == some '#') = true := by
    rcases h with h | h <;> simp [h]
  have hmarker : strip raw ≠ "__END__".toList := by
    intro hraw
    rw [hraw] at hcode
    exact absurd hcode (by decide)
  simp only [readLine, hw.1, hw.2, if_neg hmarker, hcode, if_true, Bool.false_eq_true, if_false,
    nextLine]

theorem readLine_heredoc {w : Walk} {raw terminator : List Char}
    (hw : w.region = .heredoc terminator) (h : strip raw ≠ terminator) :
    w.readLine raw = pure ([], w.nextLine) := by
  unfold region at hw
  cases hstopped : w.stopped with
  | true => simp [hstopped] at hw
  | false =>
    cases hheredoc : w.heredoc with
    | none => simp [hstopped, hheredoc] at hw
    | some terminator' =>
      obtain rfl : terminator' = terminator := by simpa [hstopped, hheredoc] using hw
      simp only [readLine, hstopped, hheredoc, if_neg h, Bool.false_eq_true, if_false, nextLine]

theorem readLine_data {w : Walk} {raw : List Char} (hw : w.region = .data) :
    w.readLine raw = pure ([], w.nextLine) := by
  have hstopped : w.stopped = true := by
    unfold region at hw
    cases hstopped : w.stopped with
    | true => rfl
    | false => cases hheredoc : w.heredoc <;> simp [hstopped, hheredoc] at hw
  simp only [readLine, hstopped, if_true, nextLine]

theorem readLine_replaced {w : Walk} {raw raw' : List Char}
    (h : w.region.MayReplace raw raw') : w.readLine raw' = w.readLine raw := by
  cases hregion : w.region with
  | code =>
    rw [hregion] at h
    have hw := isReading_iff.mpr hregion
    rw [readLine_remark hw h.1, readLine_remark hw h.2]
  | heredoc terminator =>
    rw [hregion] at h
    rw [readLine_heredoc hregion h.1, readLine_heredoc hregion h.2]
  | data => rw [readLine_data hregion, readLine_data hregion]

/-- Lines of which each is kept or may be replaced are not told from what replaces them. The
regions are those of the original lines. -/
theorem readLines_replaced {w : Walk} {raws raws' : List (List Char)}
    (hlength : raws'.length = raws.length)
    (h : ∀ (k : Nat) (raw raw' : List Char), raws[k]? = some raw → raws'[k]? = some raw' →
      raw' = raw ∨ ((raws.take k).foldl Region.next w.region).MayReplace raw raw') :
    w.readLines raws' = w.readLines raws := by
  induction raws generalizing w raws' with
  | nil => rw [List.eq_nil_of_length_eq_zero hlength]
  | cons raw raws ih =>
    cases raws' with
    | nil => cases hlength
    | cons raw' raws' =>
      have hline : w.readLine raw' = w.readLine raw := by
        rcases h 0 raw raw' rfl rfl with rfl | hreplace
        · rfl
        · exact readLine_replaced hreplace
      have hrest : (w.readLine raw).value.2.readLines raws' =
          (w.readLine raw).value.2.readLines raws := by
        refine ih (Nat.succ.inj hlength) fun k line line' hline hline' => ?_
        rw [region_readLine]
        exact h (k + 1) line line' hline hline'
      rw [readLines_cons, readLines_cons, hline]
      ext1
      · simp only [Logged.bind_value, hrest]
      · simp only [Logged.bind_log, hrest]

end Walk

/--
**What is passed over can be replaced without being noticed.** Two texts of equally many lines have
the same declarations, and the same is said about them, if each line is kept or lies in a region in
which it may be replaced.
-/
theorem declarations_replaced {text text' : List Char}
    (hlength : (lines text').length = (lines text).length)
    (h : ∀ (k : Nat) (raw raw' : List Char), (lines text)[k]? = some raw →
      (lines text')[k]? = some raw' → raw' = raw ∨ (Region.ofLine text k).MayReplace raw raw') :
    declarations text' = declarations text := by
  rw [declarations, declarations, Walk.readLines_replaced (w := {}) hlength h]

/-- A script with a comment, the body of a heredoc and inline data. -/
def regionSample : List Char :=
  "# old\ndef plist; <<~EOS\n  a\n  EOS\nend\n__END__\n+a\n".toList

/-- The script with other lines in these places, all of which would be noticed elsewhere. -/
def alteredSample : List Char :=
  "# <<EOF\ndef plist; <<~EOS\n end\n  EOS\nend\n__END__\nhead do\n".toList

theorem declarations_alteredSample : declarations alteredSample = declarations regionSample := by
  refine declarations_replaced (by decide +kernel) fun k raw raw' hraw hraw' => ?_
  have hlines : ∀ k < (lines regionSample).length,
      (lines alteredSample)[k]?.getD [] = (lines regionSample)[k]?.getD [] ∨
        (Region.ofLine regionSample k).MayReplace ((lines regionSample)[k]?.getD [])
          ((lines alteredSample)[k]?.getD []) := by decide +kernel
  have hline := hlines k (List.getElem?_eq_some_iff.mp hraw).1
  rwa [hraw, hraw'] at hline

end TapAudit.Script
