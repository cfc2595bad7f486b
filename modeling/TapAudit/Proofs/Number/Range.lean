import Mathlib.Tactic.Linarith
import Mathlib.Tactic.Ring
import TapAudit.Number.Binary64

/-!
# The range of doubles

Which integers have no finite double next to them: those from half a step above the largest double
on. An integer with `k + 1` binary digits is scaled by `2 ^ (52 - k)`, so only with 1024 digits does
it depend on the rounding.

- `lt_roundDiv_iff`: an odd integer is passed exactly from half a step on.
- `ofInt_infinite_iff`: the integers out of range.
-/

namespace TapAudit.Number

theorem roundDiv_le (n d : Nat) : roundDiv n d ≤ n / d + 1 := by
  unfold roundDiv
  dsimp only
  split_ifs <;> omega

theorem div_le_roundDiv (n d : Nat) : n / d ≤ roundDiv n d := by
  unfold roundDiv
  dsimp only
  split_ifs <;> omega

/-- A tie goes to the even neighbour, so an odd integer is passed from half a step on. -/
theorem lt_roundDiv_iff {n d m : Nat} (hd : 0 < d) (hm : m % 2 = 1) :
    m < roundDiv n d ↔ (2 * m + 1) * d ≤ 2 * n := by
  have hn : d * (n / d) + n % d = n := Nat.div_add_mod n d
  have hr : n % d < d := Nat.mod_lt n hd
  rcases Nat.lt_trichotomy (n / d) m with hlt | heq | hgt
  · have hle := roundDiv_le n d
    have hmul : d * (n / d + 1) ≤ d * m := Nat.mul_le_mul_left d hlt
    rw [Nat.mul_add] at hmul
    have hright : (2 * m + 1) * d = 2 * (d * m) + d := by ring
    constructor
    · intro h
      omega
    · intro h
      omega
  · have hright : (2 * m + 1) * d = 2 * (d * m) + d := by ring
    unfold roundDiv
    dsimp only
    rw [heq] at hn ⊢
    split_ifs <;> omega
  · have hle := div_le_roundDiv n d
    have hmul : d * (m + 1) ≤ d * (n / d) := Nat.mul_le_mul_left d hgt
    rw [Nat.mul_add] at hmul
    have hright : (2 * m + 1) * d = 2 * (d * m) + d := by ring
    constructor
    · intro h
      omega
    · intro h
      omega

namespace Binary64

theorem twoTo_add (i j : Nat) : twoTo (i + j) = twoTo i * twoTo j :=
  Nat.pow_add 2 i j

theorem twoTo_mono {i j : Nat} (h : i ≤ j) : twoTo i ≤ twoTo j :=
  Nat.pow_le_pow_right (by decide) h

theorem twoTo_log2_le {n : Nat} (hn : n ≠ 0) : twoTo n.log2 ≤ n :=
  Nat.log2_self_le hn

theorem lt_twoTo_log2 (n : Nat) : n < twoTo (n.log2 + 1) :=
  Nat.lt_log2_self

/-- Scaling by the power that the binary digits of a number ask for leaves 53 digits or more. -/
theorem not_scaleDown_lt {n : Nat} (hn : n ≠ 0) :
    ¬ (scaleDown n 1 ((n.log2 : Int) - 52)).1 <
      twoTo 52 * (scaleDown n 1 ((n.log2 : Int) - 52)).2 := by
  have hlog := twoTo_log2_le hn
  unfold scaleDown
  by_cases h : 0 ≤ (n.log2 : Int) - 52
  · rw [if_pos h]
    have hexp : 52 + ((n.log2 : Int) - 52).toNat = n.log2 := by omega
    show ¬ n < twoTo 52 * (1 * twoTo ((n.log2 : Int) - 52).toNat)
    rw [Nat.one_mul, ← twoTo_add, hexp]
    omega
  · rw [if_neg h]
    have hexp : n.log2 + (-((n.log2 : Int) - 52)).toNat = 52 := by omega
    show ¬ n * twoTo (-((n.log2 : Int) - 52)).toNat < twoTo 52 * 1
    have hmul := Nat.mul_le_mul_right (twoTo (-((n.log2 : Int) - 52)).toNat) hlog
    rw [← twoTo_add, hexp] at hmul
    omega

/-- The mantissa of an integer before a carry. -/
def mantissa (n : Nat) : Nat :=
  roundDiv (scaleDown n 1 ((n.log2 : Int) - 52)).1 (scaleDown n 1 ((n.log2 : Int) - 52)).2

theorem ofQuotient_one (negative : Bool) {n : Nat} (hn : n ≠ 0) :
    ofQuotient negative n 1 =
      if mantissa n = twoTo 53 then
        if 971 < (n.log2 : Int) - 52 + 1 then .infinite negative
        else .finite negative (twoTo 52) ((n.log2 : Int) - 52 + 1)
      else if 971 < (n.log2 : Int) - 52 then .infinite negative
      else .finite negative (mantissa n) ((n.log2 : Int) - 52) := by
  have hguess : (n.log2 : Int) - (Nat.log2 1 : Nat) - 52 = (n.log2 : Int) - 52 := by
    rw [show Nat.log2 1 = 0 from by decide]
    omega
  have hscale := not_scaleDown_lt hn
  have hmax : max ((n.log2 : Int) - 52) (-1074) = (n.log2 : Int) - 52 := by omega
  unfold ofQuotient mantissa
  rw [if_neg hn]
  simp only [hguess]
  rw [if_neg hscale, hmax]
  split <;> rfl

/-- The least integer out of range: half a step above the largest double, a tie that goes up. -/
def leastTooLarge : Nat :=
  (twoTo 54 - 1) * twoTo 970

theorem leastTooLarge_eq : leastTooLarge = (2 * (twoTo 53 - 1) + 1) * twoTo 970 := by
  have hdouble : twoTo 54 = twoTo 53 * 2 := twoTo_succ 53
  have hpos := twoTo_pos 53
  have hfactor : twoTo 54 - 1 = 2 * (twoTo 53 - 1) + 1 := by omega
  rw [leastTooLarge, hfactor]

theorem twoTo_le_leastTooLarge : twoTo 1023 ≤ leastTooLarge := by
  have hsplit : twoTo 1023 = twoTo 53 * twoTo 970 := twoTo_add 53 970
  have hdouble : twoTo 54 = twoTo 53 * 2 := twoTo_succ 53
  have hpos := twoTo_pos 53
  rw [hsplit, leastTooLarge]
  exact Nat.mul_le_mul_right _ (by omega)

theorem leastTooLarge_le : leastTooLarge ≤ twoTo 1024 := by
  have hsplit : twoTo 1024 = twoTo 54 * twoTo 970 := twoTo_add 54 970
  rw [hsplit, leastTooLarge]
  exact Nat.mul_le_mul_right _ (by omega)

theorem ofQuotient_one_infinite_iff (negative : Bool) (n : Nat) :
    ofQuotient negative n 1 = .infinite negative ↔ leastTooLarge ≤ n := by
  by_cases hn : n = 0
  · subst hn
    constructor
    · intro h
      cases h
    · intro h
      have hpos := twoTo_pos 1023
      have hle := twoTo_le_leastTooLarge
      omega
  · have hlow := twoTo_log2_le hn
    have hhigh := lt_twoTo_log2 n
    rw [ofQuotient_one negative hn]
    rcases Nat.lt_trichotomy n.log2 1023 with h | h | h
    · -- a carry still leaves the largest exponent
      have hn' : n < twoTo 1023 := lt_of_lt_of_le hhigh (twoTo_mono h)
      have hsmall := twoTo_le_leastTooLarge
      have h1 : ¬ 971 < (n.log2 : Int) - 52 + 1 := by omega
      have h2 : ¬ 971 < (n.log2 : Int) - 52 := by omega
      rw [if_neg h1, if_neg h2]
      constructor
      · intro heq
        split at heq <;> cases heq
      · intro hle
        omega
    · -- out of range exactly with a carry
      have h1 : 971 < (n.log2 : Int) - 52 + 1 := by omega
      have h2 : ¬ 971 < (n.log2 : Int) - 52 := by omega
      rw [if_pos h1, if_neg h2]
      have hmantissa : mantissa n = roundDiv n (twoTo 971) := by
        unfold mantissa scaleDown
        rw [h]
        simp
      have hquotient : n / twoTo 971 < twoTo 53 := by
        rw [Nat.div_lt_iff_lt_mul (twoTo_pos 971), ← twoTo_add]
        rw [h] at hhigh
        exact hhigh
      have hround := roundDiv_le n (twoTo 971)
      have hodd : (twoTo 53 - 1) % 2 = 1 := by
        have heven : twoTo 53 = twoTo 52 * 2 := twoTo_succ 52
        have hpos := twoTo_pos 52
        omega
      have hlt := @lt_roundDiv_iff n _ _ (twoTo_pos 971) hodd
      have hstep : (2 * (twoTo 53 - 1) + 1) * twoTo 971 = 2 * leastTooLarge := by
        have hdouble : twoTo 971 = twoTo 970 * 2 := twoTo_succ 970
        rw [leastTooLarge_eq, hdouble]
        ring
      rw [hstep] at hlt
      rw [hmantissa]
      have hpos := twoTo_pos 53
      constructor
      · intro heq
        split at heq
        · have := hlt.mp (by omega)
          omega
        · cases heq
      · intro hle
        rw [if_pos]
        have := hlt.mpr (by omega)
        omega
    · have hn' : twoTo 1024 ≤ n := le_trans (twoTo_mono h) hlow
      have hlarge := leastTooLarge_le
      have h1 : 971 < (n.log2 : Int) - 52 + 1 := by omega
      have h2 : 971 < (n.log2 : Int) - 52 := by omega
      rw [if_pos h1, if_pos h2]
      constructor
      · intro _
        omega
      · intro _
        split <;> rfl

theorem ofInt_ne_notANumber (n : Int) : ofInt n ≠ .notANumber := by
  unfold ofInt ofQuotient
  dsimp only
  split_ifs <;> simp

theorem sign_of_ofQuotient {negative sign : Bool} {n d : Nat}
    (h : ofQuotient negative n d = .infinite sign) : sign = negative := by
  unfold ofQuotient at h
  dsimp only at h
  split_ifs at h <;> cases h <;> rfl

theorem ofInt_infinite_iff (n : Int) :
    (∃ sign, ofInt n = .infinite sign) ↔ leastTooLarge ≤ n.natAbs := by
  rw [← ofQuotient_one_infinite_iff (n < 0)]
  constructor
  · rintro ⟨sign, h⟩
    rw [sign_of_ofQuotient h] at h
    exact h
  · intro h
    exact ⟨_, h⟩

end Binary64

end TapAudit.Number
