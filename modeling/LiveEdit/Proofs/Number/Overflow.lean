/-
  LiveEdit.Proofs.Number.Overflow — the whole numbers that are too large to be doubles.

  The largest double is `(2 ^ 53 - 1) · 2 ^ 971`. A whole number is beyond all doubles from half a place above it on; the
  middle itself rounds up, since `2 ^ 53 - 1` is odd (`ofInt?_eq_none_iff`).
-/

import Mathlib.Tactic.Ring
import LiveEdit.Number.Double

namespace LiveEdit.Double

/-! ## Rounding a quotient -/

/-- A quotient that is less than `m + 1` rounds to it from the middle on, if `m` is odd. -/
theorem divNearest_eq_succ_iff {num den m : Nat} (hm : m % 2 = 1) (hlt : num < (m + 1) * den) :
    divNearest num den = m + 1 ↔ (2 * m + 1) * den ≤ 2 * num := by
  have hpos : 0 < den := Nat.pos_of_ne_zero fun h => by simp [h] at hlt
  have hmod := Nat.mod_lt num hpos
  have hparts := Nat.div_add_mod num den
  have hwhole : num / den ≤ m := Nat.lt_succ_iff.mp ((Nat.div_lt_iff_lt_mul hpos).mpr hlt)
  unfold divNearest
  rcases Nat.lt_or_eq_of_le hwhole with hless | heq
  · -- The whole part is too small, and so is the quotient.
    have hbelow : den * (num / den) + den ≤ den * m := by
      rw [← Nat.mul_succ]
      exact Nat.mul_le_mul_left den hless
    have hmiddle : (2 * m + 1) * den = 2 * (den * m) + den := by ring
    rw [hmiddle]
    refine ⟨fun h => ?_, fun h => by omega⟩
    simp only at h
    split at h
    · omega
    · split at h
      · omega
      · split at h <;> omega
  · have hmiddle : (2 * m + 1) * den = 2 * (den * m) + den := by ring
    rw [heq] at hparts
    rw [heq, hmiddle]
    simp only [hm]
    split
    · omega
    · split
      · omega
      · simp only [Nat.one_ne_zero, if_false, true_iff]
        omega

/-! ## Whole numbers -/

/-- The first 53 binary digits of a whole number, rounded. -/
def significand (n : Nat) : Nat :=
  divNearest (scaled n 1 ((n.log2 : Int) - 52)).1 (scaled n 1 ((n.log2 : Int) - 52)).2

variable {n : Nat}

/-- A whole number is scaled to 53 binary digits. -/
theorem exponentFor_one (hn : n ≠ 0) : exponentFor n 1 = (n.log2 : Int) - 52 := by
  have hlow := Nat.log2_self_le hn
  have hone : (1 : Nat).log2 = 0 := by decide
  have hdigits : ¬ (scaled n 1 ((n.log2 : Int) - 52)).1 / (scaled n 1 ((n.log2 : Int) - 52)).2 < Nat.pow 2 52 := by
    simp only [scaled, Nat.pow_eq, Nat.one_mul, Nat.not_lt]
    rw [Nat.le_div_iff_mul_le (Nat.pow_pos (by decide)), ← Nat.pow_add]
    rcases Nat.le_total 52 n.log2 with h | h
    · have he : 52 + ((n.log2 : Int) - 52).toNat = n.log2 := by omega
      rw [he]
      exact Nat.le_trans hlow (Nat.le_mul_of_pos_right n (Nat.pow_pos (by decide)))
    · have he : 52 + ((n.log2 : Int) - 52).toNat = n.log2 + (-((n.log2 : Int) - 52)).toNat := by omega
      rw [he, Nat.pow_add]
      exact Nat.mul_le_mul_right _ hlow
  unfold exponentFor
  simp only [hone, Int.natCast_zero, Int.sub_zero]
  rw [if_neg hdigits]
  omega

/-- Rounding may need one place more than 53; then the exponent must still fit. -/
theorem isFinite_round_one (negative : Bool) (hn : n ≠ 0) :
    (round negative n 1).isFinite = true ↔ (n.log2 : Int) - 52 + (if significand n = 2 ^ 53 then 1 else 0) ≤ 971 := by
  unfold round significand
  rw [if_neg hn, exponentFor_one hn]
  by_cases hm : divNearest (scaled n 1 ((n.log2 : Int) - 52)).1 (scaled n 1 ((n.log2 : Int) - 52)).2 = 2 ^ 53
  · simp only [hm, Nat.pow_eq, if_true]
    split
    · simp only [isFinite, Bool.false_eq_true, false_iff]
      omega
    · simp only [isFinite, true_iff]
      omega
  · simp only [hm, Nat.pow_eq, if_false]
    split
    · simp only [isFinite, Bool.false_eq_true, false_iff]
      omega
    · simp only [isFinite, true_iff]
      omega

/-- A number rounds to one place more from the middle below that place on. -/
theorem significand_eq_iff {half : Nat} (hlog : n.log2 = half + 53) :
    significand n = 2 ^ 53 ↔ (2 ^ 54 - 1) * 2 ^ half ≤ n := by
  have hhigh : n < 2 ^ 54 * 2 ^ half := by
    rw [← Nat.pow_add, Nat.add_comm 54, ← Nat.add_assoc half 53 1, ← hlog]
    exact Nat.lt_log2_self
  have hscaled : scaled n 1 ((n.log2 : Int) - 52) = (n, 2 ^ half * 2) := by
    have hplace : ((n.log2 : Int) - 52).toNat = half + 1 := by omega
    have hnone : (-((n.log2 : Int) - 52)).toNat = 0 := by omega
    simp only [scaled, Nat.pow_eq, hplace, hnone, Nat.pow_zero, Nat.mul_one, Nat.one_mul, Nat.pow_succ]
  have hmiddle := @divNearest_eq_succ_iff n (2 ^ half * 2) (2 ^ 53 - 1) (by decide)
  rw [significand, hscaled]
  generalize 2 ^ half = place at hhigh hmiddle ⊢
  refine (hmiddle (by omega)).trans ?_
  omega

theorem two_pow_le_mul {a b c : Nat} (h : c ≤ a + b) : 2 ^ c ≤ 2 ^ a * 2 ^ b := by
  rw [← Nat.pow_add]
  exact Nat.pow_le_pow_right (by decide) h

theorem two_pow_mul_le {a b c : Nat} (h : a + b ≤ c) : 2 ^ a * 2 ^ b ≤ 2 ^ c := by
  rw [← Nat.pow_add]
  exact Nat.pow_le_pow_right (by decide) h

/-- A whole number is no double just when it reaches the middle between the largest double and the one that would
follow it. -/
theorem ofInt?_eq_none_iff (k : Int) : ofInt? k = none ↔ (2 ^ 54 - 1) * 2 ^ 970 ≤ k.natAbs := by
  have hround : ofInt? k = none ↔ ¬ (round (decide (k < 0)) k.natAbs 1).isFinite = true := by
    unfold ofInt?
    cases round (decide (k < 0)) k.natAbs 1 with
    | nan => simp [isFinite]
    | infinite negative => simp [isFinite]
    | finite negative mantissa exponent => simp [isFinite]
  rw [hround]
  generalize k.natAbs = n
  by_cases hn : n = 0
  · have hpos : ∀ e, 0 < (2 ^ 54 - 1) * 2 ^ e := fun e => Nat.mul_pos (by decide) (Nat.two_pow_pos e)
    rw [hn]
    exact iff_of_false (fun h => absurd rfl h) (Nat.not_le_of_gt (hpos 970))
  rw [isFinite_round_one _ hn]
  have hlow := Nat.log2_self_le hn
  have hhigh := @Nat.lt_log2_self n
  rcases Nat.lt_trichotomy n.log2 1023 with hlog | hlog | hlog
  · have hle := @two_pow_le_mul 53 970 (n.log2 + 1) (by omega)
    generalize 2 ^ 970 = place at hle ⊢
    split <;> omega
  · rw [← significand_eq_iff hlog]
    split
    · rename_i hcarries
      exact iff_of_true (by omega) hcarries
    · rename_i hstays
      exact iff_of_false (by omega) hstays
  · have hle := @two_pow_mul_le 54 970 n.log2 (by omega)
    generalize 2 ^ 970 = place at hle ⊢
    split <;> omega

end LiveEdit.Double
