/-
  LiveEdit.Proofs.Line.Clamp — a clamped line is a line of the document (`clamp_bounds`), and a reported line is
  either a number for all purposes or for none (`Readable`).
-/

import LiveEdit.Line
import LiveEdit.Request

namespace LiveEdit

/-! ## Results that may be errors -/

section

variable {ε α β : Type} {x : Except ε α} {b : β} {e : ε}

theorem bind_eq_ok_iff {f : α → Except ε β} : x >>= f = .ok b ↔ ∃ a, x = .ok a ∧ f a = .ok b := by
  cases x with
  | error e => simp [bind, Except.bind]
  | ok a => simp [bind, Except.bind]

theorem exists_bind_ok {f : α → Except ε β} (hx : ∃ a, x = .ok a) (hf : ∀ a, ∃ b, f a = .ok b) :
    ∃ b, x >>= f = .ok b := by
  obtain ⟨a, rfl⟩ := hx
  exact hf a

theorem map_eq_ok_iff {f : α → β} : x.map f = .ok b ↔ ∃ a, x = .ok a ∧ f a = b := by
  cases x with
  | error e => simp [Except.map]
  | ok a => simp [Except.map]

theorem map_eq_error_iff {f : α → β} : x.map f = .error e ↔ x = .error e := by
  cases x with
  | error e => simp [Except.map]
  | ok a => simp [Except.map]

end

namespace Line

/-! ## Clamped lines -/

/-- What counts as a position counts as a number. -/
theorem number?_of_position? {line : Value} {x : Double} (h : position? line = .ok (some x)) :
    number? line = .ok (some x) := by
  cases line with
  | bool b => simp [position?] at h
  | null | int n | float y | str t | list items | map entries => exact h

/-- Whether a value is usable is only known of one that could be read. -/
theorem number?_of_isUsable {line : Value} {b : Bool} (h : isUsable line = .ok b) : ∃ x, number? line = .ok x := by
  obtain ⟨x, hx, -⟩ := map_eq_ok_iff.mp h
  cases line with
  | bool b => exact ⟨_, rfl⟩
  | null | int n | float y | str t | list items | map entries => exact ⟨x, hx⟩

/-- The whole part of a number of one or more is one or more. -/
theorem one_le_of_truncate? {x : Double} {n : Int} (ht : x.truncate? = some n) (h : x.atLeast 1 = true) : 1 ≤ n := by
  cases x with
  | nan => simp [Double.truncate?] at ht
  | infinite negative => simp [Double.truncate?] at ht
  | finite negative mantissa exponent =>
    simp only [Double.truncate?, Option.some.injEq] at ht
    simp only [Double.atLeast, decide_eq_true_eq, Int.one_mul] at h
    have hb : (0 : Int) < (Double.fraction negative mantissa exponent).2 := by
      simp only [Double.fraction]
      exact Int.natCast_pos.mpr (Nat.pow_pos (by decide))
    rw [← ht, Int.tdiv_eq_ediv_of_nonneg (by omega), Int.le_ediv_iff_mul_le hb]
    omega

theorem clampNumber_bounds {count : Nat} (hc : 1 ≤ count) (x : Double) :
    1 ≤ clampNumber count x ∧ clampNumber count x ≤ count := by
  unfold clampNumber
  split
  · rename_i n hn
    split
    · rename_i h1
      have := one_le_of_truncate? hn h1
      omega
    · omega
  · omega

theorem clamp_bounds {count line : Nat} {v : Value} (hc : 1 ≤ count) (h : clamp count v = .ok line) :
    1 ≤ line ∧ line ≤ count := by
  obtain ⟨found, -, rfl⟩ := map_eq_ok_iff.mp h
  cases found with
  | none => exact ⟨Nat.le_refl 1, hc⟩
  | some x => exact clampNumber_bounds hc x

/-! ## Reported lines -/

variable {line : Option ReportedLine}

/-- A reported line is never a mere yes or no. -/
theorem position?_lineValue (line : Option ReportedLine) : position? (lineValue line) = number? (lineValue line) := by
  rcases line with _ | n | x <;> rfl

/-- The reported line is a number, or there is none; it is not too large to be one. -/
def Readable (line : Option ReportedLine) : Prop := ∃ x, number? (lineValue line) = .ok x

theorem readable_of_isReliable {settings : Settings} {b : Bool} (h : isReliable settings (lineValue line) = .ok b) :
    Readable line := by
  obtain ⟨x, hx, -⟩ := map_eq_ok_iff.mp h
  exact ⟨x, (position?_lineValue line).symm.trans hx⟩

theorem readable_of_isUsable {b : Bool} (h : isUsable (lineValue line) = .ok b) : Readable line := by
  obtain ⟨x, hx, -⟩ := map_eq_ok_iff.mp h
  exact ⟨x, (position?_lineValue line).symm.trans hx⟩

theorem isReliable_of_readable (settings : Settings) (h : Readable line) :
    ∃ b, isReliable settings (lineValue line) = .ok b := by
  obtain ⟨x, hx⟩ := h
  exact ⟨_, map_eq_ok_iff.mpr ⟨x, (position?_lineValue line).trans hx, rfl⟩⟩

theorem isUsable_of_readable (h : Readable line) : ∃ b, isUsable (lineValue line) = .ok b := by
  obtain ⟨x, hx⟩ := h
  exact ⟨_, map_eq_ok_iff.mpr ⟨x, (position?_lineValue line).trans hx, rfl⟩⟩

theorem clamp_of_readable (count : Nat) (h : Readable line) : ∃ n, clamp count (lineValue line) = .ok n := by
  obtain ⟨x, hx⟩ := h
  exact ⟨_, map_eq_ok_iff.mpr ⟨x, hx, rfl⟩⟩

end Line

end LiveEdit
