/-
  LiveEdit.Proofs.Json.Number — a whole number that is written is read back.

  The reader takes all digits that follow, so what stands behind a number must not go on with it (`EndsNumber`). A
  written number does not begin with a zero unless it is zero (`toDigits_head`), which is why all of its digits are
  taken (`wholePart?_toDigits`).
-/

import LiveEdit.Json.Reader
import LiveEdit.Json.Writer
import LiveEdit.Proofs.Text.Run

namespace LiveEdit.Json

/-- A text that does not go on with a number in front of it. -/
def EndsNumber (rest : Text) : Prop := ∀ c, rest.head? = some c → c.isDigit = false ∧ c ≠ '.' ∧ c ≠ 'e' ∧ c ≠ 'E'

theorem endsNumber_nil : EndsNumber [] := by
  intro c hc
  cases hc

/-! ## Digits -/

/-- The digits of a number begin with a digit, and with zero only if the number is zero. -/
theorem toDigits_head (m : Nat) : ∃ d t, Nat.toDigits 10 m = d :: t ∧ d.isDigit = true ∧ (m ≠ 0 → d ≠ '0') := by
  induction m using Nat.strongRecOn with
  | ind m ih =>
    rw [Nat.toDigits_eq_if (by decide)]
    split
    · have hall : ∀ m < 10, m.digitChar.isDigit = true ∧ (m ≠ 0 → m.digitChar ≠ '0') := by decide
      exact ⟨m.digitChar, [], rfl, hall m (by assumption)⟩
    · obtain ⟨d, t, ht, hd, hzero⟩ := ih (m / 10) (by omega)
      exact ⟨d, t ++ [(m % 10).digitChar], by rw [ht]; rfl, hd, fun _ => hzero (by omega)⟩

theorem digits_toDigits (m : Nat) {rest : Text} (h : EndsNumber rest) :
    Numeral.digits (Nat.toDigits 10 m ++ rest) = (Nat.toDigits 10 m, rest) := by
  have hdigits : (Nat.toDigits 10 m).all Char.isDigit = true :=
    List.all_eq_true.mpr fun c hc => Nat.isDigit_of_mem_toDigits (by decide) (by decide) hc
  obtain ⟨htake, hdrop⟩ := Text.run_append hdigits fun c hc => (h c hc).1
  rw [Numeral.digits, htake, hdrop]

theorem digitsValue_toDigits (m : Nat) : Text.digitsValue (Nat.toDigits 10 m) = m := Nat.ofDigitChars_ten_toDigits

/-! ## Numbers -/

theorem wholePart?_toDigits (m : Nat) {rest : Text} (h : EndsNumber rest) :
    wholePart? (Nat.toDigits 10 m ++ rest) = some (Nat.toDigits 10 m, rest) := by
  by_cases hm : m = 0
  · subst m
    rfl
  · have hall := digits_toDigits m h
    obtain ⟨d, t, ht, hd, hzero⟩ := toDigits_head m
    rw [ht, List.cons_append] at hall ⊢
    rw [wholePart?]
    · rw [if_pos hd, hall]
    · exact hzero hm

theorem fractionPart_of_ends {rest : Text} (h : EndsNumber rest) : fractionPart rest = ([], rest) := by
  cases rest with
  | nil => rfl
  | cons c rest =>
    obtain ⟨-, hpoint, -⟩ := h c rfl
    rw [fractionPart]
    intro t he
    cases he
    exact hpoint rfl

theorem exponentPart_of_ends {rest : Text} (h : EndsNumber rest) : exponentPart rest = (none, rest) := by
  cases rest with
  | nil => rfl
  | cons c rest =>
    obtain ⟨-, -, he, hE⟩ := h c rfl
    simp [exponentPart, he, hE]

theorem magnitude?_toDigits (negative : Bool) (m : Nat) {rest : Text} (h : EndsNumber rest) :
    magnitude? negative (Nat.toDigits 10 m ++ rest) = some (.int (if negative then -(m : Int) else m), rest) := by
  rw [magnitude?, wholePart?_toDigits m h]
  simp only [Option.map_some, fractionPart_of_ends h, exponentPart_of_ends h, digitsValue_toDigits]
  rfl

theorem number?_intText (n : Int) {rest : Text} (h : EndsNumber rest) :
    number? (Value.intText n ++ rest) = some (.int n, rest) := by
  unfold Value.intText
  split
  · rw [List.cons_append, number?, magnitude?_toDigits true _ h]
    have hn : -(n.natAbs : Int) = n := by omega
    simp only [if_true, hn]
  · obtain ⟨d, t, ht, hd, -⟩ := toDigits_head n.natAbs
    have hread := magnitude?_toDigits false n.natAbs h
    rw [ht, List.cons_append] at hread ⊢
    rw [number?, hread]
    · have hn : (n.natAbs : Int) = n := by omega
      simp [hn]
    · intro s he
      cases he
      exact absurd hd (by decide)

end LiveEdit.Json
