/-
  LiveEdit.Proofs.Text.Case — lower case and comparison without regard to case on ASCII text.

  There the two say the same: the lower case of a text is that of its characters (`lower_of_isAscii`), and a pattern
  begins a text up to case just when it begins it in lower case (`afterStartIgnoringCase?_of_isAscii`). Beyond ASCII
  they part, as `ſ` has the upper case of `s` and yet is a lower case letter.
-/

import LiveEdit.Text.Case

namespace LiveEdit.Text

/-! ## ASCII characters -/

/-- What holds of the first characters, which can be tried, holds of every ASCII character. -/
theorem ascii_forall {P : Char → Prop} (h : ∀ n < 128, P (Char.ofNat n)) {c : Char} (hc : c.toNat < 128) : P c := by
  have := h c.toNat hc
  rwa [Char.ofNat_toNat] at this

theorem isAlpha_iff {c : Char} : c.isAlpha = true ↔ c.isUpper = true ∨ c.isLower = true := Bool.or_eq_true_iff

theorem ascii_of_isLower {c : Char} (h : c.isLower = true) : c.toNat < 128 := by
  have hrange : (decide ('a'.val ≤ c.val) && decide (c.val ≤ 'z'.val)) = true := h
  rw [Bool.and_eq_true, decide_eq_true_eq, decide_eq_true_eq] at hrange
  have hz : c.toNat ≤ 122 := hrange.2
  omega

theorem ascii_of_isAlpha {c : Char} (h : c.isAlpha = true) : c.toNat < 128 := by
  rcases isAlpha_iff.mp h with h | h
  · have hrange : 'A'.val ≤ c.val ∧ c.val ≤ 'Z'.val := of_decide_eq_true h
    have hz : c.toNat ≤ 90 := hrange.2
    omega
  · exact ascii_of_isLower h

/-! ## Lower case -/

def IsAscii (t : List Char) : Prop := ∀ c ∈ t, c.toNat < 128

instance : DecidablePred IsAscii := fun t => List.decidableBAll (fun c : Char => c.toNat < 128) t

theorem toLower_of_ascii {c : Char} (h : c.toNat < 128) : c.toLower.toNat < 128 ∧ c.toLower.toLower = c.toLower :=
  ascii_forall (P := fun c => c.toLower.toNat < 128 ∧ c.toLower.toLower = c.toLower) (by decide) h

theorem lowerAfter_of_isAscii {t : List Char} (h : IsAscii t) (before : List Char) :
    lowerAfter before t = t.map Char.toLower := by
  induction t generalizing before with
  | nil => rfl
  | cons c t ih =>
    obtain ⟨hc, ht⟩ := List.forall_mem_cons.mp h
    have hsigma : c ≠ 'Σ' := by
      rintro rfl
      exact absurd hc (by decide)
    have hdotted : c ≠ 'İ' := by
      rintro rfl
      exact absurd hc (by decide)
    simp [lowerAfter, hsigma, hdotted, lowerChar, hc, ih ht]

theorem lower_of_isAscii {t : List Char} (h : IsAscii t) : lower t = t.map Char.toLower := lowerAfter_of_isAscii h []

theorem isAscii_lower {t : List Char} (h : IsAscii t) : IsAscii (lower t) := by
  rw [lower_of_isAscii h]
  intro c hc
  obtain ⟨b, hb, rfl⟩ := List.mem_map.mp hc
  exact (toLower_of_ascii (h b hb)).1

theorem lower_lower {t : List Char} (h : IsAscii t) : lower (lower t) = lower t := by
  rw [lower_of_isAscii (isAscii_lower h), lower_of_isAscii h, List.map_map]
  exact List.map_congr_left fun c hc => (toLower_of_ascii (h c hc)).2

/-! ## Comparison -/

/-- No two ASCII letters are twins. -/
theorem sameLetter_of_ascii {a b : Char} (ha : a.toNat < 128) (hb : b.toNat < 128) :
    sameLetter a b = true ↔ a.toLower = b.toLower := by
  have hone : ∀ group ∈ twins, ∀ m ∈ group, ∀ n ∈ group, m < 128 → n < 128 → m = n := by decide
  rw [sameLetter, lowerChar, lowerChar, if_pos ha, if_pos hb, Bool.or_eq_true, decide_eq_true_eq, or_iff_left_iff_imp]
  intro htwins
  obtain ⟨group, hgroup, hmem⟩ := List.any_eq_true.mp htwins
  rw [Bool.and_eq_true, List.contains_iff_mem, List.contains_iff_mem] at hmem
  refine Char.toNat_inj.mp (hone group hgroup _ hmem.1 _ hmem.2 ?_ ?_)
  · exact (toLower_of_ascii ha).1
  · exact (toLower_of_ascii hb).1

/-- A pattern begins an ASCII text up to case just when a beginning of it is the pattern in lower case. -/
theorem afterStartIgnoringCase?_of_isAscii {pattern t rest : List Char} (hp : IsAscii pattern) (ht : IsAscii t) :
    afterStartIgnoringCase? pattern t = some rest ↔
      ∃ part, t = part ++ rest ∧ part.map Char.toLower = pattern.map Char.toLower := by
  induction pattern generalizing t with
  | nil => simp [afterStartIgnoringCase?]
  | cons a pattern ih =>
    obtain ⟨ha, hp⟩ := List.forall_mem_cons.mp hp
    cases t with
    | nil =>
      constructor
      · intro h
        cases h
      · rintro ⟨part, hpart, hlower⟩
        rw [(List.append_eq_nil_iff.mp hpart.symm).1] at hlower
        cases hlower
    | cons b t =>
      obtain ⟨hb, ht⟩ := List.forall_mem_cons.mp ht
      simp only [afterStartIgnoringCase?, sameLetter_of_ascii ha hb]
      constructor
      · intro h
        obtain ⟨hab, hrest⟩ := Option.ite_none_right_eq_some.mp h
        obtain ⟨part, rfl, hlower⟩ := (ih hp ht).mp hrest
        exact ⟨b :: part, rfl, by rw [List.map_cons, List.map_cons, hab, hlower]⟩
      · rintro ⟨part, hpart, hlower⟩
        cases part with
        | nil => cases hlower
        | cons c part =>
          obtain ⟨rfl, rfl⟩ := List.cons.inj hpart
          obtain ⟨hab, hlower⟩ := List.cons.inj hlower
          rw [if_pos hab.symm]
          exact (ih hp ht).mpr ⟨part, rfl, hlower⟩

end LiveEdit.Text
