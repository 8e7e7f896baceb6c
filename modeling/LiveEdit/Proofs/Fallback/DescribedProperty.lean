/-
  LiveEdit.Proofs.Fallback.DescribedProperty — the property that the description of a change names, and the one that
  the style editor writes.

  The description spells a property in small letters with hyphens, the editor makes a key of it. A change to camel case
  takes the spelling back (`camelCase_kebab`), so that both are the same property but for two hyphens in front, which
  mark a custom property with a case of its own (`key_kebabCase_iff`).
-/

import LiveEdit.Fallback.Prompt
import LiveEdit.Proofs.Style.Rereading

namespace LiveEdit.Fallback

open Style

/-! ## The spelling with hyphens -/

/-- One character of the spelling with hyphens. -/
def kebabChar (c : Char) : Text := if c.isUpper then ['-', c.toLower] else [c]

theorem ascii_of_isUpper {c : Char} (h : c.isUpper = true) : c.toNat < 128 :=
  Text.ascii_of_isAlpha (Text.isAlpha_iff.mpr (.inl h))

theorem toLower_of_isUpper {c : Char} (h : c.isUpper = true) : c.toLower.isLower = true ∧ c.toLower.toUpper = c :=
  Text.ascii_forall (P := fun c => c.isUpper = true → c.toLower.isLower = true ∧ c.toLower.toUpper = c) (by decide)
    (ascii_of_isUpper h) h

theorem not_isLower_of_isUpper {c : Char} (h : c.isUpper = true) : c.isLower = false :=
  Text.ascii_forall (P := fun c => c.isUpper = true → c.isLower = false) (by decide) (ascii_of_isUpper h) h

theorem hyphen_ne_of_isUpper {c : Char} (h : c.isUpper = true) : '-' ≠ c ∧ '-' ≠ c.toLower :=
  Text.ascii_forall (P := fun c => c.isUpper = true → '-' ≠ c ∧ '-' ≠ c.toLower) (by decide) (ascii_of_isUpper h) h

theorem map_toLower_hyphenated {c : Char} (h : c.toNat < 128) :
    (if c.isUpper then ['-', c] else [c]).map Char.toLower = kebabChar c :=
  Text.ascii_forall (P := fun c => (if c.isUpper then ['-', c] else [c]).map Char.toLower = kebabChar c) (by decide) h

theorem kebabCase_eq {property : Text} (h : Text.IsAscii property) : kebabCase property = property.flatMap kebabChar := by
  have hascii : Text.IsAscii (property.flatMap fun c => if c.isUpper then ['-', c] else [c]) := by
    intro d hd
    obtain ⟨c, hc, hd⟩ := List.mem_flatMap.mp hd
    split at hd
    · rcases List.mem_pair.mp hd with rfl | rfl
      · decide
      · exact h d hc
    · rw [List.mem_singleton.mp hd]
      exact h c hc
  rw [kebabCase, Text.lower_of_isAscii hascii, List.map_flatMap]
  exact List.flatMap_congr fun c hc => map_toLower_hyphenated (h c hc)

/-! ## Back to camel case -/

/-- A change to camel case takes the hyphens back. -/
theorem camelCase_kebab (t : Text) : camelCase (t.flatMap kebabChar) = camelCase t := by
  have hhyphen : kebabChar '-' = ['-'] := rfl
  induction t using camelCase.induct with
  | case1 => rfl
  | case2 c t hc ih =>
    have hupper : c.isUpper = false := Bool.eq_false_iff.mpr fun h => by simp [not_isLower_of_isUpper h] at hc
    simp [kebabChar, hupper, camelCase, hc, ih]
  | case3 c t hc ih =>
    -- The hyphen stays, as behind it stands no small letter: a capital has got a hyphen of its own.
    have hc : c.isLower = false := Bool.eq_false_iff.mpr hc
    rw [camelCase_hyphen hc, ← ih, List.flatMap_cons, hhyphen, List.singleton_append, List.flatMap_cons, kebabChar]
    split
    · exact camelCase_hyphen rfl _
    · exact camelCase_hyphen hc _
  | case4 c t hne ih =>
    rw [camelCase.eq_3 c t hne, List.flatMap_cons, kebabChar]
    split
    · rename_i hupper
      obtain ⟨hlower, hback⟩ := toLower_of_isUpper hupper
      simp [camelCase, hlower, hback, ih]
    · by_cases hc : c = '-'
      · cases t with
        | nil => rw [hc]; rfl
        | cons d t => exact (hne d t hc rfl).elim
      · rw [List.singleton_append, camelCase_cons_of_ne hc, ih]

/-! ## Custom properties -/

/-- The spelling is the property itself just when that has no capitals. -/
theorem kebab_eq_self_iff (t : Text) : t.flatMap kebabChar = t ↔ ∀ c ∈ t, c.isUpper = false := by
  induction t with
  | nil => simp
  | cons c t ih =>
    rw [List.flatMap_cons, List.forall_mem_cons, kebabChar]
    split
    · rename_i hupper
      simp [hyphen_ne_of_isUpper hupper, hupper]
    · rename_i hupper
      simp [hupper, ih]

/-- Two hyphens stand in front of the spelling if they stand in front of the property, or one of them and a capital. -/
theorem hyphens_kebab_iff (t : Text) : ['-', '-'] <+: t.flatMap kebabChar ↔
    ['-', '-'] <+: t ∨ ∃ c, ['-', c] <+: t ∧ c.isUpper = true := by
  cases t with
  | nil => simp
  | cons a t =>
    by_cases ha : a.isUpper = true
    · simp [kebabChar, ha, List.cons_prefix_cons, hyphen_ne_of_isUpper ha]
    · cases t with
      | nil => simp [kebabChar, ha, List.cons_prefix_cons]
      | cons b t =>
        by_cases hb : b.isUpper = true
        · simp [kebabChar, ha, hb, List.cons_prefix_cons, hyphen_ne_of_isUpper hb]
        · simp [kebabChar, ha, hb, List.cons_prefix_cons]

theorem all_kebab {t : Text} (h : t.all isWordOrHyphen = true) : (t.flatMap kebabChar).all isWordOrHyphen = true := by
  have hchar : ∀ c, isWordOrHyphen c = true → (kebabChar c).all isWordOrHyphen = true := fun c hc =>
    Text.ascii_forall (P := fun c => isWordOrHyphen c = true → (kebabChar c).all isWordOrHyphen = true) (by decide)
      (ascii_of_isWordOrHyphen hc) hc
  rw [List.all_flatMap]
  exact List.all_eq_true.mpr fun c hc => hchar c (List.all_eq_true.mp h c hc)

theorem strip_of_all {t : Text} (h : t.all isWordOrHyphen = true) : Text.strip t = t :=
  Text.strip_of_forall fun c hc => (not_special_of_isWordOrHyphen (List.all_eq_true.mp h c hc)).1

theorem key_of_hyphens {t : Text} (hstrip : Text.strip t = t) (h : ['-', '-'] <+: t) : key t = '\'' :: t ++ ['\''] := by
  rw [key, hstrip, if_pos (List.isPrefixOf_iff_prefix.mpr h)]

theorem key_of_no_hyphens {t : Text} (hstrip : Text.strip t = t) (h : ¬ ['-', '-'] <+: t) : key t = camelCase t := by
  rw [key, hstrip, if_neg fun hpre => h (List.isPrefixOf_iff_prefix.mp hpre)]

/-! ## The two names -/

/-- The property that is described to the generator is the one that the style editor writes, unless it is a custom
property with a capital in its name, or begins with a hyphen and a capital and so is described as a custom property. -/
theorem key_kebabCase_iff {property : Text} (h : property.all isWordOrHyphen = true) :
    key (kebabCase property) = key property ↔
      (['-', '-'] <+: property → ∀ c ∈ property, c.isUpper = false) ∧
      ∀ c, ['-', c] <+: property → c.isUpper = false := by
  have hascii : Text.IsAscii property := fun c hc => ascii_of_isWordOrHyphen (List.all_eq_true.mp h c hc)
  have hstrip := strip_of_all h
  have hspelled := strip_of_all (all_kebab h)
  rw [kebabCase_eq hascii]
  by_cases hcustom : ['-', '-'] <+: property
  · have hsecond : ∀ c, ['-', c] <+: property → c.isUpper = false := by
      obtain ⟨t, rfl⟩ := hcustom
      intro c hc
      obtain rfl : c = '-' := by simpa [List.cons_prefix_cons] using hc
      rfl
    rw [key_of_hyphens hspelled ((hyphens_kebab_iff property).mpr (.inl hcustom)), key_of_hyphens hstrip hcustom,
      List.append_cancel_right_eq, List.cons_inj_right, kebab_eq_self_iff]
    exact ⟨fun hlower => ⟨fun _ => hlower, hsecond⟩, fun hboth => hboth.1 hcustom⟩
  · rw [key_of_no_hyphens hstrip hcustom]
    by_cases hcap : ∃ c, ['-', c] <+: property ∧ c.isUpper = true
    · -- The hyphen in front of the capital makes it a custom property for the one and not for the other.
      rw [key_of_hyphens hspelled ((hyphens_kebab_iff property).mpr (.inr hcap))]
      obtain ⟨c, ⟨rest, rfl⟩, hc⟩ := hcap
      have hcamel : camelCase ('-' :: c :: rest) = '-' :: camelCase (c :: rest) :=
        camelCase_hyphen (not_isLower_of_isUpper hc) rest
      refine iff_of_false (fun hquote => ?_) fun hboth => ?_
      · cases hquote.trans hcamel
      · rw [hboth.2 c ⟨rest, rfl⟩] at hc
        cases hc
    · have hno : ¬ ['-', '-'] <+: property.flatMap kebabChar :=
        fun hfront => ((hyphens_kebab_iff property).mp hfront).elim hcustom hcap
      rw [key_of_no_hyphens hspelled hno, camelCase_kebab]
      refine iff_of_true rfl ⟨fun hc => absurd hc hcustom, fun c hfront => ?_⟩
      exact Bool.eq_false_iff.mpr fun hc => hcap ⟨c, hfront, hc⟩

/-- A vendor property, in camel case or with hyphens, is described as it is written. -/
theorem vendor_property_kept :
    let property := "-webkit-lineClamp".toList
    property.all isWordOrHyphen = true ∧ kebabCase property = "-webkit-line-clamp".toList ∧
      key (kebabCase property) = key property := by
  intro property
  have hall : property.all isWordOrHyphen = true := by decide
  have hcustom : ¬ ['-', '-'] <+: property := by decide
  refine ⟨hall, by rfl, (key_kebabCase_iff hall).mpr ⟨fun h => absurd h hcustom, fun c hfront => ?_⟩⟩
  obtain rfl : c = 'w' := by simpa [property, List.cons_prefix_cons] using hfront
  rfl

/-- A custom property is described in small letters and written with its capital: two properties. -/
theorem custom_property_renamed :
    let property := "--myVar".toList
    (property.all fun c => c.isAlphanum || c = '-') = true ∧
      describe (.style [(property, "red".toList)]) = "CSS changes to apply: --my-var: red".toList ∧
      key property = "'--myVar'".toList ∧ key (kebabCase property) ≠ key property := by
  refine ⟨by decide, by rfl, by rfl, by decide⟩

end LiveEdit.Fallback
