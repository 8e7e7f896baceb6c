/-
  LiveEdit.Proofs.Style.Key — which characters of a property or a value are found again in its key or its literal.

  A key differs from its property in blanks, hyphens, letters and quotes only (`mem_key_iff`), a literal from its value
  in blanks, quotes and backslashes (`mem_literal_iff`). A set of changes has the keys of its properties, each one once
  (`nodup_keys_ofChanges`, `mem_keys_ofChanges`).
-/

import LiveEdit.Proofs.Assoc
import LiveEdit.Proofs.Text.Case
import LiveEdit.Proofs.Text.Strip
import LiveEdit.Style.Literal

namespace LiveEdit.Style

variable {m : Char}

theorem isUpper_toUpper {c : Char} (h : c.isLower = true) : c.toUpper.isUpper = true :=
  Text.ascii_forall (P := fun c => c.isLower = true → c.toUpper.isUpper = true) (by decide) (Text.ascii_of_isLower h) h

theorem camelCase_cons_of_ne {c : Char} (hc : c ≠ '-') (t : Text) : camelCase (c :: t) = c :: camelCase t :=
  camelCase.eq_3 c t fun _ _ h _ => hc h

theorem camelCase_hyphen {c : Char} (hc : c.isLower = false) (t : Text) :
    camelCase ('-' :: c :: t) = '-' :: camelCase (c :: t) := by
  simp [camelCase, hc]

/-- What is true of all characters of a text, and of the capitals of small letters, is true of the camel case. -/
theorem camelCase_all {p : Char → Bool} (hcapital : ∀ c : Char, c.isLower = true → p c.toUpper = true) {t : Text}
    (ht : t.all p = true) : (camelCase t).all p = true := by
  induction t using camelCase.induct with
  | case1 => rfl
  | case2 c t hc ih =>
    simp only [List.all_cons, Bool.and_eq_true] at ht
    simp [camelCase, hc, hcapital c hc, ih ht.2.2]
  | case3 c t hc ih =>
    simp only [List.all_cons, Bool.and_eq_true] at ht
    have hrest := ih (by simp [ht.2])
    simp [camelCase, hc, ht.1, hrest]
  | case4 c t hne ih =>
    simp only [List.all_cons, Bool.and_eq_true] at ht
    simp [camelCase, ht.1, ih ht.2]

theorem mem_camelCase_iff (hhyphen : m ≠ '-') (hletter : m.isAlpha = false) (t : Text) : m ∈ camelCase t ↔ m ∈ t := by
  induction t using camelCase.induct with
  | case1 => rfl
  | case2 c t hc ih =>
    have hlower : m ≠ c := by
      rintro rfl
      rw [Text.isAlpha_iff.mpr (.inr hc)] at hletter
      cases hletter
    have hupper : m ≠ c.toUpper := by
      rintro rfl
      rw [Text.isAlpha_iff.mpr (.inl (isUpper_toUpper hc))] at hletter
      cases hletter
    simp [camelCase, hc, ih, hhyphen, hlower, hupper]
  | case3 c t hc ih => rw [camelCase, if_neg hc, List.mem_cons, ih, ← List.mem_cons]
  | case4 c t hne ih => rw [camelCase, List.mem_cons, ih, ← List.mem_cons]; exact hne

theorem mem_key_iff (hhyphen : m ≠ '-') (hletter : m.isAlpha = false) (hquote : m ≠ '\'')
    (hblank : Text.isBlank m = false) (property : Text) : m ∈ key property ↔ m ∈ property := by
  rw [← Text.mem_strip_iff hblank (t := property), key]
  split
  · simp [hquote]
  · exact mem_camelCase_iff hhyphen hletter _

theorem nodup_keys_ofChanges (css : Assoc Text) : (Assoc.keys (ofChanges css)).Nodup := Assoc.nodup_ofPairs _

theorem mem_keys_ofChanges {css : Assoc Text} {k : Text} :
    k ∈ Assoc.keys (ofChanges css) ↔ ∃ property ∈ Assoc.keys css, key property = k := by
  rw [ofChanges, Assoc.ofPairs, Assoc.mem_keys_putAll]
  simp [Assoc.keys]

/-- Escapes add backslashes only. -/
theorem mem_flatMap_literalChar (hescape : m ≠ '\\') (t : Text) : m ∈ t.flatMap literalChar ↔ m ∈ t := by
  have hchar : ∀ c, m ∈ literalChar c ↔ m = c := by
    intro c
    unfold literalChar
    split <;> simp [hescape]
  simp [hchar]

theorem mem_literal_iff (hquote : m ≠ '\'') (hescape : m ≠ '\\') (hblank : Text.isBlank m = false) (value : Text) :
    m ∈ literal value ↔ m ∈ value := by
  rw [← Text.mem_strip_iff hblank (t := value), literal]
  simp [hquote, mem_flatMap_literalChar hescape]

end LiveEdit.Style
