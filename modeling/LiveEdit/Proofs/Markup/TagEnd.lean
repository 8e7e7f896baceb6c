/-
  LiveEdit.Proofs.Markup.TagEnd — where an opening tag ends.

  A tag ends behind the first `>` that stands outside of the quotes and braces that were opened since its name, and
  where the text ends when there is none. The text behind that `>` makes no difference
  (`tag_ends_behind_first_close`). The tags that edits change reach to this end (`OpeningTag.head_ofOffset`).
-/

import Mathlib.Order.Nat
import LiveEdit.Proofs.Markup.Outside

namespace LiveEdit.Markup

/-! ## The first character that closes the tag -/

namespace Scan

/-- The character at `i` closes the tag for a scanner that begins with the state `s`. -/
def ClosesAt (s : Scan) (t : Text) (i : Nat) : Prop := t[i]? = some '>' ∧ (s.after (t.take i)).topLevel = true

variable {s : Scan} {c : Char} {t : Text} {i : Nat}

theorem closesAt_zero : ClosesAt s (c :: t) 0 ↔ s.closes c = true := by
  simp [ClosesAt, closes, after, and_comm]

theorem closesAt_succ : ClosesAt s (c :: t) (i + 1) ↔ ClosesAt (s.step c) t i := Iff.rfl

theorem tagLength_of_isLeast (h : IsLeast {i | ClosesAt s t i} i) : tagLength s t = i + 1 := by
  induction t generalizing s i with
  | nil => exact absurd h.1.1 (by simp)
  | cons c t ih =>
    obtain ⟨hclose, hleast⟩ := h
    cases i with
    | zero => rw [tagLength, if_pos (closesAt_zero.mp hclose)]
    | succ i =>
      have hopen : ¬ s.closes c = true := fun hc => absurd (hleast (closesAt_zero.mpr hc)) (by simp)
      have hrest : IsLeast {i | ClosesAt (s.step c) t i} i :=
        ⟨closesAt_succ.mp hclose, fun j hj => Nat.le_of_succ_le_succ (hleast (closesAt_succ.mpr hj))⟩
      rw [tagLength, if_neg hopen, ih hrest]

theorem tagLength_of_none (h : ∀ i, ¬ ClosesAt s t i) : tagLength s t = t.length := by
  induction t generalizing s with
  | nil => rfl
  | cons c t ih =>
    have hopen : ¬ s.closes c = true := fun hc => h 0 (closesAt_zero.mpr hc)
    rw [tagLength, if_neg hopen, ih fun i hi => h (i + 1) (closesAt_succ.mpr hi), List.length_cons]

end Scan

/-! ## The end of a tag -/

/-- At `i` stands a `>` outside of the quotes and braces that were opened from `position` on. -/
structure ClosesTag (t : Text) (position i : Nat) : Prop where
  le : position ≤ i
  close : t[i]? = some '>'
  outside : Outside ((t.take i).drop position)

instance (t : Text) (position i : Nat) : Decidable (ClosesTag t position i) :=
  decidable_of_iff (position ≤ i ∧ t[i]? = some '>' ∧ Outside ((t.take i).drop position))
    ⟨fun h => ⟨h.1, h.2.1, h.2.2⟩, fun h => ⟨h.le, h.close, h.outside⟩⟩

namespace ClosesTag

variable {t u : Text} {position i : Nat}

theorem lt_length (h : ClosesTag t position i) : i < t.length := (List.getElem?_eq_some_iff.mp h.close).1

theorem closesAt_iff {k : Nat} : Scan.ClosesAt {} (t.drop position) k ↔ ClosesTag t position (position + k) := by
  rw [Scan.ClosesAt, List.getElem?_drop, Scan.topLevel_after_iff]
  have hfront : (t.drop position).take k = (t.take (position + k)).drop position := by
    rw [List.drop_take, Nat.add_sub_cancel_left]
  rw [hfront]
  exact ⟨fun h => ⟨Nat.le_add_right _ _, h.1, h.2⟩, fun h => ⟨h.close, h.outside⟩⟩

/-- What stands behind the `>` makes no difference. -/
theorem of_take_eq (h : ClosesTag t position i) (hu : t.take (i + 1) = u.take (i + 1)) : ClosesTag u position i := by
  have hclose : t[i]? = u[i]? := by rw [← List.getElem?_take_of_succ, hu, List.getElem?_take_of_succ]
  have hfront : t.take i = u.take i := by simpa [List.take_take] using congrArg (List.take i) hu
  exact ⟨h.le, hclose ▸ h.close, hfront ▸ h.outside⟩

end ClosesTag

section

variable {t : Text} {position i : Nat}

theorem openingTagEnd_eq (h : position ≤ t.length) :
    openingTagEnd t position = position + Scan.tagLength {} (t.drop position) := by
  rw [openingTagEnd, Nat.min_eq_left h]

theorem openingTagEnd_of_isLeast (h : IsLeast {i | ClosesTag t position i} i) :
    openingTagEnd t position = i + 1 := by
  obtain ⟨hclose, hleast⟩ := h
  obtain ⟨k, rfl⟩ := Nat.exists_eq_add_of_le hclose.le
  have hfirst : IsLeast {k | Scan.ClosesAt {} (t.drop position) k} k := by
    refine ⟨ClosesTag.closesAt_iff.mpr hclose, fun j hj => ?_⟩
    exact Nat.le_of_add_le_add_left (hleast (ClosesTag.closesAt_iff.mp hj))
  have hlt := hclose.lt_length
  rw [openingTagEnd_eq (by omega), Scan.tagLength_of_isLeast hfirst, Nat.add_assoc]

theorem openingTagEnd_of_none (h : position ≤ t.length) (hnone : ∀ i, ¬ ClosesTag t position i) :
    openingTagEnd t position = t.length := by
  rw [openingTagEnd_eq h, Scan.tagLength_of_none fun k hk => hnone _ (ClosesTag.closesAt_iff.mp hk), List.length_drop]
  omega

/-- The first `>` that closes a tag is still the first one in front of any other text. -/
theorem isLeast_closesTag_append (h : IsLeast {i | ClosesTag t position i} i) (s : Text) :
    IsLeast {j | ClosesTag (t.take (i + 1) ++ s) position j} i := by
  obtain ⟨hclose, hleast⟩ := h
  have hlt := hclose.lt_length
  have htake : ∀ {j}, j ≤ i → t.take (j + 1) = (t.take (i + 1) ++ s).take (j + 1) := by
    intro j hj
    rw [List.take_append_of_le_length (by rw [List.length_take]; omega), List.take_take, Nat.min_eq_left (by omega)]
  refine ⟨hclose.of_take_eq (htake (Nat.le_refl i)), fun j hj => ?_⟩
  by_contra hji
  exact hji (hleast (hj.of_take_eq (htake (by omega)).symm))

/-- A tag in its place reaches from its `<` to the end that is found behind its name. -/
theorem OpeningTag.head_ofOffset {length offset : Nat} (h : offset + length + 1 ≤ t.length) :
    (OpeningTag.ofOffset length t offset).head = (t.take (openingTagEnd t (offset + length + 1))).drop offset := by
  rw [openingTagEnd_eq h, List.drop_take, Nat.add_assoc offset, Nat.add_assoc offset, Nat.add_sub_cancel_left,
    List.take_add, List.drop_drop]
  rfl

end

/-- A tag that is open at a place of the text ends behind the first `>` that closes it, whatever follows, and with the
text when there is none. -/
theorem tag_ends_behind_first_close (t : Text) {position : Nat} (h : position ≤ t.length) :
    let e := openingTagEnd t position
    position ≤ e ∧ e ≤ t.length ∧
      ((∃ i, IsLeast {i | ClosesTag t position i} i ∧ e = i + 1 ∧ ∀ s, openingTagEnd (t.take e ++ s) position = e) ∨
        (∀ i, ¬ ClosesTag t position i) ∧ e = t.length) := by
  intro e
  by_cases hsome : ∃ i, ClosesTag t position i
  · have hleast := Nat.isLeast_find hsome
    generalize Nat.find hsome = i at hleast
    have he : e = i + 1 := openingTagEnd_of_isLeast hleast
    have hle := hleast.1.le
    have hlt := hleast.1.lt_length
    refine ⟨by omega, by omega, .inl ⟨i, hleast, he, fun s => ?_⟩⟩
    rw [he]
    exact openingTagEnd_of_isLeast (isLeast_closesTag_append hleast s)
  · have hnone := not_exists.mp hsome
    have he : e = t.length := openingTagEnd_of_none h hnone
    exact ⟨by omega, by omega, .inr ⟨hnone, he⟩⟩

/-- Five times a `>`: in braces, behind an escaped mark, in a quote, at the end of the tag and behind it. -/
theorem tag_ends_behind_arrow_and_quotes :
    let t := "<div onClick=\x7b() => open('\\'>')\x7d label=\"a > b\">x</div>".toList
    4 ≤ t.length ∧ openingTagEnd t 4 = 47 ∧ IsLeast {i | ClosesTag t 4 i} 46 ∧
      ∀ s, openingTagEnd (t.take 47 ++ s) 4 = 47 := by
  intro t
  have hposition : 4 ≤ t.length := by decide
  have hend : openingTagEnd t 4 = 47 := by decide
  obtain ⟨-, -, ⟨i, hleast, hi, hsame⟩ | ⟨-, hlength⟩⟩ := tag_ends_behind_first_close t hposition
  · obtain rfl : i = 46 := by omega
    rw [hend] at hsame
    exact ⟨hposition, hend, hleast, hsame⟩
  · exact absurd (hend.symm.trans hlength) (by decide)

end LiveEdit.Markup
