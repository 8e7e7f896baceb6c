/-
  LiveEdit.Proofs.Text.Strip — texts without the blanks at their ends.

  `strip` is the identity just on the texts that neither begin nor end with a blank (`strip_eq_self_iff`), its own
  results among them (`strip_strip`), and takes no notice of blanks that are added or taken away there. Of a text with
  such a text in it, only what stands around that one is stripped (`strip_around`).
-/

import Mathlib.Data.List.DropRight
import LiveEdit.Proofs.Text.Run
import LiveEdit.Text.Blank

namespace LiveEdit.Text

theorem strip_eq (t : Text) : strip t = (t.dropWhile isBlank).rdropWhile isBlank := rfl

theorem strip_isInfix (t : Text) : strip t <:+: t :=
  (List.rdropWhile_prefix isBlank _).isInfix.trans (List.dropWhile_suffix isBlank).isInfix

theorem length_strip_le (t : Text) : (strip t).length ≤ t.length := (strip_isInfix t).length_le

/-- Only blanks are taken off. -/
theorem mem_strip_iff {c : Char} (hc : isBlank c = false) {t : Text} : c ∈ strip t ↔ c ∈ t := by
  have hdrop : ∀ u : Text, c ∈ u.dropWhile isBlank ↔ c ∈ u := by
    intro u
    refine ⟨fun h => (List.dropWhile_suffix isBlank).subset h, fun h => ?_⟩
    rw [← List.takeWhile_append_dropWhile (p := isBlank) (l := u)] at h
    rcases List.mem_append.mp h with h | h
    · rw [List.mem_takeWhile_imp h] at hc
      cases hc
    · exact h
  rw [strip_eq, List.rdropWhile, List.mem_reverse, hdrop, List.mem_reverse, hdrop]

theorem strip_dropWhile (t : Text) : strip (t.dropWhile isBlank) = strip t := by
  rw [strip_eq, strip_eq, List.dropWhile_idempotent]

/-- Blanks at the ends make no difference. -/
theorem strip_of_blanks {front back : Text} (hfront : allBlank front = true) (hback : allBlank back = true) (t : Text) :
    strip (front ++ t ++ back) = strip t := by
  rw [strip_eq, strip_eq, List.append_assoc, List.dropWhile_append_of_pos (List.all_eq_true.mp hfront)]
  have hend : ∀ u : Text, (u ++ back).rdropWhile isBlank = u.rdropWhile isBlank := fun u => by
    rw [List.rdropWhile, List.reverse_append, List.dropWhile_append_of_pos (by simpa [allBlank] using hback),
      List.rdropWhile]
  rw [List.dropWhile_append]
  split
  · rename_i hnil
    rw [List.isEmpty_iff.mp hnil, List.dropWhile_eq_nil_iff.mpr (List.all_eq_true.mp hback)]
  · exact hend _

theorem strip_concat_of_blank {c : Char} (hc : isBlank c = true) (t : Text) : strip (t ++ [c]) = strip t := by
  have hback : allBlank [c] = true := by simpa [allBlank] using hc
  simpa using strip_of_blanks (List.all_nil : allBlank [] = true) hback t

/-- Stripping takes nothing away iff there are blanks at neither end. -/
theorem strip_eq_self_iff (t : Text) :
    strip t = t ↔ (∀ c, t.head? = some c → isBlank c = false) ∧ ∀ c, t.getLast? = some c → isBlank c = false := by
  constructor
  · intro h
    refine ⟨?_, ?_⟩
    · intro c hc
      obtain ⟨u, rfl⟩ := List.head?_eq_some_iff.mp hc
      refine Bool.eq_false_iff.mpr fun hb => ?_
      have hlen := congrArg List.length h
      have hle := length_strip_le u
      rw [strip_eq, List.dropWhile_cons_of_pos hb, ← strip_eq, List.length_cons] at hlen
      omega
    · intro c hc
      obtain ⟨u, rfl⟩ := List.getLast?_eq_some_iff.mp hc
      refine Bool.eq_false_iff.mpr fun hb => ?_
      have hlen := congrArg List.length h
      have hle := length_strip_le u
      rw [strip_concat_of_blank hb, List.length_append, List.length_singleton] at hlen
      omega
  · rintro ⟨hhead, hlast⟩
    have hstart : t.dropWhile isBlank = t := by
      cases t with
      | nil => rfl
      | cons c t => exact List.dropWhile_cons_of_neg (by simp [hhead c rfl])
    rw [strip_eq, hstart]
    rcases t.eq_nil_or_concat' with rfl | ⟨u, c, rfl⟩
    · rfl
    · exact List.rdropWhile_concat_neg _ _ _ (by simp [hlast c (by simp)])

theorem strip_of_forall {t : Text} (h : ∀ c ∈ t, isBlank c = false) : strip t = t :=
  (strip_eq_self_iff t).mpr ⟨fun c hc => h c (List.mem_of_head? hc), fun c hc => h c (List.mem_of_getLast? hc)⟩

theorem strip_strip (t : Text) : strip (strip t) = strip t := by
  have hstart : (strip t).dropWhile isBlank = strip t := by
    rw [strip_eq]
    cases hu : (t.dropWhile isBlank).rdropWhile isBlank with
    | nil => rfl
    | cons c u =>
      -- The first character is that of the text without the blanks at its start.
      obtain ⟨rest, hrest⟩ := hu ▸ List.rdropWhile_prefix isBlank (t.dropWhile isBlank)
      have hc := List.head?_dropWhile_not isBlank t
      rw [← hrest] at hc
      exact List.dropWhile_cons_of_neg (by simpa using hc)
  rw [strip_eq (strip t), hstart, strip_eq, List.rdropWhile_idempotent]

/-! ## Around a text -/

/-- Around a text that neither begins nor ends with a blank, blanks are taken off on the far sides only. -/
theorem strip_around {t : Text} (hne : t ≠ []) (ht : strip t = t) (front back : Text) :
    strip (front ++ t ++ back) = front.dropWhile isBlank ++ t ++ back.rdropWhile isBlank := by
  obtain ⟨hfirst, hlast⟩ := (strip_eq_self_iff t).mp ht
  have hstart : (front ++ t ++ back).dropWhile isBlank = front.dropWhile isBlank ++ t ++ back := by
    obtain ⟨c, u, rfl⟩ := List.exists_cons_of_ne_nil hne
    simpa using dropWhile_append_cons (hfirst c rfl) front (u ++ back)
  have hend : ∀ u : Text, (u ++ t ++ back).rdropWhile isBlank = u ++ t ++ back.rdropWhile isBlank := by
    intro u
    obtain ⟨v, d, rfl⟩ := (List.eq_nil_or_concat' t).resolve_left hne
    have hd := dropWhile_append_cons (hlast d (by simp)) back.reverse (v.reverse ++ u.reverse)
    simp [List.rdropWhile, hd]
  rw [strip_eq, hstart, hend]

end LiveEdit.Text
