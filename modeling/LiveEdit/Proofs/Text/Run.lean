/-
  LiveEdit.Proofs.Text.Run — runs of characters at the start of a text.

  A run ends in front of a character that does not belong to it, whatever stands in front of that one
  (`takeWhile_append_cons`, `dropWhile_append_cons`). In front of what does not go on with it, a whole run is cut off
  (`run_append`).
-/

import LiveEdit.Text.Basic

namespace LiveEdit.Text

variable {p : Char → Bool}

/-- A run is taken off what stands in front of a character that does not belong to it. -/
theorem dropWhile_append_cons {c : Char} (hc : p c = false) (front back : Text) :
    (front ++ c :: back).dropWhile p = front.dropWhile p ++ c :: back := by
  rw [List.dropWhile_append]
  split
  · rename_i hnil
    rw [List.isEmpty_iff.mp hnil, List.dropWhile_cons_of_neg (by simp [hc]), List.nil_append]
  · rfl

/-- A run ends in front of a character that does not belong to it. -/
theorem takeWhile_append_cons {c : Char} (hc : p c = false) (front back : Text) :
    (front ++ c :: back).takeWhile p = front.takeWhile p := by
  rw [List.takeWhile_append]
  split
  · rename_i hall
    rw [List.takeWhile_cons_of_neg (by simp [hc]), List.append_nil]
    exact ((List.takeWhile_prefix p).eq_of_length hall).symm
  · rfl

/-- A run is cut off in front of what does not go on with it. -/
theorem run_append {run tail : Text} (hrun : run.all p = true) (htail : ∀ c ∈ tail.head?, p c = false) :
    (run ++ tail).takeWhile p = run ∧ (run ++ tail).dropWhile p = tail := by
  have hall : ∀ c ∈ run, p c = true := List.all_eq_true.mp hrun
  rw [List.takeWhile_append_of_pos hall, List.dropWhile_append_of_pos hall]
  cases tail with
  | nil => simp
  | cons c tail =>
    have hc : ¬ p c = true := by simp [htail c rfl]
    rw [List.takeWhile_cons_of_neg hc, List.dropWhile_cons_of_neg hc, List.append_nil]
    exact ⟨rfl, rfl⟩

end LiveEdit.Text
