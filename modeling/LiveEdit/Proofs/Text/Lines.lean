/-
  LiveEdit.Proofs.Text.Lines — replacing some lines of a document by a text.

  The lines before and after stay where they are with their line feeds (`unlines_around`), however many
  lines the text has that takes the place of the others (`unlines_lines_around`). Pieces without line feeds are
  the lines of the text that they make up (`lines_unlines`), so they are the same lines afterwards (`lines_around`).
  A beginning of a document ends within one of its lines (`exists_line_of_isPrefix`).
-/

import LiveEdit.Text.Basic

namespace LiveEdit.Text

/-- Lines that others follow, each with its line feed. -/
def above (ls : List Text) : Text := ls.flatMap (· ++ ['\n'])

/-- Lines that follow others, each after a line feed. -/
def below (ls : List Text) : Text := ls.flatMap ('\n' :: ·)

theorem above_cons (l : Text) (ls : List Text) : above (l :: ls) = l ++ '\n' :: above ls := by
  simp [above]

theorem below_cons (l : Text) (ls : List Text) : below (l :: ls) = '\n' :: l ++ below ls := by
  simp [below]

theorem above_append (ls more : List Text) : above (ls ++ more) = above ls ++ above more := List.flatMap_append

theorem unlines_cons (l : Text) (ls : List Text) : unlines (l :: ls) = l ++ below ls := by
  induction ls generalizing l with
  | nil => simp [unlines, joinWith, below]
  | cons next ls ih =>
    have step : unlines (l :: next :: ls) = l ++ ['\n'] ++ unlines (next :: ls) := rfl
    rw [step, ih, below_cons]
    simp

theorem unlines_append_above {ls : List Text} (h : ls ≠ []) (before : List Text) :
    unlines (before ++ ls) = above before ++ unlines ls := by
  induction before with
  | nil => rfl
  | cons l before ih =>
    obtain ⟨next, rest, hr⟩ : ∃ next rest, before ++ ls = next :: rest :=
      List.exists_cons_of_ne_nil (by simp [h])
    rw [List.cons_append, unlines_cons, above_cons, List.append_assoc, List.cons_append, ← ih, hr,
      below_cons, unlines_cons]
    simp

theorem unlines_append_below {ls : List Text} (h : ls ≠ []) (after : List Text) :
    unlines (ls ++ after) = unlines ls ++ below after := by
  obtain ⟨l, ls, rfl⟩ := List.exists_cons_of_ne_nil h
  rw [List.cons_append, unlines_cons, unlines_cons]
  simp [below]

theorem unlines_around {ls : List Text} (h : ls ≠ []) (before after : List Text) :
    unlines (before ++ ls ++ after) = above before ++ unlines ls ++ below after := by
  rw [List.append_assoc, unlines_append_above (by simp [h]), unlines_append_below h, List.append_assoc]

theorem unlines_isPrefix {ls ls' : List Text} (h : ls <+: ls') : unlines ls <+: unlines ls' := by
  obtain ⟨after, rfl⟩ := h
  by_cases hne : ls = []
  · rw [hne]
    exact List.nil_prefix
  · rw [unlines_append_below hne]
    exact List.prefix_append _ _

theorem length_unlines_le (ls : List Text) : (unlines ls).length ≤ (above ls).length := by
  induction ls with
  | nil => exact Nat.le_refl 0
  | cons l ls ih =>
    cases ls with
    | nil => simp [unlines, joinWith, above]
    | cons next ls =>
      rw [← List.singleton_append, unlines_append_above (List.cons_ne_nil next ls), above_append, List.length_append,
        List.length_append]
      omega

/-- A beginning of a document ends within one of its lines, unless it ends in a line feed. -/
theorem exists_line_of_isPrefix {ls : List Text} {t : Text} {c : Char} (hc : c ≠ '\n') (h : t ++ [c] <+: unlines ls) :
    ∃ before line after last, ls = before ++ line :: after ∧ t = above before ++ last ∧ last ++ [c] <+: line := by
  induction ls generalizing t with
  | nil => simp [unlines, joinWith] at h
  | cons l ls ih =>
    have hfirst : t ++ [c] <+: l → ∃ before line after last, l :: ls = before ++ line :: after ∧
        t = above before ++ last ∧ last ++ [c] <+: line := fun h => ⟨[], l, ls, t, rfl, rfl, h⟩
    rw [unlines_cons] at h
    rcases List.prefix_or_prefix_of_prefix h (List.prefix_append l (below ls)) with h | ⟨s, hs⟩
    · exact hfirst h
    · rcases List.eq_nil_or_concat s with rfl | ⟨s, d, rfl⟩
      · exact hfirst ⟨[], by simpa using hs.symm⟩
      · -- The beginning reaches over the line feed behind the first line.
        rw [← hs, List.prefix_append_right_inj, List.concat_eq_append] at h
        rw [List.concat_eq_append, ← List.append_assoc] at hs
        obtain ⟨rfl, hd⟩ := List.append_inj' hs rfl
        cases hd
        cases ls with
        | nil => simp [below] at h
        | cons next ls =>
          rw [below_cons, List.cons_append, ← unlines_cons] at h
          cases s with
          | nil => exact absurd (List.cons_prefix_cons.mp h).1 hc
          | cons b s =>
            obtain ⟨hb, hrest⟩ := List.cons_prefix_cons.mp h
            subst hb
            obtain ⟨before, line, after, last, hls, rfl, hlast⟩ := ih (t := s) hrest
            exact ⟨l :: before, line, after, last, by rw [hls, List.cons_append], by rw [above_cons]; simp, hlast⟩

theorem lines_ne_nil (t : Text) : lines t ≠ [] := splitOn_ne_nil '\n' t

theorem unlines_lines_around (before after : List Text) (t : Text) :
    unlines (before ++ lines t ++ after) = above before ++ t ++ below after := by
  rw [unlines_around (lines_ne_nil t), unlines_lines]

/-! ## Pieces -/

/-- No separator is left in the pieces. -/
theorem not_mem_of_mem_splitOn {sep : Char} {piece t : Text} (h : piece ∈ splitOn sep t) : sep ∉ piece := by
  induction t generalizing piece with
  | nil =>
    obtain rfl : piece = [] := by simpa [splitOn] using h
    exact List.not_mem_nil
  | cons c t ih =>
    obtain ⟨first, rest, hr⟩ := List.exists_cons_of_ne_nil (splitOn_ne_nil sep t)
    rw [hr] at ih
    rw [splitOn, hr] at h
    split at h
    · rcases List.mem_cons.mp h with rfl | h
      · exact List.not_mem_nil
      · exact ih h
    · rename_i hc
      rcases List.mem_cons.mp h with rfl | h
      · rw [List.mem_cons, not_or]
        exact ⟨fun he => hc he.symm, ih List.mem_cons_self⟩
      · exact ih (List.mem_cons_of_mem first h)

theorem splitOn_of_not_mem {sep : Char} {t : Text} (h : sep ∉ t) : splitOn sep t = [t] := by
  induction t with
  | nil => rfl
  | cons c t ih =>
    obtain ⟨hc, ht⟩ := not_or.mp (mt List.mem_cons.mpr h)
    rw [splitOn, if_neg (Ne.symm hc), ih ht]

theorem mem_joinWith {sep : Text} {ts : List Text} {c : Char} (h : c ∈ joinWith sep ts) :
    c ∈ sep ∨ ∃ t ∈ ts, c ∈ t := by
  induction ts with
  | nil => cases h
  | cons t ts ih =>
    cases ts with
    | nil => exact .inr ⟨t, List.mem_cons_self, h⟩
    | cons next ts =>
      rcases List.mem_append.mp h with h | h
      · rcases List.mem_append.mp h with h | h
        · exact .inr ⟨t, List.mem_cons_self, h⟩
        · exact .inl h
      · exact (ih h).imp_right fun ⟨u, hu, hc⟩ => ⟨u, List.mem_cons_of_mem t hu, hc⟩

/-! ## Lines of what was put together -/

theorem not_mem_of_mem_lines {l t : Text} (h : l ∈ lines t) : '\n' ∉ l := not_mem_of_mem_splitOn h

theorem lines_of_not_mem {l : Text} (h : '\n' ∉ l) : lines l = [l] := splitOn_of_not_mem h

theorem lines_append_newline {l : Text} (h : '\n' ∉ l) (t : Text) : lines (l ++ '\n' :: t) = l :: lines t := by
  induction l with
  | nil => rfl
  | cons c l ih =>
    obtain ⟨hc, hl⟩ := not_or.mp (mt List.mem_cons.mpr h)
    have hr := ih hl
    unfold lines at hr ⊢
    rw [List.cons_append, splitOn, if_neg (Ne.symm hc), hr]

/-- A text without line feeds lengthens the first line of what follows it. -/
theorem lines_append {u : Text} (h : '\n' ∉ u) (t : Text) :
    ∃ first rest, lines t = first :: rest ∧ lines (u ++ t) = (u ++ first) :: rest := by
  obtain ⟨first, rest, ht⟩ := List.exists_cons_of_ne_nil (lines_ne_nil t)
  refine ⟨first, rest, ht, ?_⟩
  induction u with
  | nil => exact ht
  | cons c u ih =>
    obtain ⟨hc, hu⟩ := not_or.mp (mt List.mem_cons.mpr h)
    have hr := ih hu
    unfold lines at hr ⊢
    rw [List.cons_append, splitOn, if_neg (Ne.symm hc), hr]
    rfl

/-- Lines with their line feeds are the first lines of what they stand in front of. -/
theorem lines_above_append {ls : List Text} (h : ∀ l ∈ ls, '\n' ∉ l) (t : Text) :
    lines (above ls ++ t) = ls ++ lines t := by
  induction ls with
  | nil => rfl
  | cons l ls ih =>
    have hline : l ++ '\n' :: above ls ++ t = l ++ '\n' :: (above ls ++ t) := by simp
    rw [above_cons, hline, lines_append_newline (h l List.mem_cons_self),
      ih fun m hm => h m (List.mem_cons_of_mem l hm), List.cons_append]

/-- Behind the last line feed stands one more line, an empty one. -/
theorem lines_above {ls : List Text} (h : ∀ l ∈ ls, '\n' ∉ l) : lines (above ls) = ls ++ [[]] := by
  have hend := lines_above_append h []
  rwa [List.append_nil] at hend

theorem lines_unlines {ls : List Text} (hne : ls ≠ []) (h : ∀ l ∈ ls, '\n' ∉ l) : lines (unlines ls) = ls := by
  induction ls with
  | nil => exact absurd rfl hne
  | cons l ls ih =>
    have hl := h l List.mem_cons_self
    cases ls with
    | nil => exact lines_of_not_mem hl
    | cons next ls =>
      have hu : unlines (l :: next :: ls) = l ++ '\n' :: unlines (next :: ls) := by
        rw [unlines_cons, unlines_cons, below_cons, List.cons_append]
      rw [hu, lines_append_newline hl, ih (List.cons_ne_nil _ _) fun l' hl' => h l' (List.mem_cons_of_mem l hl')]

/-! ## A document in parts -/

/-- The lines of a document with another text in the place of some of its lines. -/
theorem lines_around (t u : Text) (start stop : Nat) :
    lines (above ((lines t).take start) ++ u ++ below ((lines t).drop stop)) =
      (lines t).take start ++ lines u ++ (lines t).drop stop := by
  rw [← unlines_lines_around]
  refine lines_unlines (by simp [lines_ne_nil u]) ?_
  intro l hl
  rcases List.mem_append.mp hl with hl | hl
  · rcases List.mem_append.mp hl with hl | hl
    · exact not_mem_of_mem_lines (List.mem_of_mem_take hl)
    · exact not_mem_of_mem_lines hl
  · exact not_mem_of_mem_lines (List.mem_of_mem_drop hl)

/-- A document around some of its lines. -/
theorem whole_around {ls before inside after : List Text} (h : inside ≠ []) (hl : before ++ inside ++ after = ls) :
    above before ++ unlines inside ++ below after = unlines ls := by
  rw [← hl, unlines_around h]

end LiveEdit.Text
