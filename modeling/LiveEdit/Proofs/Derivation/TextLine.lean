/-
  LiveEdit.Proofs.Derivation.TextLine — the line that is derived for a text.

  Markup never reaches over a line feed, so it shows in the neighbourhood of a line just when it shows in one of the
  lines there (`holdsMarkup_neighbourhood`). The derived line is the first one that holds the text and has markup on it
  or on a line next to it (`textLine?_eq_some_iff`).
-/

import LiveEdit.Derivation
import LiveEdit.Proofs.Text.Lines
import LiveEdit.Proofs.Text.Occurrence

namespace LiveEdit.Derivation

/-! ## Markup -/

/-- A `>`, a `</`, or a `<` before a word character. -/
def ShowsMarkup (t : Text) : Prop :=
  '>' ∈ t ∨ ['<', '/'] <:+: t ∨ ∃ c, Text.isWord c = true ∧ ['<', c] <:+: t

theorem holdsMarkup_iff (t : Text) : holdsMarkup t = true ↔ ShowsMarkup t := by
  induction t with
  | nil => simp [holdsMarkup, ShowsMarkup]
  | cons c t ih =>
    have hstart : ∀ d, ['<', d] <+: c :: t ↔ c = '<' ∧ t.head? = some d := by
      intro d
      cases t <;> simp [List.cons_prefix_cons, eq_comm]
    have hhead : ((t.head?.map fun d => decide (d = '/') || Text.isWord d).getD false) = true ↔
        t.head? = some '/' ∨ ∃ d, Text.isWord d = true ∧ t.head? = some d := by
      cases t <;> simp
    unfold holdsMarkup
    simp only [ShowsMarkup, Bool.or_eq_true, Bool.and_eq_true, decide_eq_true_eq, hhead, ih, List.infix_cons_iff, hstart,
      List.mem_cons]
    constructor
    · intro h
      rcases h with (rfl | ⟨rfl, h | ⟨d, hd, h⟩⟩) | h | h | ⟨d, hd, h⟩
      · exact .inl (.inl rfl)
      · exact .inr (.inl (.inl ⟨rfl, h⟩))
      · exact .inr (.inr ⟨d, hd, .inl ⟨rfl, h⟩⟩)
      · exact .inl (.inr h)
      · exact .inr (.inl (.inr h))
      · exact .inr (.inr ⟨d, hd, .inr h⟩)
    · intro h
      rcases h with (h | h) | (⟨rfl, h⟩ | h) | ⟨d, hd, ⟨rfl, h⟩ | h⟩
      · exact .inl (.inl h.symm)
      · exact .inr (.inl h)
      · exact .inl (.inr ⟨rfl, .inl h⟩)
      · exact .inr (.inr (.inl h))
      · exact .inl (.inr ⟨rfl, .inr ⟨d, hd, h⟩⟩)
      · exact .inr (.inr (.inr ⟨d, hd, h⟩))

/-- A line feed stands neither behind a `<` of markup nor in front of anything that belongs to it. -/
theorem holdsMarkup_append_newline (t u : Text) : holdsMarkup (t ++ '\n' :: u) = (holdsMarkup t || holdsMarkup u) := by
  induction t with
  | nil => rfl
  | cons c t ih =>
    have hhead : ((t ++ '\n' :: u).head?.map fun d => decide (d = '/') || Text.isWord d).getD false =
        (t.head?.map fun d => decide (d = '/') || Text.isWord d).getD false := by
      cases t with
      | nil => exact (by decide : (decide ('\n' = '/') || Text.isWord '\n') = false)
      | cons d t => rfl
    simp only [List.cons_append, holdsMarkup, hhead, ih, Bool.or_assoc]

/-! ## The neighbourhood of a line -/

variable {lines : List Text} {old : Text}

/-- Markup shows on the line or on one next to it. -/
def MarkupNear (lines : List Text) (index : Nat) : Prop :=
  ∃ j line, (j = index ∨ j + 1 = index ∨ j = index + 1) ∧ lines[j]? = some line ∧ ShowsMarkup line

theorem holdsMarkup_getD (lines : List Text) (j : Nat) :
    holdsMarkup (lines.getD j []) = true ↔ ∃ line, lines[j]? = some line ∧ ShowsMarkup line := by
  rw [List.getD_eq_getElem?_getD]
  cases lines[j]? with
  | none => simp [holdsMarkup]
  | some line => simp [holdsMarkup_iff]

theorem holdsMarkup_neighbourhood (lines : List Text) (index : Nat) :
    holdsMarkup (neighbourhood lines index) = true ↔ MarkupNear lines index := by
  have hthree : ∀ a b c, Text.unlines [a, b, c] = a ++ '\n' :: (b ++ '\n' :: c) := by
    intro a b c
    simp [Text.unlines, Text.joinWith]
  have hprevious : holdsMarkup (if index = 0 then [] else lines.getD (index - 1) []) = true ↔
      ∃ j line, j + 1 = index ∧ lines[j]? = some line ∧ ShowsMarkup line := by
    cases index with
    | zero => simp [holdsMarkup]
    | succ j =>
      rw [if_neg (Nat.succ_ne_zero j), Nat.add_sub_cancel, holdsMarkup_getD]
      simp
  unfold neighbourhood
  rw [hthree, holdsMarkup_append_newline, holdsMarkup_append_newline, Bool.or_eq_true, Bool.or_eq_true, hprevious,
    holdsMarkup_getD, holdsMarkup_getD]
  constructor
  · intro h
    rcases h with ⟨j, line, hj, h⟩ | ⟨line, h⟩ | ⟨line, h⟩
    · exact ⟨j, line, .inr (.inl hj), h⟩
    · exact ⟨index, line, .inl rfl, h⟩
    · exact ⟨index + 1, line, .inr (.inr rfl), h⟩
  · intro h
    rcases h with ⟨j, line, rfl | hj | rfl, h⟩
    · exact .inr (.inl ⟨line, h⟩)
    · exact .inl ⟨j, line, hj, h⟩
    · exact .inr (.inr ⟨line, h⟩)

/-! ## The derived line -/

/-- The line holds the text, close to markup. -/
def Shows (lines : List Text) (old : Text) (index : Nat) : Prop :=
  (∃ line, lines[index]? = some line ∧ old <:+: line) ∧ MarkupNear lines index

/-- Line `n`, counted from one, is the first that holds the text close to markup. -/
def FirstShows (lines : List Text) (old : Text) (n : Nat) : Prop :=
  ∃ index, n = index + 1 ∧ Shows lines old index ∧ ∀ j < index, ¬ Shows lines old j

theorem shows_iff {index : Nat} (hlt : index < lines.length) :
    (Text.occurs old (lines.getD index []) && holdsMarkup (neighbourhood lines index)) = true ↔
      Shows lines old index := by
  rw [Bool.and_eq_true, Text.occurs_iff_isInfix, holdsMarkup_neighbourhood, Shows, List.getD_eq_getElem?_getD,
    List.getElem?_eq_getElem hlt]
  simp

/-- A search among the first indices finds the first one with the property. -/
theorem find?_range_eq_some_iff {p : Nat → Bool} {P : Nat → Prop} {count index : Nat}
    (hp : ∀ i < count, p i = true ↔ P i) :
    (List.range count).find? p = some index ↔ index < count ∧ P index ∧ ∀ j < index, ¬ P j := by
  rw [List.find?_range_eq_some, List.mem_range]
  constructor
  · rintro ⟨hindex, hlt, hfirst⟩
    refine ⟨hlt, (hp index hlt).mp hindex, ?_⟩
    intro j hj h
    have hfails := hfirst j hj
    rw [(hp j (Nat.lt_trans hj hlt)).mpr h] at hfails
    cases hfails
  · rintro ⟨hlt, hindex, hfirst⟩
    refine ⟨(hp index hlt).mpr hindex, hlt, ?_⟩
    intro j hj
    rw [Bool.not_eq_true', Bool.eq_false_iff]
    exact fun h => hfirst j hj ((hp j (Nat.lt_trans hj hlt)).mp h)

theorem textLine?_eq_some_iff {n : Nat} (hold : old ≠ []) :
    textLine? lines old = some n ↔ FirstShows lines old n := by
  unfold textLine? FirstShows
  rw [if_neg (by simpa using hold), Option.map_eq_some_iff]
  simp only [find?_range_eq_some_iff fun _ => shows_iff]
  constructor
  · rintro ⟨index, ⟨-, hshows, hfirst⟩, rfl⟩
    exact ⟨index, rfl, hshows, hfirst⟩
  · rintro ⟨index, rfl, hshows, hfirst⟩
    have hlt : index < lines.length := by
      obtain ⟨⟨line, hline, -⟩, -⟩ := hshows
      exact (List.getElem?_eq_some_iff.mp hline).1
    exact ⟨index, ⟨hlt, hshows, hfirst⟩, rfl⟩

end LiveEdit.Derivation
