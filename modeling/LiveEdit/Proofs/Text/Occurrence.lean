/-
  LiveEdit.Proofs.Text.Occurrence — parts of a text, and where a reader succeeds in it.

  `occurs` is the infix relation (`occurs_iff_isInfix`). What occurs in a text up to the kind of blanks still
  does in a longer one (`collapse_isInfix`), although blanks may run together at the seams. `cut?` divides a text at
  the leftmost occurrence (`cut?_eq_some`, `cut?_leftmost`).
-/

import LiveEdit.Text.Basic
import LiveEdit.Text.Blank

namespace LiveEdit.Text

theorem occurs_iff_isInfix (part t : Text) : occurs part t = true ↔ part <:+: t := by
  induction t with
  | nil => simp [occurs, List.isEmpty_iff]
  | cons c t ih => simp [occurs, ih, List.infix_cons_iff]

theorem occurs_mono {part t whole : Text} (h : t <:+: whole) (ho : occurs part t = true) : occurs part whole = true :=
  (occurs_iff_isInfix part whole).mpr (((occurs_iff_isInfix part t).mp ho).trans h)

/-! ## The first occurrence -/

theorem cut?_eq_some {part t before after : Text} (h : cut? part t = some (before, after)) :
    t = before ++ part ++ after := by
  induction t generalizing before with
  | nil =>
    obtain ⟨rest, hr, he⟩ := Option.map_eq_some_iff.mp h
    cases he
    exact afterStart?_eq_some_iff.mp hr
  | cons c t ih =>
    unfold cut? at h
    split at h
    · rename_i rest hr
      cases h
      exact afterStart?_eq_some_iff.mp hr
    · obtain ⟨⟨b, a⟩, hb, he⟩ := Option.map_eq_some_iff.mp h
      cases he
      rw [ih hb]
      rfl

/-- No occurrence begins before the one at which a text is cut. -/
theorem cut?_leftmost (part front back : Text) :
    ∃ before after, cut? part (front ++ part ++ back) = some (before, after) ∧ before.length ≤ front.length := by
  induction front with
  | nil =>
    have hstart : afterStart? part (part ++ back) = some back := afterStart?_eq_some_iff.mpr rfl
    refine ⟨[], back, ?_, Nat.le_refl _⟩
    rw [List.nil_append]
    cases ht : part ++ back with
    | nil =>
      rw [ht] at hstart
      simp [cut?, hstart]
    | cons c t =>
      rw [ht] at hstart
      simp [cut?, hstart]
  | cons c front ih =>
    obtain ⟨before, after, hcut, hle⟩ := ih
    rw [List.cons_append, List.cons_append, cut?]
    split
    · rename_i rest hr
      exact ⟨[], rest, rfl, Nat.zero_le _⟩
    · exact ⟨c :: before, after, by rw [hcut]; rfl, Nat.succ_le_succ hle⟩

/-- A text is cut at the occurrence before which none begins. -/
theorem cut?_of_first {part before after : Text}
    (hfirst : ∀ front back, before ++ part ++ after = front ++ part ++ back → before.length ≤ front.length) :
    cut? part (before ++ part ++ after) = some (before, after) := by
  obtain ⟨front, back, hcut, hle⟩ := cut?_leftmost part before after
  have hsplit := cut?_eq_some hcut
  have hlength : before.length = front.length := Nat.le_antisymm (hfirst front back hsplit) hle
  rw [List.append_assoc, List.append_assoc] at hsplit
  obtain ⟨rfl, hrest⟩ := List.append_inj hsplit hlength
  rw [hcut, List.append_cancel_left hrest]

theorem cut?_self_append (part rest : Text) : cut? part (part ++ rest) = some ([], rest) := by
  have hfirst : ∀ front back, [] ++ part ++ rest = front ++ part ++ back → ([] : Text).length ≤ front.length :=
    fun _ _ _ => Nat.zero_le _
  exact cut?_of_first hfirst

/-- The part does not occur in front of the place where a text is cut. -/
theorem not_isInfix_of_cut? {part t before after : Text} (hne : part ≠ []) (h : cut? part t = some (before, after)) :
    ¬ part <:+: before := by
  rintro ⟨front, back, rfl⟩
  obtain ⟨first, rest, hcut, hle⟩ := cut?_leftmost part front (back ++ part ++ after)
  have hwhole : front ++ part ++ (back ++ part ++ after) = t := by
    rw [cut?_eq_some h]
    simp only [List.append_assoc]
  rw [hwhole, h] at hcut
  cases hcut
  have hpos := List.length_pos_iff.mpr hne
  simp only [List.length_append] at hle
  omega

/-- At a single character a text is cut behind a beginning that does not hold it. -/
theorem cut?_singleton_iff {c : Char} {t before after : Text} :
    cut? [c] t = some (before, after) ↔ t = before ++ c :: after ∧ c ∉ before := by
  constructor
  · intro h
    refine ⟨by simpa using cut?_eq_some h, fun hmem => ?_⟩
    obtain ⟨front, back, rfl⟩ := List.append_of_mem hmem
    exact not_isInfix_of_cut? (by simp) h ⟨front, back, by simp⟩
  · rintro ⟨rfl, hmem⟩
    rw [List.append_cons]
    refine cut?_of_first fun front back hsplit => Nat.le_of_not_lt fun hlt => ?_
    have hwhole : front ++ [c] <+: before ++ [c] ++ after := ⟨back, hsplit.symm⟩
    have hbefore : before <+: before ++ [c] ++ after := by simp
    have hle : (front ++ [c]).length ≤ before.length := by simp; omega
    exact hmem ((List.prefix_of_prefix_length_le hwhole hbefore hle).subset (by simp))

/-- What stands behind a part stands behind the first cut as well. -/
theorem cut?_keeps {part front back before after : Text} (h : cut? part (front ++ part ++ back) = some (before, after)) :
    ∃ passed, after = passed ++ back := by
  obtain ⟨before', after', h', hle⟩ := cut?_leftmost part front back
  rw [h] at h'
  obtain ⟨rfl, rfl⟩ : before = before' ∧ after = after' := by simpa using h'
  have hdrop := congrArg (List.drop (before ++ part).length) (cut?_eq_some h)
  have hlen : (before ++ part).length ≤ (front ++ part).length := by
    simp only [List.length_append]
    omega
  rw [List.drop_left, List.drop_append_of_le_length hlen] at hdrop
  exact ⟨_, hdrop.symm⟩

/-- In front of a mark that it does not hold, a part occurs in the text before the mark or not at all. -/
theorem isPrefix_of_isPrefix_append {part t rest : Text} {mark : Char} (hm : mark ∉ part)
    (h : part <+: t ++ mark :: rest) : part <+: t := by
  obtain ⟨back, hback⟩ := h
  rcases List.append_eq_append_iff.mp hback with ⟨x, rfl, -⟩ | ⟨x, rfl, hx⟩
  · exact List.prefix_append part x
  · cases x with
    | nil => simp
    | cons c x =>
      obtain ⟨rfl, -⟩ := List.cons.inj hx
      exact absurd (by simp) hm

/-- A text without the part, a mark, and the part are cut behind the mark. -/
theorem cut?_append_mark {part t : Text} {mark : Char} (hm : mark ∉ part) (hno : ¬ part <:+: t) (rest : Text) :
    cut? part (t ++ mark :: (part ++ rest)) = some (t ++ [mark], rest) := by
  have hsplit : t ++ mark :: (part ++ rest) = t ++ [mark] ++ part ++ rest := by simp
  rw [hsplit]
  refine cut?_of_first fun front back h => Nat.le_of_not_lt fun hlt => hno ?_
  -- The part would begin within the text in front of the mark.
  rw [← hsplit, List.append_assoc] at h
  have hle : front.length ≤ t.length := by simpa [Nat.lt_succ_iff] using hlt
  obtain ⟨between, rfl⟩ : front <+: t :=
    List.prefix_of_prefix_length_le ⟨_, h.symm⟩ (List.prefix_append t _) hle
  rw [List.append_assoc] at h
  have hpart : part <+: between ++ mark :: (part ++ rest) := ⟨back, (List.append_cancel_left h).symm⟩
  exact (isPrefix_of_isPrefix_append hm hpart).isInfix.trans (List.suffix_append front between).isInfix

/-! ## Collapsed blanks -/

/-- The character before what follows `t` is blank. -/
def endsInRun (inRun : Bool) (t : Text) : Bool := (t.getLast?.map isBlank).getD inRun

theorem endsInRun_cons (inRun : Bool) (c : Char) (t : Text) :
    endsInRun inRun (c :: t) = endsInRun (isBlank c) t := by
  cases t with
  | nil => rfl
  | cons d t => simp [endsInRun, List.getLast?_cons]

theorem collapseFrom_append (inRun : Bool) (u t : Text) :
    collapseFrom inRun (u ++ t) = collapseFrom inRun u ++ collapseFrom (endsInRun inRun u) t := by
  induction u generalizing inRun with
  | nil => rfl
  | cons c u ih =>
    rw [endsInRun_cons, List.cons_append, collapseFrom, collapseFrom]
    by_cases hc : isBlank c = true
    · cases inRun <;> simp [hc, ih]
    · simp only [Bool.not_eq_true] at hc
      simp [hc, ih]

/-- Blanks at the end leave one space, unless they carry on a run. -/
theorem collapseFrom_ends (inRun : Bool) {u : Text} (hu : u ≠ []) (h : endsInRun inRun u = true) :
    (∃ v, collapseFrom inRun u = v ++ [' ']) ∨ (inRun = true ∧ collapseFrom inRun u = []) := by
  induction u generalizing inRun with
  | nil => exact absurd rfl hu
  | cons c u ih =>
    rw [endsInRun_cons] at h
    rw [collapseFrom]
    by_cases hc : isBlank c = true
    · have htail : (∃ v, collapseFrom true u = v ++ [' ']) ∨ collapseFrom true u = [] := by
        by_cases he : u = []
        · exact .inr (by rw [he]; rfl)
        · rcases ih true he (by rwa [hc] at h) with h | ⟨-, h⟩
          · exact .inl h
          · exact .inr h
      cases inRun with
      | true =>
        rcases htail with ⟨v, hv⟩ | hv
        · exact .inl ⟨v, by simp [hc, hv]⟩
        · exact .inr ⟨rfl, by simp [hc, hv]⟩
      | false =>
        rcases htail with ⟨v, hv⟩ | hv
        · exact .inl ⟨' ' :: v, by simp [hc, hv]⟩
        · exact .inl ⟨[], by simp [hc, hv]⟩
    · simp only [Bool.not_eq_true] at hc
      have he : u ≠ [] := by rintro rfl; simp [endsInRun, hc] at h
      rcases ih false he (by rwa [hc] at h) with ⟨v, hv⟩ | ⟨h, -⟩
      · exact .inl ⟨c :: v, by simp [hc, hv]⟩
      · cases h

/-- What precedes a text only adds to its collapsed form. -/
theorem collapse_isSuffix (u t : Text) : collapse t <:+ collapse (u ++ t) := by
  rw [collapse, collapse, collapseFrom_append]
  cases hrun : endsInRun false u with
  | false => exact List.suffix_append _ _
  | true =>
    cases t with
    | nil => exact List.nil_suffix
    | cons c t =>
      by_cases hc : isBlank c = true
      · have hu : u ≠ [] := by rintro rfl; cases hrun
        rcases collapseFrom_ends false hu hrun with ⟨v, hv⟩ | ⟨h, -⟩
        · exact ⟨v, by simp [hv, collapseFrom, hc]⟩
        · cases h
      · simp only [Bool.not_eq_true] at hc
        simp [collapseFrom, hc]

theorem collapse_isInfix {t whole : Text} (h : t <:+: whole) : collapse t <:+: collapse whole := by
  obtain ⟨u, w, rfl⟩ := h
  have hw : collapse (u ++ t) <+: collapse (u ++ t ++ w) := by
    rw [collapse, collapse, collapseFrom_append false (u ++ t)]
    exact List.prefix_append _ _
  exact (collapse_isSuffix u t).isInfix.trans hw.isInfix

/-! ## Matches from the left -/

variable {size? : Text → Option Nat}

theorem mem_matchesFrom {base skip o : Nat} {t : Text} (h : o ∈ matchesFrom size? base skip t) :
    base ≤ o ∧ o < base + t.length ∧ (size? (t.drop (o - base))).isSome = true := by
  induction t generalizing base skip with
  | nil => simp [matchesFrom] at h
  | cons c t ih =>
    have later : ∀ {skip}, o ∈ matchesFrom size? (base + 1) skip t → base ≤ o ∧ o < base + (c :: t).length ∧
        (size? ((c :: t).drop (o - base))).isSome = true := by
      intro skip hm
      obtain ⟨h1, h2, h3⟩ := ih hm
      have hd : (c :: t).drop (o - base) = t.drop (o - (base + 1)) := by
        rw [List.drop_cons (by omega)]; congr 1
      exact ⟨by omega, by simp; omega, by rw [hd]; exact h3⟩
    unfold matchesFrom at h
    split at h
    · exact later h
    · split at h
      · rename_i size hs
        rcases List.mem_cons.mp h with rfl | h
        · exact ⟨Nat.le_refl _, by simp, by simp [hs]⟩
        · exact later h
      · exact later h

/-- A match that a scan finds begins where the reader succeeds. -/
theorem mem_matchOffsets {o : Nat} {t : Text} (h : o ∈ matchOffsets size? t) :
    o < t.length ∧ (size? (t.drop o)).isSome = true := by
  obtain ⟨-, h2, h3⟩ := mem_matchesFrom h
  exact ⟨by omega, h3⟩

theorem matchesFrom_ne_nil (base : Nat) {o : Nat} {t : Text} (ho : o < t.length)
    (h : (size? (t.drop o)).isSome = true) : matchesFrom size? base 0 t ≠ [] := by
  induction t generalizing o base with
  | nil => simp at ho
  | cons c t ih =>
    unfold matchesFrom
    simp only
    split
    · simp
    · rename_i hs
      cases o with
      | zero => simp [hs] at h
      | succ o => exact ih _ (by simpa using ho) h

/-- A scan finds something if the reader succeeds anywhere. -/
theorem matchOffsets_ne_nil {o : Nat} {t : Text} (ho : o < t.length) (h : (size? (t.drop o)).isSome = true) :
    matchOffsets size? t ≠ [] := matchesFrom_ne_nil 0 ho h

end LiveEdit.Text
