/-
  LiveEdit.Proofs.Style.StringLiteral — what may stand between the marks of a string literal.

  `LiteralBody` says it by grammar: characters other than the mark, and pairs of a backslash and any character. The
  reader of literals takes just that (`literalRest?_eq_some_iff`). Told by backslashes, the mark occurs only behind
  an odd number of them, and the end is behind an even number (`literalBody_iff`).
-/

import LiveEdit.Proofs.Markup.TopLevel
import LiveEdit.Style.Object

namespace LiveEdit.Style

/-- Texts that stand whole between two of the marks. -/
inductive LiteralBody (mark : Char) : Text → Prop
  | nil : LiteralBody mark []
  | char {c : Char} {t : Text} : c ≠ '\\' → c ≠ mark → LiteralBody mark t → LiteralBody mark (c :: t)
  | escape {c : Char} {t : Text} : LiteralBody mark t → LiteralBody mark ('\\' :: c :: t)

variable {mark : Char}

theorem LiteralBody.append {t u : Text} (ht : LiteralBody mark t) (hu : LiteralBody mark u) :
    LiteralBody mark (t ++ u) := by
  induction ht with
  | nil => exact hu
  | char hb hc _ ih => exact .char hb hc ih
  | escape _ ih => exact .escape ih

/-! ## The reader -/

/-- A character that is no backslash is the mark or belongs to the body. -/
theorem literalRest?_cons {c : Char} (hc : c ≠ '\\') (t : Text) :
    literalRest? mark (c :: t) =
      if c = mark then some ([mark], t)
      else (literalRest? mark t).map fun (inside, rest) => (c :: inside, rest) := by
  rw [literalRest?]
  · intro h
    exact absurd h hc
  · intro d u h
    exact absurd h hc

/-- A body and the mark behind it are read. -/
theorem literalRest?_of_body (hm : mark ≠ '\\') {t : Text} (h : LiteralBody mark t) (rest : Text) :
    literalRest? mark (t ++ mark :: rest) = some (t ++ [mark], rest) := by
  induction h with
  | nil => rw [List.nil_append, literalRest?_cons hm, if_pos rfl, List.nil_append]
  | char hb hc _ ih =>
    rw [List.cons_append, literalRest?_cons hb, if_neg hc, ih]
    rfl
  | escape _ ih =>
    rw [List.cons_append, List.cons_append, literalRest?, ih]
    rfl

/-- What is read is a body and the mark behind it. -/
theorem body_of_literalRest? (hm : mark ≠ '\\') {s inside rest : Text}
    (h : literalRest? mark s = some (inside, rest)) :
    ∃ t, LiteralBody mark t ∧ inside = t ++ [mark] ∧ s = t ++ mark :: rest := by
  induction s using literalRest?.induct mark generalizing inside with
  | case1 => cases h
  | case2 => cases h
  | case3 c s ih =>
    rw [literalRest?] at h
    obtain ⟨⟨read, left⟩, hread, he⟩ := Option.map_eq_some_iff.mp h
    cases he
    obtain ⟨t, ht, rfl, rfl⟩ := ih hread
    exact ⟨'\\' :: c :: t, .escape ht, rfl, rfl⟩
  | case4 s _ _ =>
    rw [literalRest?_cons hm, if_pos rfl] at h
    cases h
    exact ⟨[], .nil, rfl, rfl⟩
  | case5 c s hone hpair hc ih =>
    have hb : c ≠ '\\' := by
      intro hb
      cases s with
      | nil => exact hone hb rfl
      | cons d s => exact hpair d s hb rfl
    rw [literalRest?_cons hb, if_neg hc] at h
    obtain ⟨⟨read, left⟩, hread, he⟩ := Option.map_eq_some_iff.mp h
    cases he
    obtain ⟨t, ht, rfl, rfl⟩ := ih hread
    exact ⟨c :: t, .char hb hc ht, rfl, rfl⟩

/-- Between two marks the reader takes a text just when it is a body. -/
theorem literalRest?_eq_some_iff (hm : mark ≠ '\\') (t rest : Text) :
    literalRest? mark (t ++ mark :: rest) = some (t ++ [mark], rest) ↔ LiteralBody mark t := by
  constructor
  · intro h
    obtain ⟨body, hbody, he, -⟩ := body_of_literalRest? hm h
    rw [List.append_cancel_right he]
    exact hbody
  · intro h
    exact literalRest?_of_body hm h rest

/-! ## Backslashes -/

theorem LiteralBody.endsEscaped {t : Text} (h : LiteralBody mark t) : Text.endsEscaped t = false := by
  induction h with
  | nil => rfl
  | char hb _ _ ih => rw [Text.endsEscaped_cons hb, ih]
  | escape _ ih => rw [Text.endsEscaped_pair, ih]

theorem LiteralBody.mark_escaped (hm : mark ≠ '\\') {t front back : Text} (h : LiteralBody mark t)
    (ht : t = front ++ mark :: back) : Text.endsEscaped front = true := by
  induction h generalizing front with
  | nil => exact absurd ht.symm (by simp)
  | char hb hc _ ih =>
    cases front with
    | nil => exact absurd (List.cons.inj ht).1 hc
    | cons d front =>
      obtain ⟨rfl, hrest⟩ := List.cons.inj ht
      rw [Text.endsEscaped_cons hb]
      exact ih hrest
  | @escape c t _ ih =>
    rcases front with _ | ⟨d, _ | ⟨e, front⟩⟩
    · exact absurd (List.cons.inj ht).1.symm hm
    · obtain ⟨rfl, -⟩ := List.cons.inj ht
      rfl
    · obtain ⟨rfl, hpair⟩ := List.cons.inj ht
      obtain ⟨-, hrest⟩ := List.cons.inj hpair
      rw [Text.endsEscaped_pair]
      exact ih hrest

/-- A body is a text in which each mark is escaped and that does not escape what follows it. -/
theorem literalBody_iff (hm : mark ≠ '\\') (t : Text) :
    LiteralBody mark t ↔
      (∀ front back, t = front ++ mark :: back → Text.endsEscaped front = true) ∧ Text.endsEscaped t = false := by
  refine ⟨fun h => ⟨fun front back ht => h.mark_escaped hm ht, h.endsEscaped⟩, fun h => ?_⟩
  obtain ⟨hescaped, hclosed⟩ := h
  induction hn : t.length using Nat.strongRecOn generalizing t with
  | ind n ih =>
    rcases t with _ | ⟨c, t⟩
    · exact .nil
    by_cases hb : c = '\\'
    · subst hb
      rcases t with _ | ⟨d, t⟩
      · cases hclosed
      · rw [Text.endsEscaped_pair] at hclosed
        refine .escape (ih t.length (by simp only [List.length_cons] at hn; omega) t ?_ hclosed rfl)
        intro front back ht
        rw [← Text.endsEscaped_pair d]
        exact hescaped _ back (by rw [ht]; rfl)
    · have hc : c ≠ mark := by
        intro hc
        have := hescaped [] t (by rw [hc]; rfl)
        cases this
      rw [Text.endsEscaped_cons hb] at hclosed
      refine .char hb hc (ih t.length (by simp only [List.length_cons] at hn; omega) t ?_ hclosed rfl)
      intro front back ht
      rw [← Text.endsEscaped_cons hb]
      exact hescaped _ back (by rw [ht]; rfl)

end LiveEdit.Style
