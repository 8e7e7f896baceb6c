/-
  LiveEdit.Proofs.Text.Passage — what it means that a search from the left finds a passage.

  The reader succeeds at the passage and takes just what stands inside of it (`read_of_first?`), and fails everywhere
  in front of it (`read_eq_none_of_first?`); a passage of which this holds is found (`first?_of_read`). Where nothing
  is found it succeeds nowhere (`first?_eq_none_iff`).
-/

import LiveEdit.Text.Passage

namespace LiveEdit.Text.Passage

variable {α : Type} {read : Option Char → Text → Option (α × Text)} {previous : Option Char} {t : Text}

/-- The last character of a text, or the one before the text if it is empty. -/
def lastOr (previous : Option Char) (t : Text) : Option Char := t.getLast?.or previous

theorem lastOr_cons (previous : Option Char) (c : Char) (t : Text) :
    lastOr previous (c :: t) = lastOr (some c) t := by
  cases t with
  | nil => rfl
  | cons d t => simp [lastOr, List.getLast?_cons]

theorem lastOr_append (previous : Option Char) (t u : Text) :
    lastOr previous (t ++ u) = lastOr (lastOr previous t) u := by
  simp [lastOr, List.getLast?_append, Option.or_assoc]

theorem read_of_first? (leaves : ∀ {previous t a rest}, read previous t = some (a, rest) → rest <:+ t)
    {p : Passage} {a : α} (h : first? read previous t = some (p, a)) :
    read (lastOr previous p.before) (p.inside ++ p.after) = some (a, p.after) := by
  induction t generalizing previous p with
  | nil => simp [first?] at h
  | cons c t ih =>
    unfold first? at h
    split at h
    · rename_i b rest hr
      obtain ⟨front, hf⟩ := leaves hr
      simp only [Option.some.injEq, Prod.mk.injEq] at h
      obtain ⟨rfl, rfl⟩ := h
      have htaken : taken (c :: t) rest ++ rest = c :: t := by rw [← hf]; simp [taken]
      simpa [htaken, lastOr] using hr
    · obtain ⟨⟨q, b⟩, hq, he⟩ := Option.map_eq_some_iff.mp h
      simp only [Prod.mk.injEq] at he
      obtain ⟨rfl, rfl⟩ := he
      rw [lastOr_cons]
      exact ih hq

/-- In front of the passage that is found the reader fails everywhere. -/
theorem read_eq_none_of_first? {p : Passage} {a : α} (h : first? read previous t = some (p, a)) {front back : Text}
    (ht : t = front ++ back) (hlt : front.length < p.before.length) : read (lastOr previous front) back = none := by
  induction t generalizing previous p front with
  | nil => simp [first?] at h
  | cons c t ih =>
    unfold first? at h
    split at h
    · simp only [Option.some.injEq, Prod.mk.injEq] at h
      obtain ⟨rfl, -⟩ := h
      exact absurd hlt (Nat.not_lt_zero _)
    · rename_i hr
      obtain ⟨⟨q, b⟩, hq, he⟩ := Option.map_eq_some_iff.mp h
      simp only [Prod.mk.injEq] at he
      obtain ⟨rfl, rfl⟩ := he
      cases front with
      | nil =>
        rw [List.nil_append] at ht
        rw [← ht]
        exact hr
      | cons d front =>
        simp only [List.cons_append, List.cons.injEq] at ht
        rw [lastOr_cons, ← ht.1]
        exact ih hq ht.2 (Nat.lt_of_succ_lt_succ hlt)

theorem first?_eq_none_iff : first? read previous t = none ↔
    ∀ front c back, t = front ++ c :: back → read (lastOr previous front) (c :: back) = none := by
  induction t generalizing previous with
  | nil => simp [first?]
  | cons d t ih =>
    unfold first?
    cases hr : read previous (d :: t) with
    | some found =>
      refine ⟨fun h => absurd h (by simp), fun h => ?_⟩
      have hnone := h [] d t rfl
      simp only [lastOr, List.getLast?_nil, Option.none_or] at hnone
      exact absurd (hr.symm.trans hnone) (by simp)
    | none =>
      simp only [Option.map_eq_none_iff, ih]
      constructor
      · intro h front c back he
        cases front with
        | nil =>
          simp only [List.nil_append, List.cons.injEq] at he
          obtain ⟨rfl, rfl⟩ := he
          exact hr
        | cons e front =>
          simp only [List.cons_append, List.cons.injEq] at he
          rw [lastOr_cons, ← he.1]
          exact h front c back he.2
      · intro h front c back he
        rw [← lastOr_cons]
        exact h (d :: front) c back (by rw [he]; rfl)

/-- Where the reader succeeds and fails everywhere in front, the search finds the passage. -/
theorem first?_of_read {front back rest : Text} {c : Char} {a : α}
    (hread : read (lastOr previous front) (c :: back) = some (a, rest))
    (hearlier : ∀ f d g, front = f ++ d :: g → read (lastOr previous f) (d :: g ++ c :: back) = none) :
    first? read previous (front ++ c :: back) = some (⟨front, taken (c :: back) rest, rest⟩, a) := by
  induction front generalizing previous with
  | nil =>
    rw [List.nil_append, first?, show read previous (c :: back) = some (a, rest) from hread]
  | cons d front ih =>
    have hnone : read previous (d :: (front ++ c :: back)) = none := hearlier [] d front rfl
    rw [lastOr_cons] at hread
    have hrest := ih hread fun f e g he => by
      rw [← lastOr_cons previous]
      exact hearlier (d :: f) e g (by rw [he, List.cons_append])
    rw [List.cons_append, first?, hnone]
    simp only [hrest, Option.map_some]

end LiveEdit.Text.Passage
