/-
  LiveEdit.Proofs.Text.Count — what the count of a part says about its occurrences.

  The scan from the left finds occurrences that stand apart (`apart_matchOffsets`), and no choice of such
  occurrences has more members (`Apart.length_le_count`). So the count is one just when the part occurs and no two
  occurrences of it are disjoint (`count_eq_one_iff`); occurrences that overlap are counted once.
-/

import LiveEdit.Proofs.Text.Occurrence

namespace LiveEdit.Text

/-- Offsets of occurrences of a part, rising, of which none overlaps the one before. -/
structure Apart (part t : Text) (ps : List Nat) : Prop where
  occurs : ∀ p ∈ ps, part <+: t.drop p
  pairwise : ps.Pairwise fun p q => p + part.length ≤ q

/-- Two occurrences of the part do not overlap. -/
def OccursTwice (part t : Text) : Prop :=
  ∃ p q, part <+: t.drop p ∧ part <+: t.drop q ∧ p + part.length ≤ q

/-- The reader that counting uses: it takes one occurrence. -/
def partSize? (part : Text) (s : Text) : Option Nat := if part.isPrefixOf s then some part.length else none

theorem count_eq (part t : Text) : count part t = (matchOffsets (partSize? part) t).length := rfl

theorem partSize?_eq_some {part s : Text} {size : Nat} (h : partSize? part s = some size) :
    part <+: s ∧ size = part.length := by
  unfold partSize? at h
  split at h
  · rename_i hp
    exact ⟨List.isPrefixOf_iff_prefix.mp hp, (Option.some.inj h).symm⟩
  · cases h

theorem partSize?_eq_none {part s : Text} (h : partSize? part s = none) : ¬ part <+: s := by
  intro hp
  unfold partSize? at h
  rw [if_pos (List.isPrefixOf_iff_prefix.mpr hp)] at h
  cases h

/-! ## The scan -/

theorem matchesFrom_of_none {size? : Text → Option Nat} {c : Char} {t : Text} (base : Nat) (h : size? (c :: t) = none) :
    matchesFrom size? base 0 (c :: t) = matchesFrom size? (base + 1) 0 t := by
  simp only [matchesFrom, h]

theorem matchesFrom_of_some {size? : Text → Option Nat} {c : Char} {t : Text} {size : Nat} (base : Nat)
    (h : size? (c :: t) = some size) :
    matchesFrom size? base 0 (c :: t) = base :: matchesFrom size? (base + 1) (size - 1) t := by
  simp only [matchesFrom, h]

theorem lt_length_of_isPrefix_drop {part t : Text} {p : Nat} (hne : part ≠ []) (h : part <+: t.drop p) :
    p < t.length := by
  have hlen := h.length_le
  have hpos := List.length_pos_iff.mpr hne
  rw [List.length_drop] at hlen
  omega

/-- The offsets of the scan are rising by more than the length of the part. -/
theorem pairwise_matchesFrom {part : Text} (base skip : Nat) (t : Text) :
    (∀ p ∈ matchesFrom (partSize? part) base skip t, base + skip ≤ p) ∧
      (matchesFrom (partSize? part) base skip t).Pairwise fun p q => p + part.length ≤ q := by
  induction t generalizing base skip with
  | nil => simp [matchesFrom]
  | cons c t ih =>
    cases skip with
    | succ skip =>
      obtain ⟨hle, hpair⟩ := ih (base + 1) skip
      refine ⟨?_, hpair⟩
      intro p hp
      have := hle p hp
      omega
    | zero =>
      cases hs : partSize? part (c :: t) with
      | none =>
        rw [matchesFrom_of_none base hs]
        obtain ⟨hle, hpair⟩ := ih (base + 1) 0
        refine ⟨?_, hpair⟩
        intro p hp
        have := hle p hp
        omega
      | some size =>
        obtain ⟨-, rfl⟩ := partSize?_eq_some hs
        rw [matchesFrom_of_some base hs]
        obtain ⟨hle, hpair⟩ := ih (base + 1) (part.length - 1)
        refine ⟨?_, List.pairwise_cons.mpr ⟨?_, hpair⟩⟩
        · intro p hp
          rcases List.mem_cons.mp hp with rfl | hp
          · exact Nat.le_refl _
          · have := hle p hp
            omega
        · intro q hq
          have := hle q hq
          omega

/-- What the scan finds are occurrences that stand apart. -/
theorem apart_matchOffsets (part t : Text) : Apart part t (matchOffsets (partSize? part) t) := by
  refine ⟨?_, (pairwise_matchesFrom 0 0 t).2⟩
  intro p hp
  obtain ⟨-, hsome⟩ := mem_matchOffsets hp
  obtain ⟨size, hs⟩ := Option.isSome_iff_exists.mp hsome
  exact (partSize?_eq_some hs).1

/-- The scan keeps pace with any choice of occurrences: it never finds its next one later. -/
theorem length_le_matchesFrom {part : Text} (hne : part ≠ []) (base skip : Nat) {t : Text} {ps : List Nat}
    (hle : ∀ p ∈ ps, base + skip ≤ p) (hocc : ∀ p ∈ ps, part <+: t.drop (p - base))
    (hpair : ps.Pairwise fun p q => p + part.length ≤ q) :
    ps.length ≤ (matchesFrom (partSize? part) base skip t).length := by
  have hpos := List.length_pos_iff.mpr hne
  induction t generalizing base skip ps with
  | nil =>
    cases ps with
    | nil => exact Nat.zero_le _
    | cons p ps =>
      have := lt_length_of_isPrefix_drop hne (hocc p List.mem_cons_self)
      exact absurd this (Nat.not_lt_zero _)
  | cons c t ih =>
    -- An occurrence behind the first character is one of the rest.
    have later : ∀ {p}, base + 1 ≤ p → part <+: (c :: t).drop (p - base) → part <+: t.drop (p - (base + 1)) := by
      intro p hp h
      have hd : (c :: t).drop (p - base) = t.drop (p - (base + 1)) := by
        rw [List.drop_cons (by omega)]
        congr 1
      rw [← hd]
      exact h
    cases skip with
    | succ skip =>
      refine ih (base + 1) skip ?_ ?_ hpair
      · intro p hp
        have := hle p hp
        omega
      · intro p hp
        have := hle p hp
        exact later (by omega) (hocc p hp)
    | zero =>
      cases hs : partSize? part (c :: t) with
      | none =>
        have hbehind : ∀ p ∈ ps, base + 1 ≤ p := by
          intro p hp
          have hge := hle p hp
          by_cases he : p = base
          · subst he
            have hstart := hocc p hp
            rw [Nat.sub_self, List.drop_zero] at hstart
            exact absurd hstart (partSize?_eq_none hs)
          · omega
        rw [matchesFrom_of_none base hs]
        exact ih (base + 1) 0 hbehind (fun p hp => later (hbehind p hp) (hocc p hp)) hpair
      | some size =>
        obtain ⟨-, rfl⟩ := partSize?_eq_some hs
        rw [matchesFrom_of_some base hs]
        cases ps with
        | nil => exact Nat.zero_le _
        | cons p ps =>
          obtain ⟨hfirst, hrest⟩ := List.pairwise_cons.mp hpair
          have hp := hle p List.mem_cons_self
          have hbehind : ∀ q ∈ ps, base + 1 + (part.length - 1) ≤ q := by
            intro q hq
            have := hfirst q hq
            omega
          have hmore := ih (base + 1) (part.length - 1) hbehind (fun q hq => by
            have := hbehind q hq
            exact later (by omega) (hocc q (List.mem_cons_of_mem p hq))) hrest
          rw [List.length_cons, List.length_cons]
          omega

/-! ## The count -/

/-- No choice of occurrences that stand apart has more members than the count. -/
theorem Apart.length_le_count {part t : Text} {ps : List Nat} (hne : part ≠ []) (h : Apart part t ps) :
    ps.length ≤ count part t :=
  length_le_matchesFrom hne 0 0 (fun p _ => by omega) h.occurs h.pairwise

/-- A part is counted once if it occurs, but no two occurrences of it are disjoint. -/
theorem count_eq_one_iff {part t : Text} (hne : part ≠ []) :
    count part t = 1 ↔ (∃ p, part <+: t.drop p) ∧ ¬ OccursTwice part t := by
  constructor
  · intro hcount
    refine ⟨?_, ?_⟩
    · rw [count_eq] at hcount
      obtain ⟨p, hp⟩ := List.length_eq_one_iff.mp hcount
      exact ⟨p, (apart_matchOffsets part t).occurs p (by rw [hp]; exact List.mem_singleton_self p)⟩
    · intro htwice
      obtain ⟨p, q, hp, hq, hpq⟩ := htwice
      have htwo : Apart part t [p, q] := by
        refine ⟨?_, by simpa using hpq⟩
        intro o ho
        rcases List.mem_cons.mp ho with rfl | ho
        · exact hp
        · rw [List.mem_singleton.mp ho]
          exact hq
      have hle : 2 ≤ count part t := htwo.length_le_count hne
      omega
  · intro h
    obtain ⟨⟨p, hp⟩, hnot⟩ := h
    have hone : Apart part t [p] := ⟨by simpa using hp, List.pairwise_singleton _ _⟩
    have hge : 1 ≤ count part t := hone.length_le_count hne
    have hapart := apart_matchOffsets part t
    rw [count_eq] at hge ⊢
    rcases hms : matchOffsets (partSize? part) t with _ | ⟨a, _ | ⟨b, rest⟩⟩
    · rw [hms] at hge
      exact absurd hge (by decide)
    · rfl
    · rw [hms] at hapart
      have hab := (List.pairwise_cons.mp hapart.pairwise).1 b List.mem_cons_self
      exact absurd ⟨a, b, hapart.occurs a (by simp), hapart.occurs b (by simp), hab⟩ hnot

end LiveEdit.Text
