/-
  LiveEdit.Proofs.TextEdit.SingleOccurrence — text edits without a line to look around.

  A value that names no line leaves the whole document to search. There an edit is made only if no two occurrences
  of the text are disjoint, although the test is a count from the left and the edit replaces every match: one
  enclosed occurrence is replaced, and nothing else (`apply_without_line_replaces_one`).
-/

import LiveEdit.Proofs.Text.Count
import LiveEdit.Proofs.TextEdit.Specification

namespace LiveEdit

/-! ## Values that name no line -/

/-- The value is no number, a mere yes or no, zero, or not finite. -/
def Line.NamesNoLine (line : Value) : Prop :=
  ∃ found, Line.position? line = .ok found ∧ ∀ x, found = some x → x.isFinite = false ∨ x.isZero = true

theorem Line.isUsable_eq_false_iff {line : Value} : Line.isUsable line = .ok false ↔ Line.NamesNoLine line := by
  unfold Line.isUsable Line.NamesNoLine
  rw [map_eq_ok_iff]
  refine exists_congr fun found => and_congr_right fun _ => ?_
  cases found with
  | none => simp
  | some x => cases hf : x.isFinite <;> simp [hf]

namespace TextEdit

/-- Without a line only the whole document is searched. -/
theorem apply_of_namesNoLine (settings : Settings) (content old new : Text) {line : Value}
    (h : Line.NamesNoLine line) :
    apply settings content old new line = .ok (if old = [] ∨ old = new then none else inWhole? content old new) := by
  have hu := Line.isUsable_eq_false_iff.mpr h
  have hw : windowLine? content line = .ok none := bind_eq_ok_iff.mpr ⟨false, hu, rfl⟩
  by_cases hskip : old = [] ∨ old = new
  · rw [apply, if_pos (by simpa using hskip), if_pos hskip]
  · have hat : atLine? settings content old new none = inWhole? content old new := by
      rw [atLine?, if_neg (by simpa using hskip)]
      rfl
    rw [apply, if_neg (by simpa using hskip), if_neg hskip, hw, ← hat]
    rfl

/-! ## One occurrence -/

variable {old t : Text} {kind : Enclosure}

/-- The occurrences that are replaced stand apart from each other. -/
theorem apart_hits (old : Text) (kind : Enclosure) (t : Text) :
    Text.Apart old t ((hitsFrom old 0 (pieces old kind 0 t)).map occurrence) := by
  have hleft := leftmost_pieces old kind t 0
  rw [List.drop_zero] at hleft
  refine ⟨?_, hleft.pairwise⟩
  intro p hp
  obtain ⟨m, hm, rfl⟩ := List.mem_map.mp hp
  exact (hleft.matchAt m hm).isPrefix_occurrence

/-- Where the text is counted once, all the matches are one, and only its occurrence is replaced. -/
theorem render_of_count_eq_one (hne : old ≠ []) (hcount : Text.count old t = 1) (ho : Occurs old kind t) (new : Text) :
    ∃ i h, MatchAt old kind t i h ∧
      render new (pieces old kind 0 t) =
        t.take (occurrence (i, h)) ++ new ++ t.drop (occurrence (i, h) + old.length) := by
  have hleft := leftmost_pieces old kind t 0
  have hrender := render_pieces_eq_substitute old new kind t 0
  have hle := (apart_hits old kind t).length_le_count hne
  rw [List.drop_zero] at hleft hrender
  rw [List.length_map, hcount] at hle
  rcases hms : hitsFrom old 0 (pieces old kind 0 t) with _ | ⟨m, _ | ⟨n, rest⟩⟩
  · exact absurd ho (hleft.eq_nil_iff.mp hms)
  · rw [hms] at hleft hrender
    refine ⟨m.1, m.2, hleft.matchAt m List.mem_cons_self, ?_⟩
    rw [hrender]
    simp [substitute]
  · rw [hms, List.length_cons, List.length_cons] at hle
    omega

theorem inWhole?_isSome_iff {content new : Text} (hempty : old ≠ []) (hne : old ≠ new) :
    (inWhole? content old new).isSome = true ↔ Enclosed old content ∧ ¬ Text.OccursTwice old content := by
  have hfound : (replaceIn? old new content).isSome = true ↔ Enclosed old content := by
    rw [Option.isSome_iff_ne_none, ne_eq, replaceIn?_eq_none_iff hne, Classical.not_not]
  unfold inWhole?
  by_cases hcount : Text.count old content = 1
  · rw [if_pos hcount, hfound]
    exact ⟨fun he => ⟨he, ((Text.count_eq_one_iff hempty).mp hcount).2⟩, And.left⟩
  · rw [if_neg hcount]
    refine ⟨fun h => absurd h (by simp), fun h => ?_⟩
    obtain ⟨⟨kind, i, hit, hmatch⟩, hnot⟩ := h
    exact absurd ((Text.count_eq_one_iff hempty).mpr ⟨⟨_, hmatch.isPrefix_occurrence⟩, hnot⟩) hcount

/-- An edit with a value that names no line succeeds just when the text is enclosed somewhere and no two of its
occurrences are disjoint. It puts the new text in the place of one occurrence and keeps all else. -/
theorem apply_without_line_replaces_one (settings : Settings) (content old new : Text) {line : Value}
    (hline : Line.NamesNoLine line) :
    ∃ result, apply settings content old new line = .ok result ∧
      (result.isSome = true ↔
        old ≠ [] ∧ old ≠ new ∧ Enclosed old content ∧ ¬ Text.OccursTwice old content) ∧
      ∀ r, result = some r → ¬ Text.OccursTwice old content ∧
        ∃ p, old <+: content.drop p ∧ r = content.take p ++ new ++ content.drop (p + old.length) := by
  refine ⟨_, apply_of_namesNoLine settings content old new hline, ?_⟩
  by_cases hskip : old = [] ∨ old = new
  · rw [if_pos hskip]
    refine ⟨?_, by simp⟩
    rcases hskip with h | h
    · simp [h]
    · simp [h]
  obtain ⟨hempty, hne⟩ := not_or.mp hskip
  rw [if_neg hskip]
  have hsome : (inWhole? content old new).isSome = true ↔ _ := inWhole?_isSome_iff hempty hne
  refine ⟨by simp [hsome, hempty, hne], ?_⟩
  intro r hr
  refine ⟨(hsome.mp (by rw [hr]; rfl)).2, ?_⟩
  have hcount : Text.count old content = 1 := by
    by_cases h : Text.count old content = 1
    · exact h
    · rw [inWhole?, if_neg h] at hr
      cases hr
  rw [inWhole?, if_pos hcount] at hr
  obtain ⟨kind, hkind, rfl⟩ := firstKind_of_replaceIn? hne hr
  obtain ⟨i, h, hmatch, hrender⟩ := render_of_count_eq_one hempty hcount hkind.1 new
  exact ⟨_, hmatch.isPrefix_occurrence, hrender⟩

/-- Of three blanks between tags two are replaced: they occur at two places, but these overlap. -/
theorem overlapping_blanks_replaced_once :
    Line.NamesNoLine (.str "abc".toList) ∧
      apply {} ">   <".toList "  ".toList "x".toList (.str "abc".toList) = .ok (some "> x<".toList) ∧
      ¬ Text.OccursTwice "  ".toList ">   <".toList ∧
      ∃ p, "  ".toList <+: ">   <".toList.drop p ∧
        "> x<".toList = ">   <".toList.take p ++ "x".toList ++ ">   <".toList.drop (p + "  ".toList.length) := by
  have hline : Line.NamesNoLine (.str "abc".toList) := Line.isUsable_eq_false_iff.mp rfl
  have hedit : apply {} ">   <".toList "  ".toList "x".toList (.str "abc".toList) = .ok (some "> x<".toList) := by rfl
  obtain ⟨result, hresult, -, hall⟩ :=
    apply_without_line_replaces_one {} ">   <".toList "  ".toList "x".toList hline
  exact ⟨hline, hedit, hall _ (Except.ok.inj (hresult.symm.trans hedit))⟩

end TextEdit

end LiveEdit
