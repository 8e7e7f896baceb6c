/-
  LiveEdit.Proofs.Edit.Assignment — an attribute's name with its equals sign, as the edits read it.
-/

import Mathlib.Data.List.TakeWhile
import LiveEdit.Edit.TagEdit
import LiveEdit.Proofs.Markup.TopLevel

namespace LiveEdit

/-- A text cut at its first character outside of `p`. -/
theorem cut_of_dropWhile {p : Char → Bool} {t rest : Text} {c : Char} (h : t.dropWhile p = c :: rest) :
    ∃ inside, t.takeWhile p = inside ∧ inside.all p = true ∧ p c = false ∧ t = inside ++ c :: rest := by
  refine ⟨t.takeWhile p, rfl, List.all_eq_true.mpr fun _ => List.mem_takeWhile_imp, ?_, ?_⟩
  · have hc := List.head?_dropWhile_not p t
    simpa [h] using hc
  · rw [← h, List.takeWhile_append_dropWhile]

namespace TagEdit

/-- A name, an equals sign, and blanks around the sign. -/
inductive Assigns (name : Text) : Text → Prop
  | intro {gap gap' : Text} (hg : gap.all Text.isBlank = true) (hg' : gap'.all Text.isBlank = true) :
      Assigns name (name ++ gap ++ '=' :: gap')

theorem isBlank_ne_backslash {c : Char} (h : Text.isBlank c = true) : c ≠ '\\' := by
  rintro rfl
  exact absurd h (by decide)

/-- The last character is the equals sign or a blank. -/
theorem Assigns.concat {name assign : Text} (h : Assigns name assign) :
    ∃ front c, assign = front ++ [c] ∧ c ≠ '\\' := by
  obtain ⟨hg, hg'⟩ := h
  rename_i gap gap'
  rcases List.eq_nil_or_concat gap' with rfl | ⟨blanks, c, rfl⟩
  · exact ⟨name ++ gap, '=', rfl, by decide⟩
  · refine ⟨name ++ gap ++ '=' :: blanks, c, by simp, isBlank_ne_backslash ?_⟩
    exact List.all_eq_true.mp hg' c (by simp)

theorem isPlain_of_isBlank {c : Char} (h : Text.isBlank c = true) : Markup.Scan.isPlain c = true := by
  have hne : ∀ d, Text.isBlank d = false → c ≠ d := by
    rintro d hd rfl
    rw [h] at hd
    cases hd
  simp [Markup.Scan.isPlain, Markup.Scan.isQuote, hne '\'' (by decide), hne '"' (by decide),
    hne '\x60' (by decide), hne '\x7b' (by decide), hne '\x7d' (by decide)]

theorem Assigns.isPlain {name assign : Text} (h : Assigns name assign)
    (hn : name.all Markup.Scan.isPlain = true) : assign.all Markup.Scan.isPlain = true := by
  obtain ⟨hg, hg'⟩ := h
  have blanks : ∀ {gap : Text}, gap.all Text.isBlank = true → gap.all Markup.Scan.isPlain = true :=
    fun hg => List.all_eq_true.mpr fun c hc => isPlain_of_isBlank (List.all_eq_true.mp hg c hc)
  have hsign : Markup.Scan.isPlain '=' = true := by decide
  simp only [List.all_append, List.all_cons, hn, blanks hg, blanks hg', hsign, Bool.and_true]

/-- What is left is the value, with nothing blank before it. -/
theorem assigns_of_afterAssignment? {name t value : Text} (h : afterAssignment? name t = some value) :
    ∃ assign, Assigns name assign ∧ t = assign ++ value := by
  unfold afterAssignment? at h
  split at h
  · rename_i rest hrest
    obtain ⟨u, hu, hd⟩ := Option.map_eq_some_iff.mp hrest
    cases h
    obtain ⟨gap, -, hg, -, rfl⟩ := cut_of_dropWhile hd
    have hg' : (rest.takeWhile Text.isBlank).all Text.isBlank = true :=
      List.all_eq_true.mpr fun _ => List.mem_takeWhile_imp
    refine ⟨_, .intro hg hg', ?_⟩
    rw [Text.afterStart?_eq_some_iff.mp hu]
    simp [List.takeWhile_append_dropWhile]
  · cases h

/-- What is left behind a name, blanks and an equals sign. -/
theorem afterAssignment?_append {gap : Text} (hg : gap.all Text.isBlank = true) (name rest : Text) :
    afterAssignment? name (name ++ gap ++ '=' :: rest) = some (rest.dropWhile Text.isBlank) := by
  have hname : Text.afterStart? name (name ++ gap ++ '=' :: rest) = some (gap ++ '=' :: rest) := by
    rw [Text.afterStart?_eq_some_iff, List.append_assoc]
  have hdrop : (gap ++ '=' :: rest).dropWhile Text.isBlank = '=' :: rest := by
    rw [List.dropWhile_append_of_pos fun c hc => List.all_eq_true.mp hg c hc]
    rfl
  rw [afterAssignment?, hname, Option.map_some, hdrop]
  rfl

/-- Whether something is assigned to a name shows up to the equals sign. -/
theorem afterAssignment?_isSome_iff {name t : Text} :
    (afterAssignment? name t).isSome = true ↔ ∃ gap, gap.all Text.isBlank = true ∧ name ++ gap ++ ['='] <+: t := by
  constructor
  · intro h
    obtain ⟨value, hvalue⟩ := Option.isSome_iff_exists.mp h
    obtain ⟨assign, ⟨hg, -⟩, rfl⟩ := assigns_of_afterAssignment? hvalue
    rename_i gap gap'
    exact ⟨gap, hg, gap' ++ value, by simp⟩
  · intro h
    obtain ⟨gap, hg, rest, rfl⟩ := h
    have hsplit : name ++ gap ++ ['='] ++ rest = name ++ gap ++ '=' :: rest := by simp
    rw [hsplit, afterAssignment?_append hg]
    rfl

/-- In front of a name with its equals sign the name is assigned to just where it would be with blanks between
the two. -/
theorem assigned_in_front {name front gap : Text} (hgap : gap.all Text.isBlank = true)
    {rest rest' : Text} (h : (afterAssignment? name (front ++ (name ++ '=' :: rest'))).isSome = true) :
    (afterAssignment? name (front ++ (name ++ gap ++ '=' :: rest))).isSome = true := by
  obtain ⟨gap', hgap', hprefix⟩ := afterAssignment?_isSome_iff.mp h
  rw [← List.append_assoc] at hprefix
  refine afterAssignment?_isSome_iff.mpr ?_
  rcases List.prefix_or_prefix_of_prefix hprefix (List.prefix_append (front ++ name) _) with hshort | ⟨more, hmore⟩
  · exact ⟨gap', hgap', hshort.trans ⟨gap ++ '=' :: rest, by simp⟩⟩
  · -- The assignment reaches the equals sign, which can only be its own.
    rw [← hmore, List.prefix_append_right_inj] at hprefix
    rcases more with _ | ⟨c, more⟩
    · exact ⟨gap', hgap', ⟨gap ++ '=' :: rest, by rw [← hmore]; simp⟩⟩
    obtain ⟨rfl, -⟩ := List.cons_prefix_cons.mp hprefix
    rcases List.eq_nil_or_concat more with rfl | ⟨init, d, rfl⟩
    · have hsame : front ++ name = name ++ gap' := List.append_cancel_right hmore
      refine ⟨gap' ++ gap, by rw [List.all_append, hgap', hgap]; rfl, rest, ?_⟩
      simp only [← List.append_assoc, ← hsame]
      simp
    · have hinit : front ++ name ++ '=' :: init = name ++ gap' := by
        rw [List.concat_eq_append, ← List.cons_append, ← List.append_assoc] at hmore
        exact (List.append_inj' hmore rfl).1
      obtain ⟨blanks, hblanks⟩ := List.prefix_of_prefix_length_le (List.prefix_append name gap')
        (hinit ▸ List.prefix_append (front ++ name) _) (by simp)
      rw [← hblanks, List.append_assoc, List.append_cancel_left_eq] at hinit
      have hsign : '=' ∈ gap' := by simp [← hinit]
      exact absurd (List.all_eq_true.mp hgap' _ hsign) (by decide)

end TagEdit

end LiveEdit
