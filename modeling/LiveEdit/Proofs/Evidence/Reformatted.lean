/-
  LiveEdit.Proofs.Evidence.Reformatted — a value that stands in a tag is found however the tag is laid out.

  A layout changes blanks into other blanks, which is nothing to the collapsed text. What of a value may be found up to
  the kind of blanks is a part of its collapsed text (`collapsedStart_isInfix`), and of a value that is not blank it is
  not empty (`collapsedStart_ne_nil`).
-/

import LiveEdit.Proofs.Evidence.Monotone
import LiveEdit.Proofs.Text.Strip

namespace LiveEdit

/-! ## Collapsed blanks -/

/-- What is not blank is kept. -/
theorem Text.mem_collapseFrom_iff {c : Char} (hc : isBlank c = false) (inRun : Bool) (t : Text) :
    c ∈ collapseFrom inRun t ↔ c ∈ t := by
  have hspace : c ≠ ' ' := by
    rintro rfl
    cases hc
  induction t generalizing inRun with
  | nil => rfl
  | cons d t ih =>
    rw [collapseFrom, List.mem_cons]
    by_cases hd : isBlank d = true
    · have hne : c ≠ d := by
        rintro rfl
        rw [hd] at hc
        cases hc
      cases inRun <;> simp [hd, hne, hspace, ih]
    · simp [hd, ih]

namespace Evidence

/-! ## Values -/

theorem collapsedStart_isInfix (value : Text) : collapsedStart value <:+: Text.collapse value :=
  (List.take_prefix _ _).isInfix.trans (Text.strip_isInfix _)

theorem collapsedStart_ne_nil {value : Text} (h : ∃ c ∈ value, Text.isBlank c = false) : collapsedStart value ≠ [] := by
  obtain ⟨c, hmem, hc⟩ := h
  have hkept : c ∈ Text.strip (Text.collapse value) :=
    (Text.mem_strip_iff hc).mpr ((Text.mem_collapseFrom_iff hc false value).mpr hmem)
  have hlength : 0 < prefixLength value := by
    unfold prefixLength
    omega
  rw [collapsedStart, ← List.length_pos_iff, List.length_take]
  have := List.length_pos_of_mem hkept
  omega

/-- A value that is not blank and stands in a tag is found in every other layout of the tag, if a value is assigned to
the attribute there. -/
theorem matchesAttribute_reformatted {written reformatted name value : Text} (hname : name ≠ [])
    (hvalue : ∃ c ∈ value, Text.isBlank c = false) (hsame : Text.collapse written = Text.collapse reformatted)
    (hassigned : name ++ ['='] <:+: reformatted) (hstands : value <:+: written) :
    matchesAttribute reformatted name value = true := by
  rw [matchesAttribute_iff]
  have hmarkup : reformatted ≠ [] := by
    rintro rfl
    simp at hassigned
  have hne : value ≠ [] := by
    rintro rfl
    simp at hvalue
  refine ⟨hmarkup, hname, hne, (Text.occurs_iff_isInfix _ _).mpr hassigned, .inr (.inr ?_)⟩
  refine ⟨collapsedStart_ne_nil hvalue, (Text.occurs_iff_isInfix _ _).mpr ?_⟩
  rw [← hsame]
  exact (collapsedStart_isInfix value).trans (Text.collapse_isInfix hstands)

/-- Path data that begins and ends within runs of blanks of the first layout, and is wrapped elsewhere in the second. -/
theorem rewrapped_path_found :
    let written := "<path d='M1  2\n L3\t4 '>".toList
    let reformatted := "<path d='M1\n  2 L3 4\n'>".toList
    let value := " 2\n L3\t4 ".toList
    (∃ c ∈ value, Text.isBlank c = false) ∧ Text.collapse written = Text.collapse reformatted ∧
      value <:+: written ∧ ¬ value <:+: reformatted ∧ matchesAttribute reformatted "d".toList value = true := by
  intro written reformatted value
  have hvalue : ∃ c ∈ value, Text.isBlank c = false := ⟨'2', by decide, by decide⟩
  have hsame : Text.collapse written = Text.collapse reformatted := by decide +kernel
  have hassigned : "d".toList ++ ['='] <:+: reformatted := ⟨"<path ".toList, "'M1\n  2 L3 4\n'>".toList, by rfl⟩
  have hstands : value <:+: written := ⟨"<path d='M1 ".toList, "'>".toList, by rfl⟩
  have habsent : ¬ value <:+: reformatted := by
    rw [← Text.occurs_iff_isInfix]
    decide
  exact ⟨hvalue, hsame, hstands, habsent,
    matchesAttribute_reformatted (by decide) hvalue hsame hassigned hstands⟩

end Evidence

end LiveEdit
