/-
  LiveEdit.Proofs.Edit.MatchedName — what the names say that a candidate reports.

  A name counts as evidence where an equals sign follows it, also at the end of a longer name. So a reported name
  is one in which the name of some attribute of the block ends. It is itself the name of an attribute unless it
  stands in longer names throughout (`matched_name_ends_assigned`).
-/

import Mathlib.Data.List.DropRight
import LiveEdit.Proofs.Edit.TagEvidence

namespace LiveEdit

namespace Evidence

/-- A character that a longer name could hold. -/
def isNamePart (c : Char) : Bool := Text.isWord c || c = ':' || c = '-'

/-- The name stands in the markup as a whole name, and an equals sign right behind it. -/
def AssignsName (markup name : Text) : Prop :=
  ∃ front back, markup = front ++ name ++ '=' :: back ∧ TagEdit.startsName front.getLast? = true

/-- The value, its beginning, or its beginning up to the kind of blanks stands somewhere in the markup. -/
def HoldsValue (markup value : Text) : Prop :=
  value <:+: markup ∨ value.take (prefixLength value) <:+: markup ∨
    collapsedStart value ≠ [] ∧ collapsedStart value <:+: Text.collapse markup

theorem startsName_concat (front : Text) (c : Char) :
    TagEdit.startsName (front ++ [c]).getLast? = !isNamePart c := by
  rw [List.getLast?_concat]
  rfl

/-- A text ends in a part of a name, perhaps an empty one, and a name begins in front of it. -/
theorem exists_name_start (front : Text) :
    ∃ shorter more, front = shorter ++ more ∧ more.all isNamePart = true ∧
      TagEdit.startsName shorter.getLast? = true := by
  refine ⟨front.rdropWhile isNamePart, front.rtakeWhile isNamePart, ?_, ?_, ?_⟩
  · rw [List.rdropWhile_append_rtakeWhile]
  · exact List.all_eq_true.mpr fun c hc => List.mem_rtakeWhile_imp hc
  · rcases List.eq_nil_or_concat (front.rdropWhile isNamePart) with h | ⟨shorter, c, h⟩
    · rw [h]
      rfl
    · have hne : front.rdropWhile isNamePart ≠ [] := by rw [h]; simp
      have hlast := List.rdropWhile_last_not isNamePart front hne
      simp only [h, List.concat_eq_append, List.getLast_concat] at hlast
      rw [h, List.concat_eq_append, startsName_concat]
      simpa using hlast

/-- Where a part of a name ends a text, no name begins behind it. -/
theorem startsName_append {more : Text} (shorter : Text) (hmore : more.all isNamePart = true) (hne : more ≠ []) :
    TagEdit.startsName (shorter ++ more).getLast? = false := by
  rcases List.eq_nil_or_concat more with rfl | ⟨init, c, rfl⟩
  · exact absurd rfl hne
  · have hc : isNamePart c = true := List.all_eq_true.mp hmore c (by simp)
    rw [List.concat_eq_append, ← List.append_assoc, startsName_concat, hc]
    rfl

/-- A name with an equals sign behind it is the end of a whole name. -/
theorem occurs_assignment_iff (markup name : Text) :
    Text.occurs (name ++ ['=']) markup = true ↔
      ∃ more, more.all isNamePart = true ∧ AssignsName markup (more ++ name) := by
  rw [Text.occurs_iff_isInfix]
  constructor
  · intro h
    obtain ⟨front, back, rfl⟩ := h
    obtain ⟨shorter, more, rfl, hmore, hstart⟩ := exists_name_start front
    exact ⟨more, hmore, shorter, back, by simp, hstart⟩
  · intro h
    obtain ⟨more, -, front, back, rfl, -⟩ := h
    exact ⟨front ++ more, back, by simp⟩

theorem matchesAttribute_iff_endsName {markup name value : Text} (hname : name ≠ []) (hvalue : value ≠ []) :
    matchesAttribute markup name value = true ↔
      (∃ more, more.all isNamePart = true ∧ AssignsName markup (more ++ name)) ∧ HoldsValue markup value := by
  rw [matchesAttribute_iff, occurs_assignment_iff]
  simp only [Text.occurs_iff_isInfix]
  constructor
  · intro h
    exact ⟨h.2.2.2.1, h.2.2.2.2⟩
  · intro h
    refine ⟨?_, hname, hvalue, h⟩
    obtain ⟨⟨more, -, front, back, rfl, -⟩, -⟩ := h
    simp

/-- A ranked attribute has a name and a value. -/
theorem ne_nil_of_mem_rank {settings : Settings} {attributes : Assoc Text} {a : StableAttribute}
    (h : a ∈ rank settings attributes) : a.name ≠ [] ∧ a.value ≠ [] := by
  obtain ⟨item, -, hi⟩ := mem_rank h
  obtain ⟨hname, hvalue, -, -⟩ := (isEligible_iff settings _ _).mp (stable?_eq_some_iff.mp hi).1
  exact ⟨hname, hvalue⟩

end Evidence

namespace Candidate

open Evidence

/-- A candidate reports the names of the ranked attributes in whose names a name ends that its block assigns to, if
the block holds the value too. The block assigns to a reported name itself unless the name stands at the end of
longer names only. -/
theorem matched_name_ends_assigned (settings : Settings) (ls : List (Option Text)) (v : Value) (element : Element)
    {c : Candidate} (hc : locate settings (Text.presentLines ls) (Line.clamp ls.length v) element = .ok (some c))
    (name : Text) :
    (name ∈ c.matched ↔ ∃ a ∈ rank settings element.attributes, a.name = name ∧
      (∃ more, more.all isNamePart = true ∧ AssignsName c.block.text (more ++ name)) ∧
      HoldsValue c.block.text a.value) ∧
    (name ∈ c.matched → (¬ AssignsName c.block.text name ↔
      ∀ front back, c.block.text = front ++ name ++ '=' :: back →
        ∃ shorter more, front = shorter ++ more ∧ more ≠ [] ∧ more.all isNamePart = true ∧
          TagEdit.startsName shorter.getLast? = true)) := by
  have hmatched : c.matched = (found c.block.text (rank settings element.attributes)).map (·.name) := by
    have hscore := (score_of_locate hc).1
    rw [score, Prod.mk.injEq] at hscore
    exact hscore.2.symm
  constructor
  · rw [hmatched, List.mem_map]
    constructor
    · intro h
      obtain ⟨a, ha, rfl⟩ := h
      obtain ⟨hrank, hholds⟩ := List.mem_filter.mp ha
      obtain ⟨hname, hvalue⟩ := ne_nil_of_mem_rank hrank
      exact ⟨a, hrank, rfl, (matchesAttribute_iff_endsName hname hvalue).mp hholds⟩
    · intro h
      obtain ⟨a, hrank, rfl, hholds⟩ := h
      obtain ⟨hname, hvalue⟩ := ne_nil_of_mem_rank hrank
      exact ⟨a, List.mem_filter.mpr ⟨hrank, (matchesAttribute_iff_endsName hname hvalue).mpr hholds⟩, rfl⟩
  · intro _
    constructor
    · intro hno front back htext
      obtain ⟨shorter, more, rfl, hmore, hstart⟩ := exists_name_start front
      refine ⟨shorter, more, rfl, ?_, hmore, hstart⟩
      rintro rfl
      exact hno ⟨shorter, back, by simpa using htext, hstart⟩
    · intro hall h
      obtain ⟨front, back, htext, hstart⟩ := h
      obtain ⟨shorter, more, rfl, hne, hmore, -⟩ := hall front back htext
      rw [startsName_append shorter hmore hne] at hstart
      cases hstart

/-- An image with a source and a longer name that ends in the same letters. -/
theorem image_source_reported :
    let ls := [some "<img data-src='/y' src='/x'>".toList]
    let image : Element := { tagName := "img".toList, attributes := [("src".toList, "/x".toList)] }
    ∃ c, locate {} (Text.presentLines ls) (Line.clamp ls.length (.int 1)) image = .ok (some c) ∧
      c.matched = ["src".toList] ∧ AssignsName c.block.text "src".toList := by
  intro ls image
  let c := atLine {} (Text.presentLines ls) (rank {} image.attributes) 0
  have hc : locate {} (Text.presentLines ls) (Line.clamp ls.length (.int 1)) image = .ok (some c) := by rfl
  have hmatched : c.matched = ["src".toList] := by rfl
  obtain ⟨-, hwhole⟩ := matched_name_ends_assigned {} ls (.int 1) image hc "src".toList
  refine ⟨c, hc, hmatched, ?_⟩
  by_cases h : AssignsName c.block.text "src".toList
  · exact h
  · -- The second of the two names has a blank in front of it.
    have hall := (hwhole (by rw [hmatched]; exact List.mem_singleton_self _)).mp h
    obtain ⟨shorter, more, hfront, hne, hmore, -⟩ := hall "<img data-src='/y' ".toList "'/x'>".toList rfl
    have hblank := startsName_append shorter hmore hne
    rw [← hfront] at hblank
    exact absurd hblank (by decide)

/-- An `id` is reported as the path data `d`, which the tag does not have. -/
theorem id_reported_as_path_data :
    let ls := [some "<path id='x'>".toList]
    let path : Element := { tagName := "path".toList, attributes := [("d".toList, "x".toList)] }
    ∃ c, locate {} (Text.presentLines ls) (Line.clamp ls.length (.int 1)) path = .ok (some c) ∧
      "d".toList ∈ c.matched ∧ ¬ AssignsName c.block.text "d".toList := by
  intro ls path
  let c := atLine {} (Text.presentLines ls) (rank {} path.attributes) 0
  refine ⟨c, by rfl, by decide, ?_⟩
  intro h
  obtain ⟨front, back, htext, hstart⟩ := h
  have htext : "<path id='x'>".toList = front ++ "d".toList ++ '=' :: back := htext
  have hfront : front = "<path id='x'>".toList.take front.length := by
    rw [htext, List.append_assoc, List.take_left]
  have hat : "d=".toList <+: "<path id='x'>".toList.drop front.length := by
    rw [htext, List.append_assoc, List.drop_left]
    exact ⟨back, rfl⟩
  have hlt : front.length < "<path id='x'>".toList.length := by
    rw [htext]
    simp
  have hall : ∀ n < "<path id='x'>".toList.length, "d=".toList <+: "<path id='x'>".toList.drop n →
      TagEdit.startsName ("<path id='x'>".toList.take n).getLast? = false := by decide
  rw [hfront, hall front.length hlt hat] at hstart
  cases hstart

end Candidate

end LiveEdit
