/-
  LiveEdit.Proofs.Edit.Decline — when an edit of a tag comes to nothing.

  The search counts lines, not tags: of two tags that bear the evidence on their own, the edit takes the first
  one if they begin on one line, and declines if they begin on different ones
  (`apply_declines_iff_of_strong_tags`).
-/

import LiveEdit.Edit.AttributeEdit
import LiveEdit.Edit.StyleEdit
import LiveEdit.Proofs.Edit.EditedTag

namespace LiveEdit

open Markup

namespace Candidate

variable {settings : Settings} {lines : List Text} {element : Element}

/-- The tag that begins at a character of a line, as far as the block of the line holds it. -/
def tagAt (settings : Settings) (lines : List Text) (element : Element) (place : Nat × Nat) : OpeningTag :=
  OpeningTag.ofOffset (Text.lower element.tagName).length (TagBlock.read settings lines place.1).text place.2

/-- At a character of a line the element's tag begins, and this tag alone bears enough evidence. -/
structure StrongTag (settings : Settings) (lines : List Text) (element : Element) (place : Nat × Nat) : Prop where
  starts : (tagStart? (Text.lower element.tagName) ((lines.getD place.1 []).drop place.2)).isSome = true
  carries : (Evidence.score (tagAt settings lines element place).head
    (Evidence.rank settings element.attributes)).2 ≠ []
  scores : (settings.minScore : Int) ≤ (Evidence.score (tagAt settings lines element place).head
    (Evidence.rank settings element.attributes)).1

/-- A line with enough evidence for the element. -/
abbrev StrongFor (settings : Settings) (lines : List Text) (element : Element) (index : Nat) : Prop :=
  StrongLine settings lines (Text.lower element.tagName) (Evidence.rank settings element.attributes) index

theorem rank_weight_nonneg (settings : Settings) (element : Element) :
    ∀ a ∈ Evidence.rank settings element.attributes, 0 ≤ a.weight := fun a ha => by
  have := Evidence.rank_weight ha
  omega

/-- What a tag bears, the block around it bears too. -/
theorem StrongTag.strongFor {place : Nat × Nat} (h : StrongTag settings lines element place) :
    StrongFor settings lines element place.1 := by
  have hin : (tagAt settings lines element place).head <:+: (TagBlock.read settings lines place.1).text := by
    have hw := OpeningTag.whole_ofOffset (Text.lower element.tagName).length
      (TagBlock.read settings lines place.1).text place.2
    exact ⟨_, _, hw⟩
  refine ⟨?_, Evidence.score_ne_nil hin h.carries,
    Int.le_trans h.scores (Evidence.score_mono hin (rank_weight_nonneg settings element))⟩
  have ho : place.2 < (lines.getD place.1 []).length := by
    refine Classical.byContradiction fun hge => ?_
    have hs := h.starts
    rw [List.drop_eq_nil_of_le (by omega)] at hs
    simp [tagStart?, Text.afterStartIgnoringCase?] at hs
  have hne := Text.matchOffsets_ne_nil ho h.starts
  simpa [hasTagStart, tagOffsets, List.isEmpty_iff] using hne

/-- An edit of the tag at the line `index` comes to nothing, given the search around `line`: another line of the
window is strong, or no tag of the block holds all that the block holds, or the edit declines the first that
does. -/
def Declines (settings : Settings) (lines : List Text) (element : Element) (line index : Nat)
    (edit : OpeningTag → Option TagEdit) : Prop :=
  (∃ other, other ≠ index ∧ InWindow settings lines line other ∧ StrongFor settings lines element other) ∨
    ∀ tag, (atLine settings lines (Evidence.rank settings element.attributes) index).openingTag? settings element =
      some tag → edit tag = none

theorem rank_ne_nil_of_strong {index : Nat} (h : StrongFor settings lines element index) :
    Evidence.rank settings element.attributes ≠ [] := by
  intro he
  have hc := h.carries
  rw [he] at hc
  exact hc rfl

/-- Around a line with one strong line in its window, the edit comes to nothing for one of two reasons. -/
theorem apply_declines_iff {content : Text} {edit : OpeningTag → Option TagEdit} {line index : Nat}
    (htag : element.tagName ≠ []) (hin : InWindow settings (Text.lines content) line index)
    (hs : StrongFor settings (Text.lines content) element index) :
    TagEdit.apply settings content (.ok line) element edit = .ok none ↔
      Declines settings (Text.lines content) element line index edit := by
  have hrank := rank_ne_nil_of_strong hs
  rw [TagEdit.apply_eq_none_iff, locate_ok settings (Text.lines content) line htag]
  simp only [List.isEmpty_iff, hrank, if_false, Except.ok.injEq, exists_eq_left']
  constructor
  · intro hdecline
    by_cases hother : ∃ other, other ≠ index ∧ InWindow settings (Text.lines content) line other ∧
        StrongFor settings (Text.lines content) element other
    · exact .inl hother
    · refine .inr fun tag => hdecline _ (unique?_eq_some_iff.mpr ⟨index, hin, hs, rfl, fun other ho hso => ?_⟩) tag
      exact Classical.byContradiction fun hne => hother ⟨other, hne, ho, hso⟩
  · intro hdecline c hc tag htag
    obtain ⟨found, -, -, rfl, honly⟩ := unique?_eq_some_iff.mp hc
    have hfound : index = found := honly index hin hs
    subst hfound
    rcases hdecline with ⟨other, hne, ho, hso⟩ | hedit
    · exact absurd (honly other ho hso) hne
    · exact hedit tag htag

/-- Two different tags of the element begin in the window, and each of them alone bears enough evidence. -/
structure Ambiguous (settings : Settings) (lines : List Text) (element : Element) (line : Nat) (p q : Nat × Nat) :
    Prop where
  different : p ≠ q
  first : InWindow settings lines line p.1 ∧ StrongTag settings lines element p
  second : InWindow settings lines line q.1 ∧ StrongTag settings lines element q

/-- Of two tags on different lines neither is edited. Of two on one line one may be: the edit comes to nothing
only for the reasons that hold of a single tag. -/
theorem Ambiguous.apply_declines_iff {content : Text} {line : Nat} {p q : Nat × Nat}
    (h : Ambiguous settings (Text.lines content) element line p q) (htag : element.tagName ≠ [])
    (edit : OpeningTag → Option TagEdit) :
    TagEdit.apply settings content (.ok line) element edit = .ok none ↔
      p.1 ≠ q.1 ∨ Declines settings (Text.lines content) element line p.1 edit := by
  rw [Candidate.apply_declines_iff htag h.first.1 h.first.2.strongFor]
  constructor
  · exact .inr
  · rintro (hne | hd)
    · exact .inl ⟨q.1, fun he => hne he.symm, h.second.1, h.second.2.strongFor⟩
    · exact hd

end Candidate

open Candidate

/-- With two tags that bear the evidence near a line, a style or attribute edit comes to nothing if they begin on
different lines. If they begin on one line, it does so only when another line is strong too, when the block has
no tag with all that the block bears, or when that tag itself cannot be edited. -/
theorem apply_declines_iff_of_strong_tags (settings : Settings) (content : Text) (element : Element) (v : Value)
    {line : Nat} {p q : Nat × Nat} (htag : element.tagName ≠ [])
    (hline : Line.clamp (Text.lines content).length v = .ok line)
    (h : Ambiguous settings (Text.lines content) element line p q) :
    (∀ css, css ≠ [] →
      (StyleEdit.apply settings content (Line.clamp (Text.lines content).length v) element css = .ok none ↔
        p.1 ≠ q.1 ∨ Declines settings (Text.lines content) element line p.1
          (StyleEdit.ofTag? (Style.ofChanges css)))) ∧
    ∀ name value,
      (AttributeEdit.apply settings content (Line.clamp (Text.lines content).length v) element name value = .ok none ↔
        p.1 ≠ q.1 ∨ Declines settings (Text.lines content) element line p.1 (AttributeEdit.ofTag? name value)) := by
  rw [hline]
  refine ⟨fun css hcss => ?_, fun name value => h.apply_declines_iff htag _⟩
  rw [StyleEdit.apply, if_neg (by simpa using hcss)]
  exact h.apply_declines_iff htag _

/-- A link of which a page may have more than one. -/
def twinLink : Element := { tagName := "a".toList, attributes := [("href".toList, "/x".toList)] }

/-- Of two such links on two lines none is edited. -/
theorem links_on_two_lines_decline :
    let content := "<a href='/x'/>\n<a href='/x'/>".toList
    let line := Line.clamp (Text.lines content).length (.int 1)
    twinLink.tagName ≠ [] ∧ line = .ok 1 ∧ Ambiguous {} (Text.lines content) twinLink 1 (0, 0) (1, 0) ∧
      StyleEdit.apply {} content line twinLink [("color".toList, "red".toList)] = .ok none ∧
      AttributeEdit.apply {} content line twinLink "href".toList "/y".toList = .ok none := by
  intro content line
  have htag : twinLink.tagName ≠ [] := by decide
  have hline : line = .ok 1 := by rfl
  have h : Ambiguous {} (Text.lines content) twinLink 1 (0, 0) (1, 0) := {
    different := by decide
    first := ⟨⟨by decide, by decide⟩, ⟨by decide, by decide, by decide⟩⟩
    second := ⟨⟨by decide, by decide⟩, ⟨by decide, by decide, by decide⟩⟩ }
  have hboth := apply_declines_iff_of_strong_tags {} content twinLink (.int 1) htag hline h
  exact ⟨htag, hline, h, (hboth.1 _ (by decide)).mpr (.inl (by decide)), (hboth.2 _ _).mpr (.inl (by decide))⟩

/-- Of two such links on one line the first is edited, although the second bears the same evidence. -/
theorem links_on_one_line_edited :
    let content := "<a href='/x'/><a href='/x'/>".toList
    let line := Line.clamp (Text.lines content).length (.int 1)
    twinLink.tagName ≠ [] ∧ line = .ok 1 ∧ Ambiguous {} (Text.lines content) twinLink 1 (0, 0) (0, 14) ∧
      StyleEdit.apply {} content line twinLink [("color".toList, "red".toList)] =
        .ok (some "<a style=\x7b\x7b color: 'red' \x7d\x7d href='/x'/><a href='/x'/>".toList) ∧
      AttributeEdit.apply {} content line twinLink "href".toList "/y".toList =
        .ok (some "<a href='/y'/><a href='/x'/>".toList) := by
  refine ⟨by decide, by rfl, ?_, by rfl, by rfl⟩
  exact {
    different := by decide
    first := ⟨⟨by decide, by decide⟩, ⟨by decide, by decide, by decide⟩⟩
    second := ⟨⟨by decide, by decide⟩, ⟨by decide, by decide, by decide⟩⟩ }

end LiveEdit
