/-
  LiveEdit.Proofs.Edit.TagEvidence — the tag that is edited bears the evidence by itself.

  The search scores whole blocks, which may hold children and neighbours of the element. The tag that is chosen in
  the block holds the very attributes that the block holds (`found_openingTag?`), so its own score is that of the
  candidate and reaches the least one (`edited_tag_bears_evidence`).
-/

import LiveEdit.Proofs.Edit.Confinement

namespace LiveEdit

open Markup

namespace Candidate

variable {settings : Settings} {element : Element} {c : Candidate} {tag : OpeningTag}

/-- The chosen tag is a part of the block. -/
theorem head_isInfix (h : c.openingTag? settings element = some tag) : tag.head <:+: c.block.text :=
  ⟨tag.before, tag.after, whole_of_openingTag? h⟩

/-- The chosen tag holds every ranked attribute whose name the candidate reports, also where several attributes
come to have one name. -/
theorem holds_of_openingTag? (h : c.openingTag? settings element = some tag) {a : StableAttribute}
    (ha : a ∈ Evidence.rank settings element.attributes) (hname : a.name ∈ c.matched) :
    Evidence.matchesAttribute tag.head a.name a.value = true := by
  unfold openingTag? at h
  have hall := List.find?_some h
  rw [List.all_eq_true] at hall
  refine hall a (List.mem_filter.mpr ⟨ha, ?_⟩)
  exact List.contains_iff_mem.mpr hname

/-- A candidate that reports what its block holds has a tag that holds the same. -/
theorem found_openingTag? (h : c.openingTag? settings element = some tag)
    (hm : c.matched = (Evidence.score c.block.text (Evidence.rank settings element.attributes)).2) :
    Evidence.found tag.head (Evidence.rank settings element.attributes) =
      Evidence.found c.block.text (Evidence.rank settings element.attributes) := by
  refine List.filter_congr ?_
  intro a ha
  rw [Bool.eq_iff_iff]
  constructor
  · intro ht
    exact Evidence.matchesAttribute_mono (head_isInfix h) ht
  · intro hb
    have hfound : a ∈ Evidence.found c.block.text (Evidence.rank settings element.attributes) :=
      List.mem_filter.mpr ⟨ha, hb⟩
    refine holds_of_openingTag? h ha ?_
    rw [hm]
    exact List.mem_map_of_mem hfound

variable {lines : List Text} {line : Except EditError Nat}

/-- The candidate that is found reports the score of its block. -/
theorem score_of_locate (h : locate settings lines line element = .ok (some c)) :
    Evidence.score c.block.text (Evidence.rank settings element.attributes) = (c.score, c.matched) ∧
      (settings.minScore : Int) ≤ c.score ∧ c.matched ≠ [] := by
  obtain ⟨n, index, -, -, hs, rfl⟩ := locate_eq_some h
  exact ⟨rfl, hs.scores, hs.carries⟩

theorem score_openingTag? (hc : locate settings lines line element = .ok (some c))
    (ht : c.openingTag? settings element = some tag) :
    Evidence.score tag.head (Evidence.rank settings element.attributes) = (c.score, c.matched) := by
  have hscore := (score_of_locate hc).1
  have hm : c.matched = (Evidence.score c.block.text (Evidence.rank settings element.attributes)).2 := by
    rw [hscore]
  rw [← hscore, Evidence.score, Evidence.score, found_openingTag? ht hm]

end Candidate

namespace TagEdit

/-- `r` is the document with a passage of the candidate's chosen tag replaced, and this tag alone holds enough
evidence for the element. -/
def EditsBearer (settings : Settings) (content : Text) (line : Except EditError Nat) (element : Element) (r : Text) :
    Prop :=
  ∃ c tag place new, Candidate.locate settings (Text.lines content) line element = .ok (some c) ∧
    c.openingTag? settings element = some tag ∧ Confined content r c tag place new ∧
    (Evidence.score tag.head (Evidence.rank settings element.attributes)).2 ≠ [] ∧
    (settings.minScore : Int) ≤ (Evidence.score tag.head (Evidence.rank settings element.attributes)).1

variable {settings : Settings} {content : Text} {line : Except EditError Nat} {element : Element}
  {edit : OpeningTag → Option TagEdit}

theorem apply_editsBearer (hedit : Within edit) {r : Text}
    (h : apply settings content line element edit = .ok (some r)) : EditsBearer settings content line element r := by
  obtain ⟨c, tag, place, new, hc, ht, hconf, -⟩ := apply_confined hedit h
  obtain ⟨-, hleast, hne⟩ := Candidate.score_of_locate hc
  refine ⟨c, tag, place, new, hc, ht, hconf, ?_, ?_⟩
  · rw [Candidate.score_openingTag? hc ht]
    exact hne
  · rw [Candidate.score_openingTag? hc ht]
    exact hleast

end TagEdit

open TagEdit

/-- The tag chosen for the candidate has by itself the candidate's score and attributes. So whatever a style or
attribute edit changes is in a tag that reaches the least score without its children and neighbours. -/
theorem edited_tag_bears_evidence (settings : Settings) (content : Text) (line : Except EditError Nat)
    (element : Element) :
    (∀ c tag, Candidate.locate settings (Text.lines content) line element = .ok (some c) →
      c.openingTag? settings element = some tag →
      Evidence.score tag.head (Evidence.rank settings element.attributes) = (c.score, c.matched)) ∧
    (∀ css r, StyleEdit.apply settings content line element css = .ok (some r) →
      EditsBearer settings content line element r) ∧
    ∀ name value r, AttributeEdit.apply settings content line element name value = .ok (some r) →
      EditsBearer settings content line element r := by
  refine ⟨?_, ?_, ?_⟩
  · intro c tag hc ht
    exact Candidate.score_openingTag? hc ht
  · intro css r h
    unfold StyleEdit.apply at h
    split at h
    · cases h
    · exact apply_editsBearer (StyleEdit.ofTag?_within _) h
  · intro name value r h
    exact apply_editsBearer (AttributeEdit.ofTag?_within name value) h

/-- A link that is told apart by its target, next to an image on its line. -/
theorem link_beside_image_bears_evidence :
    let content := "<img src='/i'/><a href='/x'>".toList
    let link : Element := { tagName := "a".toList, attributes := [("href".toList, "/x".toList)] }
    let styled := "<img src='/i'/><a style=\x7b\x7b color: 'red' \x7d\x7d href='/x'>".toList
    let moved := "<img src='/i'/><a href='/y'>".toList
    ∃ c tag, Candidate.locate {} (Text.lines content) (.ok 1) link = .ok (some c) ∧
      c.openingTag? {} link = some tag ∧
      Evidence.score tag.head (Evidence.rank {} link.attributes) = (80, ["href".toList]) ∧
      StyleEdit.apply {} content (.ok 1) link [("color".toList, "red".toList)] = .ok (some styled) ∧
      EditsBearer {} content (.ok 1) link styled ∧
      AttributeEdit.apply {} content (.ok 1) link "href".toList "/y".toList = .ok (some moved) ∧
      EditsBearer {} content (.ok 1) link moved := by
  intro content link styled moved
  obtain ⟨hscore, hstyle, hattribute⟩ := edited_tag_bears_evidence {} content (.ok 1) link
  let c := Candidate.atLine {} (Text.lines content) (Evidence.rank {} link.attributes) 0
  let tag := OpeningTag.ofOffset 1 content 15
  have hc : Candidate.locate {} (Text.lines content) (.ok 1) link = .ok (some c) := by rfl
  have ht : c.openingTag? {} link = some tag := by rfl
  have hs : StyleEdit.apply {} content (.ok 1) link [("color".toList, "red".toList)] = .ok (some styled) := by rfl
  have ha : AttributeEdit.apply {} content (.ok 1) link "href".toList "/y".toList = .ok (some moved) := by rfl
  exact ⟨c, tag, hc, ht, hscore c tag hc ht, hs, hstyle _ _ hs, ha, hattribute _ _ _ ha⟩

end LiveEdit
