/-
  LiveEdit.Proofs.Edit.EditedTag — where the edit of a tag stands in the document.

  The element's opening tag is a part of its block and the block a part of the document (`whole_of_openingTag?`,
  `block_in_document`), so an edit that changes the document replaces a passage of the tag and nothing else
  (`apply_replaces`).
-/

import LiveEdit.Edit.TagEdit
import LiveEdit.Proofs.Edit.UniqueCandidate
import LiveEdit.Proofs.Markup.TagBlock

namespace LiveEdit

open Markup

/-! ## The block in the document -/

namespace Candidate

theorem splice_eq (c : Candidate) (lines : List Text) (t : Text) :
    c.splice lines t = Text.above (lines.take c.start) ++ t ++ Text.below (lines.drop (c.start + c.block.height)) :=
  Text.unlines_lines_around _ _ _

/-- The block at a line of the document, between the lines above and below it. -/
theorem atLine_in_lines (settings : Settings) {lines : List Text} (attributes : List StableAttribute) {index : Nat}
    (h : index < lines.length) :
    let c := atLine settings lines attributes index
    c.block.lines ≠ [] ∧ lines.take c.start ++ c.block.lines ++ lines.drop (c.start + c.block.height) = lines := by
  refine ⟨blockLines_ne_nil settings.tagBlockMaxLines.property (by simpa using h), ?_⟩
  obtain ⟨rest, hrest⟩ := blockLines_isPrefix settings.tagBlockMaxLines.val (lines.drop index)
  have hdrop : lines.drop (index + (blockLines settings.tagBlockMaxLines.val (lines.drop index)).length) = rest := by
    rw [← List.drop_drop]
    exact (congrArg (List.drop _) hrest).symm.trans List.drop_left
  show lines.take index ++ blockLines settings.tagBlockMaxLines.val (lines.drop index) ++
    lines.drop (index + (blockLines settings.tagBlockMaxLines.val (lines.drop index)).length) = lines
  rw [hdrop, List.append_assoc, hrest, List.take_append_drop]

variable {settings : Settings} {lines : List Text} {element : Element}

theorem locate_eq_some {line : Except EditError Nat} {c : Candidate}
    (h : locate settings lines line element = .ok (some c)) :
    ∃ n index, line = .ok n ∧ InWindow settings lines n index ∧
      StrongLine settings lines (Text.lower element.tagName) (Evidence.rank settings element.attributes) index ∧
      c = atLine settings lines (Evidence.rank settings element.attributes) index := by
  unfold locate at h
  simp only at h
  split at h
  · cases h
  · split at h
    · cases h
    · cases line with
      | error e => cases h
      | ok n =>
        obtain ⟨index, hw, hs, hc, -⟩ := unique?_eq_some_iff.mp (Except.ok.inj h)
        exact ⟨n, index, rfl, hw, hs, hc⟩

/-- The document is the lines above the block, the block's text, and the lines below. -/
theorem block_in_document {content : Text} {line : Except EditError Nat} {c : Candidate}
    (h : locate settings (Text.lines content) line element = .ok (some c)) :
    Text.above ((Text.lines content).take c.start) ++ c.block.text ++
      Text.below ((Text.lines content).drop (c.start + c.block.height)) = content := by
  obtain ⟨n, index, -, hw, -, rfl⟩ := locate_eq_some h
  have hlt : index < (Text.lines content).length := Nat.lt_of_lt_of_le hw.2 (Nat.min_le_left _ _)
  obtain ⟨hne, hl⟩ := atLine_in_lines settings (Evidence.rank settings element.attributes) hlt
  exact (Text.whole_around hne hl).trans (Text.unlines_lines content)

/-! ## The tag in the block -/

/-- The tag that is edited is one of the element's tags in the block. -/
theorem mem_openingTags {c : Candidate} {tag : OpeningTag} (h : c.openingTag? settings element = some tag) :
    ∃ o ∈ tagOffsets (Text.strip element.tagName) c.block.text,
      tag = OpeningTag.ofOffset (Text.strip element.tagName).length c.block.text o := by
  unfold openingTag? at h
  obtain ⟨o, ho, he⟩ := List.mem_map.mp (List.mem_of_find?_eq_some h)
  exact ⟨o, ho, he.symm⟩

theorem whole_of_openingTag? {c : Candidate} {tag : OpeningTag} (h : c.openingTag? settings element = some tag) :
    tag.whole = c.block.text := by
  obtain ⟨o, -, rfl⟩ := mem_openingTags h
  exact OpeningTag.whole_ofOffset _ _ _

theorem afterStartIgnoringCase?_eq {pattern t rest : Text} (h : Text.afterStartIgnoringCase? pattern t = some rest) :
    rest = t.drop pattern.length := by
  induction pattern generalizing t with
  | nil => simpa [Text.afterStartIgnoringCase?] using h.symm
  | cons a pattern ih =>
    cases t with
    | nil => simp [Text.afterStartIgnoringCase?] at h
    | cons b t =>
      simp only [Text.afterStartIgnoringCase?, Option.ite_none_right_eq_some] at h
      exact ih h.2

/-- Behind the tag's name the block goes on with a delimiter, or ends. -/
theorem delimited_of_openingTag? {c : Candidate} {tag : OpeningTag}
    (h : c.openingTag? settings element = some tag) : delimited (tag.body ++ tag.after) = true := by
  obtain ⟨o, ho, rfl⟩ := mem_openingTags h
  obtain ⟨-, hstart⟩ := Text.mem_matchOffsets ho
  unfold tagStart? at hstart
  split at hstart
  · rename_i rest hrest
    have hd : delimited rest = true := by
      refine Classical.byContradiction fun hd => ?_
      simp [hd] at hstart
    have hr := afterStartIgnoringCase?_eq hrest
    rw [List.drop_drop, List.length_cons, ← Nat.add_assoc] at hr
    simpa only [OpeningTag.ofOffset, List.take_append_drop, ← hr] using hd
  · cases hstart

end Candidate

/-! ## The edit in the document -/

namespace TagEdit

variable {settings : Settings} {content : Text} {line : Except EditError Nat} {element : Element}
  {edit : OpeningTag → Option TagEdit}

/-- What stands before a tag in the document. -/
def front (content : Text) (c : Candidate) (tag : OpeningTag) : Text :=
  Text.above ((Text.lines content).take c.start) ++ tag.before

/-- What follows a tag in the document, as far as its block was read. -/
def back (content : Text) (c : Candidate) (tag : OpeningTag) : Text :=
  tag.after ++ Text.below ((Text.lines content).drop (c.start + c.block.height))

theorem document_replace (content : Text) (c : Candidate) (tag : OpeningTag) (place : Text.Passage) (new : Text) :
    document content c tag (.replace place new) = front content c tag ++ place.replace new ++ back content c tag := by
  simp only [document, Candidate.splice_eq, front, back, List.append_assoc]

theorem tag_in_document {c : Candidate} {tag : OpeningTag}
    (hc : Candidate.locate settings (Text.lines content) line element = .ok (some c))
    (ht : c.openingTag? settings element = some tag) :
    front content c tag ++ tag.head ++ back content c tag = content := by
  have h := Candidate.block_in_document hc
  rw [← Candidate.whole_of_openingTag? ht, OpeningTag.whole] at h
  simpa only [front, back, List.append_assoc] using h

theorem apply_eq_some_iff {r : Text} : apply settings content line element edit = .ok (some r) ↔
    ∃ c tag result, Candidate.locate settings (Text.lines content) line element = .ok (some c) ∧
      c.openingTag? settings element = some tag ∧ edit tag = some result ∧ document content c tag result = r := by
  unfold apply
  cases Candidate.locate settings (Text.lines content) line element with
  | error e => simp [Except.map]
  | ok found =>
    cases found with
    | none => simp [Except.map]
    | some c => simp [Except.map, Option.bind_eq_some_iff]

theorem apply_eq_none_iff : apply settings content line element edit = .ok none ↔
    ∃ found, Candidate.locate settings (Text.lines content) line element = .ok found ∧
      ∀ c, found = some c → ∀ tag, c.openingTag? settings element = some tag → edit tag = none := by
  unfold apply
  cases Candidate.locate settings (Text.lines content) line element with
  | error e => simp [Except.map]
  | ok found =>
    cases found with
    | none => simp [Except.map]
    | some c => simp [Except.map, Option.bind_eq_none_iff, ← Option.eq_none_iff_forall_ne_some]

/-- An edit that changes the document replaces a passage of the element's tag. -/
theorem apply_replaces {r : Text} (h : apply settings content line element edit = .ok (some r))
    (hr : r ≠ content) :
    ∃ c tag place new, Candidate.locate settings (Text.lines content) line element = .ok (some c) ∧
      c.openingTag? settings element = some tag ∧ edit tag = some (.replace place new) ∧
      content = front content c tag ++ tag.head ++ back content c tag ∧
      r = front content c tag ++ place.replace new ++ back content c tag := by
  obtain ⟨c, tag, result, hc, ht, he, hd⟩ := apply_eq_some_iff.mp h
  cases result with
  | unchanged => exact absurd hd.symm hr
  | replace place new =>
    exact ⟨c, tag, place, new, hc, ht, he, (tag_in_document hc ht).symm, by rw [← hd, document_replace]⟩

end TagEdit

end LiveEdit
