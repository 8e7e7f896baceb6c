/-
  LiveEdit.Proofs.Edit.Confinement — what an edit of a tag leaves alone.

  Whatever a style or attribute edit returns is the document with one passage of the chosen tag replaced
  (`edits_confined`): the lines above and below the block, and the block outside of the tag, are the same. A tag
  in which nothing assigns to `style` gets its style right behind the name, and loses nothing.
-/

import LiveEdit.Proofs.AttributeEdit.WholeValue
import LiveEdit.Proofs.Edit.Gate
import LiveEdit.Proofs.StyleEdit.OneStyle

namespace LiveEdit

open Markup

/-! ## Edits within the tag -/

/-- Whatever passage an edit replaces is one of the tag that it is given. -/
def TagEdit.Within (edit : OpeningTag → Option TagEdit) : Prop :=
  ∀ tag place new, edit tag = some (.replace place new) → place.whole = tag.head

theorem StyleEdit.ofTag?_within (css : Assoc Text) : TagEdit.Within (StyleEdit.ofTag? css) := by
  intro tag place new h
  obtain ⟨entries, ho⟩ := outcome_of_ofTag? h
  exact ho.whole

theorem AttributeEdit.ofTag?_within (name value : Text) : TagEdit.Within (AttributeEdit.ofTag? name value) := by
  intro tag place new h
  obtain ⟨w, quote, hw, -, -⟩ := written?_of_ofTag? h
  exact (spelled_of_written? hw).1

/-- Something in a text assigns to `style`, whatever stands before the name. -/
def StyleEdit.HoldsStyle (t : Text) : Prop :=
  ∃ gap : Text, gap.all Text.isBlank = true ∧ "style".toList ++ gap ++ ['='] <:+: t

/-- A tag in which nothing assigns to `style` gets a style behind its name. -/
theorem StyleEdit.ofTag?_of_not_holdsStyle {tag : OpeningTag} (h : ¬ HoldsStyle tag.head) (css : Assoc Text) :
    ofTag? css tag = some (.replace ⟨tag.name, [], tag.body⟩ (' ' :: assignment css)) := by
  have hnone : Text.Passage.first? written? none tag.head = none := by
    rw [Text.Passage.first?_eq_none_iff]
    intro front c back hhead
    cases hw : written? (Text.Passage.lastOr none front) (c :: back) with
    | none => rfl
    | some found =>
      obtain ⟨w, rest⟩ := found
      obtain ⟨-, assign, value, ⟨hgap, -⟩, -, he⟩ := written?_eq_some hw
      rename_i gap gap'
      refine absurd ⟨gap, hgap, front, gap' ++ value ++ rest, ?_⟩ h
      rw [hhead, he]
      simp
  rw [ofTag?, hnone]

/-! ## The lines of the document -/

namespace Candidate

theorem lines_splice (c : Candidate) (content t : Text) : Text.lines (c.splice (Text.lines content) t) =
    (Text.lines content).take c.start ++ Text.lines t ++
      (Text.lines content).drop (c.start + c.block.height) := by
  rw [splice_eq]
  exact Text.lines_around content t c.start (c.start + c.block.height)

variable {settings : Settings} {content : Text} {line : Except EditError Nat} {element : Element}

/-- With its own text in the place of the block, the document is as before. -/
theorem splice_block {c : Candidate} (h : locate settings (Text.lines content) line element = .ok (some c)) :
    c.splice (Text.lines content) c.block.text = content := by
  rw [splice_eq]
  exact block_in_document h

theorem last_of_locate {lines : List Text} {c : Candidate}
    (h : locate settings lines line element = .ok (some c)) : c.last + 1 = c.start + c.block.height := by
  obtain ⟨n, index, -, hw, -, rfl⟩ := locate_eq_some h
  have hlt : index < lines.length := Nat.lt_of_lt_of_le hw.2 (Nat.min_le_left _ _)
  obtain ⟨h1, -, -⟩ := TagBlock.height_read settings hlt
  show index + (TagBlock.read settings lines index).height - 1 + 1 = index + (TagBlock.read settings lines index).height
  omega

end Candidate

/-! ## The edit -/

namespace TagEdit

/-- `r` is the document with the passage `place` of the tag replaced by `new`, and nothing else is touched: in the
block what stands before and after the tag, and in the document the lines before and after the block. -/
structure Confined (content r : Text) (c : Candidate) (tag : OpeningTag) (place : Text.Passage) (new : Text) : Prop
    where
  passage : place.whole = tag.head
  block : tag.before ++ tag.head ++ tag.after = c.block.text
  linesBefore : Text.lines content =
    (Text.lines content).take c.start ++ Text.lines c.block.text ++ (Text.lines content).drop (c.last + 1)
  linesAfter : Text.lines r =
    (Text.lines content).take c.start ++ Text.lines (tag.before ++ place.replace new ++ tag.after) ++
      (Text.lines content).drop (c.last + 1)
  before : content = front content c tag ++ place.whole ++ back content c tag
  after : r = front content c tag ++ place.replace new ++ back content c tag

variable {settings : Settings} {content : Text} {line : Except EditError Nat} {element : Element}
  {edit : OpeningTag → Option TagEdit}

/-- The document with a text in the place of the tag keeps everything around the tag. -/
theorem confined_of_splice {c : Candidate} {tag : OpeningTag} {place : Text.Passage} {new : Text}
    (hc : Candidate.locate settings (Text.lines content) line element = .ok (some c))
    (ht : c.openingTag? settings element = some tag) (hp : place.whole = tag.head) :
    Confined content (c.splice (Text.lines content) (tag.before ++ place.replace new ++ tag.after)) c tag place new := by
  have hlast := Candidate.last_of_locate hc
  refine { passage := hp, block := Candidate.whole_of_openingTag? ht, linesBefore := ?_, linesAfter := ?_,
           before := ?_, after := ?_ }
  · rw [hlast, ← Candidate.lines_splice, Candidate.splice_block hc]
  · rw [hlast, Candidate.lines_splice]
  · rw [hp]
    exact (tag_in_document hc ht).symm
  · rw [Candidate.splice_eq]
    simp only [front, back, List.append_assoc]

/-- An edit that is tried on the chosen tag and keeps within it is confined. What was unchanged is a passage
replaced by itself. -/
theorem apply_confined (hedit : Within edit) {r : Text}
    (h : apply settings content line element edit = .ok (some r)) :
    ∃ c tag place new, Candidate.locate settings (Text.lines content) line element = .ok (some c) ∧
      c.openingTag? settings element = some tag ∧ Confined content r c tag place new ∧
      ∀ place' new', edit tag = some (.replace place' new') → place = place' ∧ new = new' := by
  obtain ⟨c, tag, result, hc, ht, he, rfl⟩ := apply_eq_some_iff.mp h
  cases result with
  | unchanged =>
    let atEnd : Text.Passage := ⟨tag.head, [], []⟩
    have hwhole : atEnd.whole = tag.head := by simp [atEnd, Text.Passage.whole]
    have hconf : Confined content _ c tag atEnd [] := confined_of_splice hc ht hwhole
    have hsame : c.splice (Text.lines content) (tag.before ++ atEnd.replace [] ++ tag.after) = content := by
      have hblock := Candidate.whole_of_openingTag? ht
      rw [OpeningTag.whole, ← hwhole] at hblock
      exact (congrArg _ hblock).trans (Candidate.splice_block hc)
    rw [hsame] at hconf
    refine ⟨c, tag, atEnd, [], hc, ht, hconf, fun place' new' he' => ?_⟩
    rw [he] at he'
    cases he'
  | replace place new =>
    refine ⟨c, tag, place, new, hc, ht, confined_of_splice hc ht (hedit tag place new he), fun place' new' he' => ?_⟩
    rw [he] at he'
    cases he'
    exact ⟨rfl, rfl⟩

end TagEdit

open TagEdit

/-- A style or attribute edit that returns a document replaces one passage of the chosen tag, and keeps everything
else of the block and of the document. If nothing in the tag assigns to `style`, a style edit puts its text right
behind the tag's name and takes nothing away. -/
theorem edits_confined (settings : Settings) (content : Text) (line : Except EditError Nat) (element : Element) :
    (∀ css r, StyleEdit.apply settings content line element css = .ok (some r) →
      ∃ c tag place new, Candidate.locate settings (Text.lines content) line element = .ok (some c) ∧
        c.openingTag? settings element = some tag ∧ Confined content r c tag place new ∧
        (¬ StyleEdit.HoldsStyle tag.head →
          content = front content c tag ++ tag.name ++ (tag.body ++ back content c tag) ∧
          r = front content c tag ++ tag.name ++ new ++ (tag.body ++ back content c tag))) ∧
    ∀ name value r, AttributeEdit.apply settings content line element name value = .ok (some r) →
      ∃ c tag place new, Candidate.locate settings (Text.lines content) line element = .ok (some c) ∧
        c.openingTag? settings element = some tag ∧ Confined content r c tag place new := by
  constructor
  · intro css r h
    unfold StyleEdit.apply at h
    split at h
    · cases h
    · obtain ⟨c, tag, place, new, hc, ht, hconf, hsame⟩ := apply_confined (StyleEdit.ofTag?_within _) h
      refine ⟨c, tag, place, new, hc, ht, hconf, fun hstyle => ?_⟩
      obtain ⟨rfl, -⟩ := hsame _ _ (StyleEdit.ofTag?_of_not_holdsStyle hstyle _)
      constructor
      · simpa [Text.Passage.whole] using hconf.before
      · simpa [Text.Passage.replace] using hconf.after
  · intro name value r h
    obtain ⟨c, tag, place, new, hc, ht, hconf, -⟩ := apply_confined (AttributeEdit.ofTag?_within name value) h
    exact ⟨c, tag, place, new, hc, ht, hconf⟩

/-- Of a wrapped link between two lines, a style edit and an attribute edit change the link only. -/
theorem wrapped_link_edits_confined :
    let content := "<p>\n<a\n href='/x'>Go</a>\n</p>".toList
    let link : Element := { tagName := "a".toList, attributes := [("href".toList, "/x".toList)] }
    let styled := "<p>\n<a style=\x7b\x7b color: 'red' \x7d\x7d\n href='/x'>Go</a>\n</p>".toList
    let moved := "<p>\n<a\n href='/y'>Go</a>\n</p>".toList
    StyleEdit.apply {} content (.ok 2) link [("color".toList, "red".toList)] = .ok (some styled) ∧
      AttributeEdit.apply {} content (.ok 2) link "href".toList "/y".toList = .ok (some moved) ∧
      ∃ c tag place new place' new', Candidate.locate {} (Text.lines content) (.ok 2) link = .ok (some c) ∧
        c.openingTag? {} link = some tag ∧ ¬ StyleEdit.HoldsStyle tag.head ∧
        Confined content styled c tag place new ∧
        styled = front content c tag ++ tag.name ++ new ++ (tag.body ++ back content c tag) ∧
        Confined content moved c tag place' new' := by
  intro content link styled moved
  obtain ⟨hstyle, hattribute⟩ := edits_confined {} content (.ok 2) link
  have hs : StyleEdit.apply {} content (.ok 2) link [("color".toList, "red".toList)] = .ok (some styled) := by rfl
  have ha : AttributeEdit.apply {} content (.ok 2) link "href".toList "/y".toList = .ok (some moved) := by rfl
  obtain ⟨c, tag, place, new, hc, ht, hconf, hinsert⟩ := hstyle _ _ hs
  obtain ⟨c', tag', place', new', hc', ht', hconf'⟩ := hattribute _ _ _ ha
  cases hc.symm.trans hc'
  cases ht.symm.trans ht'
  have hlocate : Candidate.locate {} (Text.lines content) (.ok 2) link =
      .ok (some (Candidate.atLine {} (Text.lines content) (Evidence.rank {} link.attributes) 1)) := by rfl
  cases hc.symm.trans hlocate
  cases ht.symm.trans (show _ = some (OpeningTag.ofOffset 1 "<a\n href='/x'>Go</a>".toList 0) by rfl)
  have hno : ¬ StyleEdit.HoldsStyle (OpeningTag.ofOffset 1 "<a\n href='/x'>Go</a>".toList 0).head := by
    rintro ⟨gap, -, hin⟩
    have hs : 's' ∈ "<a\n href='/x'>".toList := hin.subset (by simp)
    exact absurd hs (by decide)
  exact ⟨hs, ha, _, _, place, new, place', new', hc, ht, hno, hconf, (hinsert hno).2, hconf'⟩

end LiveEdit
