/-
  LiveEdit.Proofs.Edit.Gate — when the search for an element finds a candidate, and what the candidate is.

  The search counts the lines of its window that qualify and finds something just when there is one
  (`locate_finds_unique_line`). The candidate begins at that line and ends within the document and within the
  allowed height; its text is that of its lines, and its evidence the attributes that the text holds, with the sum
  of their weights.
-/

import Mathlib.Algebra.Ring.Int.Defs
import Mathlib.Logic.ExistsUnique
import LiveEdit.Proofs.Edit.EditedTag

namespace LiveEdit

open Markup

/-! ## Where a tag starts -/

namespace Markup

/-- The element's tag starts at the beginning of a text. -/
def StartsTag (name t : Text) : Prop :=
  ∃ rest, Text.afterStartIgnoringCase? ('<' :: name) t = some rest ∧ delimited rest = true

theorem tagStart?_isSome_iff (name t : Text) : (tagStart? name t).isSome = true ↔ StartsTag name t := by
  unfold tagStart? StartsTag
  cases Text.afterStartIgnoringCase? ('<' :: name) t with
  | none => simp
  | some rest => by_cases hd : delimited rest = true <;> simp [hd]

/-- A text holds a tag's start iff the tag starts somewhere in it. -/
theorem hasTagStart_iff (name t : Text) :
    hasTagStart name t = true ↔ ∃ front back, t = front ++ back ∧ StartsTag name back := by
  have hne : hasTagStart name t = true ↔ tagOffsets name t ≠ [] := by simp [hasTagStart]
  rw [hne]
  constructor
  · intro h
    obtain ⟨o, rest, ho⟩ := List.exists_cons_of_ne_nil h
    have hmem : o ∈ tagOffsets name t := by simp [ho]
    obtain ⟨-, hs⟩ := Text.mem_matchOffsets hmem
    exact ⟨t.take o, t.drop o, (List.take_append_drop o t).symm, (tagStart?_isSome_iff name _).mp hs⟩
  · rintro ⟨front, back, rfl, hs⟩
    have hback : back ≠ [] := by
      rintro rfl
      obtain ⟨rest, hr, -⟩ := hs
      simp [Text.afterStartIgnoringCase?] at hr
    refine Text.matchOffsets_ne_nil (o := front.length) ?_ ?_
    · have := List.length_pos_iff.mpr hback
      rw [List.length_append]
      omega
    · rw [List.drop_left]
      exact (tagStart?_isSome_iff name _).mpr hs

end Markup

theorem Evidence.totalWeight_eq_sum (attributes : List StableAttribute) :
    totalWeight attributes = (attributes.map (·.weight)).sum := by
  induction attributes with
  | nil => rfl
  | cons a attributes ih => rw [List.map_cons, List.sum_cons, ← ih]; rfl

/-! ## The search -/

namespace Candidate

/-- What the search asks of a line: the element's tag starts in it, and the block that begins with it holds one of
the element's stable attributes at least and bears the least score. -/
structure Qualifies (settings : Settings) (lines : List Text) (element : Element) (index : Nat) : Prop where
  starts : ∃ front back, lines.getD index [] = front ++ back ∧ StartsTag (Text.lower element.tagName) back
  carries : (Evidence.score (TagBlock.read settings lines index).text
    (Evidence.rank settings element.attributes)).2 ≠ []
  scores : (settings.minScore : Int) ≤ (Evidence.score (TagBlock.read settings lines index).text
    (Evidence.rank settings element.attributes)).1

variable {settings : Settings} {lines : List Text} {element : Element}

theorem qualifies_iff {index : Nat} : Qualifies settings lines element index ↔
    StrongLine settings lines (Text.lower element.tagName) (Evidence.rank settings element.attributes) index := by
  constructor
  · intro h
    exact ⟨(hasTagStart_iff _ _).mpr h.starts, h.carries, h.scores⟩
  · intro h
    exact ⟨(hasTagStart_iff _ _).mp h.starts, h.carries, h.scores⟩

/-- An element with a tag name is searched for without fail, and found at the one line that qualifies. -/
theorem locate_line (settings : Settings) (lines : List Text) (line : Nat) {element : Element}
    (htag : element.tagName ≠ []) :
    ∃ found, locate settings lines (.ok line) element = .ok found ∧
      ∀ c, found = some c ↔ ∃ index, InWindow settings lines line index ∧ Qualifies settings lines element index ∧
        c = atLine settings lines (Evidence.rank settings element.attributes) index ∧
        ∀ other, InWindow settings lines line other → Qualifies settings lines element other → other = index := by
  refine ⟨_, locate_ok settings lines line htag, ?_⟩
  intro c
  split
  · rename_i hrank
    constructor
    · intro h
      cases h
    · -- Without stable attributes no block holds one.
      rintro ⟨index, -, hq, -, -⟩
      refine absurd ?_ hq.carries
      rw [List.isEmpty_iff.mp hrank]
      rfl
  · simp only [unique?_eq_some_iff, qualifies_iff]

/-- A candidate is what it says: it takes at most the allowed number of lines of the document, its text is that of
these lines, and its evidence is what the text holds of the ranked attributes, in their order, with the sum of their
weights as the score. -/
structure Intact (settings : Settings) (ls : List (Option Text)) (element : Element) (c : Candidate) : Prop where
  ordered : c.start ≤ c.last
  fits : c.last < min ls.length (c.start + settings.tagBlockMaxLines.val)
  text : c.block.text = Text.unlines (Text.presentLines ((ls.take (c.last + 1)).drop c.start))
  carries : c.matched ≠ []
  evidence : ∃ chosen : List StableAttribute, chosen.Sublist (Evidence.rank settings element.attributes) ∧
    (∀ a ∈ Evidence.rank settings element.attributes,
      a ∈ chosen ↔ Evidence.matchesAttribute c.block.text a.name a.value = true) ∧
    c.matched = chosen.map (·.name) ∧ c.score = (chosen.map (·.weight)).sum

theorem intact_atLine {ls : List (Option Text)} {index : Nat} (hlt : index < ls.length)
    (hq : Qualifies settings (Text.presentLines ls) element index) :
    Intact settings ls element
      (atLine settings (Text.presentLines ls) (Evidence.rank settings element.attributes) index) := by
  have hlen : (Text.presentLines ls).length = ls.length := List.length_map _
  rw [← hlen] at hlt
  obtain ⟨h1, h2, h3⟩ := TagBlock.height_read settings hlt
  have hlast : (atLine settings (Text.presentLines ls) (Evidence.rank settings element.attributes) index).last + 1 =
      index + (TagBlock.read settings (Text.presentLines ls) index).height := by
    show index + (TagBlock.read settings (Text.presentLines ls) index).height - 1 + 1 = _
    omega
  refine { ordered := ?_, fits := ?_, text := ?_, carries := hq.carries, evidence := ?_ }
  · show index ≤ _
    omega
  · show _ < min ls.length (index + settings.tagBlockMaxLines.val)
    omega
  · rw [hlast]
    show _ = Text.unlines (((ls.take _).drop index).map (·.getD []))
    rw [List.map_drop, List.map_take]
    exact TagBlock.text_read settings
  · refine ⟨Evidence.found (TagBlock.read settings (Text.presentLines ls) index).text
      (Evidence.rank settings element.attributes), List.filter_sublist, ?_, rfl, Evidence.totalWeight_eq_sum _⟩
    intro a ha
    simp only [Evidence.found, List.mem_filter, ha, true_and]
    rfl

/-- The search finds a candidate iff exactly one line of the window qualifies. The candidate begins at this line,
and its block and its evidence are those of the line. -/
theorem locate_finds_unique_line (settings : Settings) (ls : List (Option Text)) (v : Value) {element : Element}
    {line : Nat} (htag : element.tagName ≠ []) (hline : Line.clamp ls.length v = .ok line) :
    ∃ found, locate settings (Text.presentLines ls) (Line.clamp ls.length v) element = .ok found ∧
      (found.isSome = true ↔
        ∃! index, (line - settings.styleScanRadius.val - 1 ≤ index ∧
          index < min ls.length (line + settings.styleScanRadius.val)) ∧
          Qualifies settings (Text.presentLines ls) element index) ∧
      ∀ c, found = some c →
        (line - settings.styleScanRadius.val - 1 ≤ c.start ∧
          c.start < min ls.length (line + settings.styleScanRadius.val)) ∧
        Qualifies settings (Text.presentLines ls) element c.start ∧ Intact settings ls element c := by
  obtain ⟨found, hfound, hiff⟩ := locate_line settings (Text.presentLines ls) line htag
  have hlen : (Text.presentLines ls).length = ls.length := List.length_map _
  simp only [InWindow, hlen] at hiff
  rw [hline]
  refine ⟨found, hfound, ?_, ?_⟩
  · constructor
    · intro h
      obtain ⟨c, hc⟩ := Option.isSome_iff_exists.mp h
      obtain ⟨index, hw, hq, -, honly⟩ := (hiff c).mp hc
      exact ⟨index, ⟨hw, hq⟩, fun other ho => honly other ho.1 ho.2⟩
    · rintro ⟨index, ⟨hw, hq⟩, honly⟩
      rw [Option.isSome_iff_exists]
      exact ⟨_, (hiff _).mpr ⟨index, hw, hq, rfl, fun other ho hqo => honly other ⟨ho, hqo⟩⟩⟩
  · intro c hc
    obtain ⟨index, hw, hq, rfl, -⟩ := (hiff c).mp hc
    have hlt : index < ls.length := by omega
    exact ⟨hw, hq, intact_atLine hlt hq⟩

/-- A link that is wrapped over three lines, of which the second is absent, is found at the first. -/
theorem wrapped_link_is_found :
    let ls := [some "<a".toList, none, some " href='/x'>".toList]
    let link : Element := { tagName := "a".toList, attributes := [("href".toList, "/x".toList)] }
    link.tagName ≠ [] ∧ Line.clamp ls.length (.int 7) = .ok 3 ∧
      ∃ c, locate {} (Text.presentLines ls) (Line.clamp ls.length (.int 7)) link = .ok (some c) ∧
        c.start = 0 ∧ c.last = 2 ∧ Qualifies {} (Text.presentLines ls) link 0 ∧ Intact {} ls link c ∧
        ∃! index, (0 ≤ index ∧ index < 3) ∧ Qualifies {} (Text.presentLines ls) link index := by
  intro ls link
  have htag : link.tagName ≠ [] := by decide
  have hline : Line.clamp ls.length (.int 7) = .ok 3 := by rfl
  obtain ⟨found, hfound, hiff, hall⟩ := locate_finds_unique_line {} ls (.int 7) htag hline
  let c := atLine {} (Text.presentLines ls) (Evidence.rank {} link.attributes) 0
  have hc : locate {} (Text.presentLines ls) (Line.clamp ls.length (.int 7)) link = .ok (some c) := by rfl
  obtain rfl : found = some c := Except.ok.inj (hfound.symm.trans hc)
  obtain ⟨-, hq, hintact⟩ := hall c rfl
  exact ⟨htag, hline, c, hc, rfl, rfl, hq, hintact, hiff.mp rfl⟩

end Candidate

end LiveEdit
