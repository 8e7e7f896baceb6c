/-
  LiveEdit.Proofs.StyleEdit.OwnStyle — whether the `style` that an edit rewrites is one of the tag's own attributes.

  The edit rewrites the first text of the tag that assigns to `style`, whatever it stands in, and knows no escapes
  within its value (`FirstStyle`). `apply_rewrites_own_style_iff` says when the scanner of opening tags takes that text
  for an attribute with a whole value: when no such text stands in another value in front of the attribute, and the
  quotes of its own value are closed where the edit takes them to be (`ClosesQuotes`).
-/

import LiveEdit.Proofs.StyleEdit.Reading

namespace LiveEdit.StyleEdit

open Markup TagEdit Text.Passage

/-- A name may begin behind the first text, and the second one starts with an assignment to `style`. -/
def LooksLikeStyle (front back : Text) : Prop :=
  startsName (lastOr none front) = true ∧ assignsStyle back = true

/-- Behind `front` stands the first text of the tag that looks like a style. -/
structure FirstStyle (tag : OpeningTag) (front : Text) : Prop where
  looks : ∃ back, tag.head = front ++ back ∧ LooksLikeStyle front back
  first : ∀ front' back', tag.head = front' ++ back' → LooksLikeStyle front' back' → front.length ≤ front'.length

theorem FirstStyle.unique {tag : OpeningTag} {front front' : Text} (h : FirstStyle tag front)
    (h' : FirstStyle tag front') : front = front' := by
  obtain ⟨back, hsplit, hlooks⟩ := h.looks
  obtain ⟨back', hsplit', hlooks'⟩ := h'.looks
  have hlength := Nat.le_antisymm (h.first _ _ hsplit' hlooks') (h'.first _ _ hsplit hlooks)
  exact (List.append_inj (hsplit.symm.trans hsplit') hlength).1

theorem firstStyle_of_first? {tag : OpeningTag} {place : Text.Passage} {w : Written}
    (h : first? written? none tag.head = some (place, w)) : FirstStyle tag place.before where
  looks := by
    obtain ⟨hp, assign, value, ha, -, hread⟩ := written?_eq_some (read_of_first? written?_leaves h)
    refine ⟨place.inside ++ place.after, ?_, hp, ?_⟩
    · rw [← whole_first? written?_leaves h, Text.Passage.whole, List.append_assoc]
    · rw [hread, List.append_assoc]
      exact assignsStyle_of_assigns ha _
  first := by
    intro front back hsplit hlooks
    by_cases hlt : front.length < place.before.length
    · obtain ⟨hp, ha⟩ := hlooks
      have hnone := written?_eq_none_iff.mp (read_eq_none_of_first? h hsplit hlt) hp
      rw [ha] at hnone
      cases hnone
    · exact Nat.le_of_not_lt hlt

/-- The scanner finds the quotes of the value closed at its end: in an object all of them, and in a string the last
mark is not escaped. -/
def ClosesQuotes : Written → Prop
  | .object body => (Scan.after {} ('\x7b' :: '\x7b' :: body)).quote = none
  | .string body => Text.endsEscaped body = false
  | .other => True

/-- From top level the scanner comes back to it with the value just when the quotes of the value are closed. -/
theorem Value.topLevel_iff {w : Written} {value : Text} (h : Value w value) :
    (Scan.after {} value).topLevel = true ↔ ClosesQuotes w := by
  cases h with
  | object hb => exact Scan.braced_topLevel_iff hb
  | string hq hb =>
    rw [Scan.quoted_topLevel_iff rfl (Scan.isQuote_of_eq hq) hb]
    simp [ClosesQuotes, Scan.topLevel]
  | other => simp [ClosesQuotes, Scan.after, Scan.topLevel]

/-- The name and the sign of a style do not matter to the scanner, so the state behind a style at top level is that
behind its value. -/
theorem scanAt_style {tag : OpeningTag} {before assign : Text} (hstart : tag.AtTopLevel before)
    (ha : Assigns "style".toList assign) (value : Text) :
    tag.scanAt (before ++ (assign ++ value)) = Scan.after {} value := by
  have hplain : Scan.after {} assign = {} := Scan.after_plain rfl (ha.isPlain (by decide))
  rw [OpeningTag.scanAt_append hstart.1, (tag.reached_scanAt _).eq_start hstart.2, Scan.after_append, hplain]

/-- A style edit that changes the document and finds a style in the tag rewrites the first text that looks like one.
Both ends of it are at top level just when the first text of the tag that looks like a style stands at top level, and
the quotes of its value are closed. -/
theorem apply_rewrites_own_style_iff (settings : Settings) (content : Text) (line : Except EditError Nat)
    (element : Element) (css : Assoc Text) {r : Text}
    (h : apply settings content line element css = .ok (some r)) (hr : r ≠ content) :
    ∃ c tag place found entries text,
      Candidate.locate settings (Text.lines content) line element = .ok (some c) ∧
      c.openingTag? settings element = some tag ∧ Writes (Style.ofChanges css) tag place found entries text ∧
      content = front content c tag ++ place.whole ++ back content c tag ∧
      r = front content c tag ++ place.replace text ++ back content c tag ∧
      ∀ w, found = some w → FirstStyle tag place.before ∧
        (∃ assign value, place.inside = assign ++ value ∧ Assigns "style".toList assign ∧ Value w value) ∧
        (tag.AtTopLevel place.before ∧ tag.AtTopLevel (place.before ++ place.inside) ↔
          (∃ front, FirstStyle tag front ∧ tag.AtTopLevel front) ∧ ClosesQuotes w) := by
  obtain ⟨c, tag, place, found, entries, text, hc, ht, hw, hbefore, hafter⟩ := apply_writes h hr
  refine ⟨c, tag, place, found, entries, text, hc, ht, hw, hbefore, hafter, ?_⟩
  intro w hfound
  subst hfound
  cases hw with
  | merged hsome _ =>
    have hfirst := firstStyle_of_first? hsome
    obtain ⟨-, assign, value, ha, hv, hread⟩ := written?_eq_some (read_of_first? written?_leaves hsome)
    have hinside : place.inside = assign ++ value := List.append_cancel_right hread
    -- From top level on only the value counts.
    have hend : tag.AtTopLevel place.before →
        (tag.AtTopLevel (place.before ++ place.inside) ↔ ClosesQuotes w) := by
      intro hstart
      rw [OpeningTag.AtTopLevel, hinside, scanAt_style hstart ha, hv.topLevel_iff]
      exact ⟨And.right, fun h => ⟨hstart.1.trans (List.prefix_append _ _), h⟩⟩
    refine ⟨hfirst, ⟨assign, value, hinside, ha, hv⟩, ?_⟩
    constructor
    · intro h
      exact ⟨⟨_, hfirst, h.1⟩, (hend h.1).mp h.2⟩
    · intro h
      obtain ⟨⟨front, hfront, hstart⟩, hquotes⟩ := h
      rw [hfront.unique hfirst] at hstart
      exact ⟨hstart, (hend hstart).mpr hquotes⟩

/-- The style of a link is rewritten where it stands, an attribute behind another one. -/
theorem link_style_rewritten_at_topLevel :
    let content := "<a href='/x' style=\"margin: 0\">".toList
    let link : Element := { tagName := "a".toList, attributes := [("href".toList, "/x".toList)] }
    let css : Assoc Text := [("color".toList, "red".toList)]
    let r := "<a href='/x' style=\x7b\x7b margin: '0', color: 'red' \x7d\x7d>".toList
    apply {} content (.ok 1) link css = .ok (some r) ∧ r ≠ content ∧
      ∃ c tag place w, Candidate.locate {} (Text.lines content) (.ok 1) link = .ok (some c) ∧
        c.openingTag? {} link = some tag ∧ first? written? none tag.head = some (place, w) ∧
        tag.AtTopLevel place.before ∧ tag.AtTopLevel (place.before ++ place.inside) := by
  intro content link css r
  have hedit : apply {} content (.ok 1) link css = .ok (some r) := by rfl
  have hr : r ≠ content := by decide
  obtain ⟨c, tag, place, found, entries, text, hc, ht, hw, -, -, hfound⟩ :=
    apply_rewrites_own_style_iff {} content (.ok 1) link css hedit hr
  have hlocate : Candidate.locate {} (Text.lines content) (.ok 1) link =
      .ok (some (Candidate.atLine {} (Text.lines content) (Evidence.rank {} link.attributes) 0)) := by rfl
  cases hc.symm.trans hlocate
  cases ht.symm.trans (show _ = some (OpeningTag.ofOffset 1 content 0) by rfl)
  have hread : first? written? none (OpeningTag.ofOffset 1 content 0).head =
      some (⟨"<a href='/x' ".toList, "style=\"margin: 0\"".toList, ">".toList⟩, .string "margin: 0".toList) := by rfl
  cases hw with
  | inserted hnone => cases hnone.symm.trans hread
  | merged hsome hold =>
    cases hsome.symm.trans hread
    obtain ⟨hfirst, -, hiff⟩ := hfound _ rfl
    have hstart : (OpeningTag.ofOffset 1 content 0).AtTopLevel "<a href='/x' ".toList := ⟨by decide, by decide⟩
    exact ⟨hedit, hr, _, _, _, _, hc, ht, hread, hiff.mpr ⟨⟨_, hfirst, hstart⟩, by rfl⟩⟩

/-- The title of a link tells of a style, which is rewritten within it. -/
theorem style_in_title_rewritten :
    let content := "<a href='/x' title=\"style='color: blue'\">".toList
    let link : Element := { tagName := "a".toList, attributes := [("href".toList, "/x".toList)] }
    let css : Assoc Text := [("color".toList, "red".toList)]
    let r := "<a href='/x' title=\"style=\x7b\x7b color: 'red' \x7d\x7d\">".toList
    apply {} content (.ok 1) link css = .ok (some r) ∧ r ≠ content ∧
      ∃ c tag place w, Candidate.locate {} (Text.lines content) (.ok 1) link = .ok (some c) ∧
        c.openingTag? {} link = some tag ∧ first? written? none tag.head = some (place, w) ∧
        ¬ tag.AtTopLevel place.before ∧ ¬ tag.AtTopLevel (place.before ++ place.inside) := by
  intro content link css r
  refine ⟨by rfl, by decide, Candidate.atLine {} (Text.lines content) (Evidence.rank {} link.attributes) 0,
    OpeningTag.ofOffset 1 content 0,
    ⟨"<a href='/x' title=\"".toList, "style='color: blue'".toList, "\">".toList⟩, .string "color: blue".toList,
    by rfl, by rfl, by rfl, fun h => ?_, fun h => ?_⟩
  · exact absurd h.2 (by decide)
  · exact absurd h.2 (by decide)

end LiveEdit.StyleEdit
