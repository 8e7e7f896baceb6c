/-
  LiveEdit.Proofs.StyleEdit.OneStyle — whether a style edit can give a tag a second `style`.

  The edit looks for a `style` in the part of the tag that its block holds, the scanner counts them in the whole
  tag. `apply_keeps_one_style_iff` says when the count stays at one at most. An edit that does not disturb the
  scanner adds an attribute where it found none and keeps the count where it found one; so a second `style`
  appears just when the only one stands behind the end of the block.
-/

import LiveEdit.Proofs.Edit.EditedTag
import LiveEdit.Proofs.StyleEdit.Neutral
import LiveEdit.Proofs.StyleEdit.Reading

namespace LiveEdit.StyleEdit

open Markup TagEdit Text.Passage

/-! ## What is written where -/

/-- What an edit makes of a tag: a `style` right behind the name if there is none in it, or new entries in the
place of the first one. -/
inductive Outcome (css : Assoc Text) (tag : OpeningTag) : (place : Text.Passage) → (entries : Assoc Text) →
    (text : Text) → Prop
  | inserted (hnone : first? written? none tag.head = none) :
      Outcome css tag ⟨tag.name, [], tag.body⟩ css (' ' :: assignment css)
  | replaced {place : Text.Passage} {w : Written} {old : Assoc Text}
      (hsome : first? written? none tag.head = some (place, w)) :
      Outcome css tag place (old.putAll css) (assignment (old.putAll css))

/-- Of what is written where, it only matters here whether there was a style in the place. -/
theorem outcome_of_ofTag? {css : Assoc Text} {tag : OpeningTag} {place : Text.Passage} {text : Text}
    (h : ofTag? css tag = some (.replace place text)) : ∃ entries, Outcome css tag place entries text := by
  obtain ⟨found, entries, hw⟩ := writes_of_ofTag? h
  cases hw with
  | inserted hnone => exact ⟨_, .inserted hnone⟩
  | merged hsome _ => exact ⟨_, .replaced hsome⟩

theorem Outcome.whole {css entries : Assoc Text} {tag : OpeningTag} {place : Text.Passage} {text : Text}
    (h : Outcome css tag place entries text) : place.whole = tag.head := by
  cases h with
  | inserted _ => simp [Text.Passage.whole, OpeningTag.head]
  | replaced hsome => exact whole_first? written?_leaves hsome

/-- A place in which something stands holds a `style`, and a name may begin there. -/
theorem assigns_of_replaced {tag : OpeningTag} {place : Text.Passage} {w : Written}
    (h : first? written? none tag.head = some (place, w)) :
    startsName (lastOr none place.before) = true ∧ ∃ t, place.inside = 's' :: t := by
  obtain ⟨hp, assign, value, ha, -, he⟩ := written?_eq_some (read_of_first? written?_leaves h)
  obtain ⟨u, rfl, -⟩ := assigns_eq_cons ha
  exact ⟨hp, u ++ value, List.append_cancel_right he⟩

/-! ## The count before and after -/

/-- The styles in front of the place. -/
def stylesInFront (tag : OpeningTag) (place : Text.Passage) : Nat :=
  topStyles {} none (place.before.drop tag.name.length)

/-- The styles from the place on when a text stands there. -/
def stylesFrom (tag : OpeningTag) (place : Text.Passage) (text back : Text) : Nat :=
  topStyles (tag.scanAt place.before) (lastOr none (place.before.drop tag.name.length))
    ((text ++ place.after ++ back).drop (tag.name.length - place.before.length))

/-- A text that may stand in the place of an edit: right behind the tag's name any, elsewhere a `style`. -/
def MayStand (tag : OpeningTag) (place : Text.Passage) (text : Text) : Prop :=
  place.before = tag.name ∨ place.inside ≠ [] ∧ ∃ t, text = 's' :: t

/-- What stands in front of the place counts by itself, whatever stands in the place. -/
theorem stylesOfTag_eq {tag : OpeningTag} {place : Text.Passage} {text : Text} (hwhole : place.whole = tag.head)
    (hopen : ∀ f g, tag.body = f ++ g → g ≠ [] → staysOpen {} f = true) (hplace : MayStand tag place text)
    (front back : Text) :
    stylesOfTag (front ++ place.replace text ++ back) (front ++ tag.name).length =
      stylesInFront tag place + stylesFrom tag place text back := by
  have hdrop : (front ++ place.replace text ++ back).drop (front ++ tag.name).length =
      place.before.drop tag.name.length ++
        (text ++ place.after ++ back).drop (tag.name.length - place.before.length) := by
    rw [List.length_append, ← List.drop_drop, List.append_assoc, List.drop_left, Text.Passage.replace]
    simp only [List.append_assoc, List.drop_append]
  rw [stylesOfTag, hdrop, stylesInFront, stylesFrom, OpeningTag.scanAt]
  cases hf : place.before.drop tag.name.length with
  | nil => exact (Nat.zero_add _).symm
  | cons c f =>
    have hlt : tag.name.length < place.before.length := by
      have := congrArg List.length hf
      simp at this
      omega
    rcases hplace with hname | ⟨hne, t, rfl⟩
    · rw [hname] at hlt
      exact absurd hlt (Nat.lt_irrefl _)
    · have hbody : tag.body = c :: f ++ (place.inside ++ place.after) := by
        have h := congrArg (List.drop tag.name.length) hwhole
        rw [OpeningTag.head, List.drop_left, Text.Passage.whole, List.append_assoc, List.drop_append, hf,
          Nat.sub_eq_zero_of_le (Nat.le_of_lt hlt), List.drop_zero] at h
        exact h.symm
      rw [Nat.sub_eq_zero_of_le (Nat.le_of_lt hlt), List.drop_zero]
      exact topStyles_append_style (hopen _ _ hbody (by simp [hne])) none _

/-- The scanner reads the rest of the document as before: the edit begins at top level, what it takes away is
nothing or one style with a whole value, and what it writes is a whole value. -/
structure Regular (tag : OpeningTag) (place : Text.Passage) (entries : Assoc Text) : Prop where
  starts : tag.AtTopLevel place.before
  old : place.inside = [] ∨ Whole place.inside
  new : wraps (Style.print entries) = true

theorem whole_assignment {entries : Assoc Text} (h : wraps (Style.print entries) = true) :
    Whole (assignment entries) := by
  have hname : Assigns "style".toList ("style".toList ++ [] ++ ['=']) := .intro rfl rfl
  exact ⟨_, Style.print entries, rfl, hname, h⟩

/-- At top level a whole style counts one, whichever it is. -/
theorem stylesFrom_whole {tag : OpeningTag} {place : Text.Passage} {a : Text} (hstart : tag.AtTopLevel place.before)
    (hp : startsName (lastOr none place.before) = true) (ha : Whole a) (back : Text) :
    stylesFrom tag place a back = 1 + topStyles {} none (place.after ++ back) := by
  obtain ⟨f, hf⟩ := hstart.1
  have hprev : startsName (lastOr none f) = true := by
    rcases List.eq_nil_or_concat f with rfl | ⟨f, c, rfl⟩
    · rfl
    · simpa [← hf, lastOr, List.getLast?_append] using hp
  rw [stylesFrom, (tag.reached_scanAt _).eq_start hstart.2, ← hf, List.drop_left,
    Nat.sub_eq_zero_of_le (by simp), List.drop_zero, List.append_assoc]
  exact topStyles_attribute ha hprev _

theorem styles_around_insertion (tag : OpeningTag) (back : Text) :
    stylesInFront tag ⟨tag.name, [], tag.body⟩ = 0 ∧
      stylesFrom tag ⟨tag.name, [], tag.body⟩ [] back = topStyles {} none (tag.body ++ back) := by
  simp [stylesInFront, stylesFrom, topStyles, OpeningTag.scanAt, Scan.after, lastOr]

theorem stylesFrom_inserted {tag : OpeningTag} {entries : Assoc Text} (h : wraps (Style.print entries) = true)
    (back : Text) :
    stylesFrom tag ⟨tag.name, [], tag.body⟩ (' ' :: assignment entries) back =
      stylesFrom tag ⟨tag.name, [], tag.body⟩ [] back + 1 := by
  have hname : tag.scanAt tag.name = {} := by simp [OpeningTag.scanAt, Scan.after]
  rw [(styles_around_insertion tag back).2, Nat.add_comm]
  simp only [stylesFrom, hname, List.drop_length, Nat.sub_self, List.drop_zero, List.cons_append]
  rw [topStyles_cons_of_ne (by decide) rfl, List.append_assoc]
  exact topStyles_attribute (whole_assignment h) rfl _

/-- The tag is closed within its block. -/
def Closed (tag : OpeningTag) : Prop := ∃ f, tag.body = f ++ ['>'] ∧ (Scan.after {} f).topLevel = true

/-- A closed tag in which no style is found carries none. -/
theorem topStyles_eq_zero_of_closed {tag : OpeningTag} (hclosed : Closed tag)
    (hname : delimited (tag.body ++ tag.after) = true) (hnone : first? written? none tag.head = none) (t : Text) :
    topStyles {} none (tag.body ++ t) = 0 := by
  obtain ⟨f, hbody, htop⟩ := hclosed
  rw [hbody, List.append_assoc]
  refine topStyles_closed_eq_zero htop none (fun x c y he hs => ?_) t
  rcases List.eq_nil_or_concat x with rfl | ⟨x, d, rfl⟩
  · -- Right behind the name stands a delimiter.
    refine assignsStyle_cons_eq_false ?_ y
    rintro rfl
    have hd : delimited ('s' :: (y ++ ['>'] ++ tag.after)) = false := rfl
    rw [hbody, he, List.nil_append, List.cons_append, List.cons_append, hd] at hname
    cases hname
  · have hread := first?_eq_none_iff.mp hnone (tag.name ++ (x ++ [d])) c (y ++ ['>']) (by
      rw [OpeningTag.head, hbody, he]
      simp)
    have hprev : lastOr none (tag.name ++ (x ++ [d])) = lastOr none (x ++ [d]) := by
      simp [lastOr, List.getLast?_append]
    rw [written?_eq_none_iff, hprev] at hread
    rw [← assignsStyle_append (d := '>') (by decide) c y []]
    exact hread (by simpa using hs)

/-! ## The edit -/

variable {settings : Settings} {element : Element}

theorem staysOpen_of_openingTag? {c : Candidate} {tag : OpeningTag}
    (h : c.openingTag? settings element = some tag) (f g : Text) (hbody : tag.body = f ++ g) (hg : g ≠ []) :
    staysOpen {} f = true := by
  obtain ⟨o, -, rfl⟩ := Candidate.mem_openingTags h
  exact staysOpen_of_tagLength hbody hg

theorem Outcome.mayStand {css entries : Assoc Text} {tag : OpeningTag} {place : Text.Passage} {text : Text}
    (h : Outcome css tag place entries text) : MayStand tag place place.inside ∧ MayStand tag place text := by
  cases h with
  | inserted _ => exact ⟨.inl rfl, .inl rfl⟩
  | replaced hsome =>
    obtain ⟨-, t, ht⟩ := assigns_of_replaced hsome
    have hne : place.inside ≠ [] := by simp [ht]
    exact ⟨.inr ⟨hne, t, ht⟩, .inr ⟨hne, _, rfl⟩⟩

/-- An undisturbed scanner counts one style more if the style was inserted, and as many as before otherwise. -/
theorem Outcome.stylesFrom_eq {css entries : Assoc Text} {tag : OpeningTag} {place : Text.Passage} {text : Text}
    (h : Outcome css tag place entries text) (hr : Regular tag place entries) (back : Text) :
    stylesFrom tag place text back = stylesFrom tag place place.inside back + if place.inside = [] then 1 else 0 := by
  cases h with
  | inserted _ => exact stylesFrom_inserted hr.new back
  | replaced hsome =>
    obtain ⟨hp, t, ht⟩ := assigns_of_replaced hsome
    have hne : place.inside ≠ [] := by simp [ht]
    have hold : Whole place.inside := hr.old.resolve_left hne
    rw [if_neg hne, stylesFrom_whole hr.starts hp hold, stylesFrom_whole hr.starts hp (whole_assignment hr.new),
      Nat.add_zero]

theorem Outcome.regular_of_ordinary {css entries : Assoc Text} {tag : OpeningTag} {place : Text.Passage} {text : Text}
    (h : Outcome (Style.ofChanges css) tag place entries text) (hin : place.inside = [])
    (hcss : ∀ p ∈ css, p.1.all isNameChar = true) : Regular tag place entries := by
  cases h with
  | inserted _ => exact ⟨⟨List.prefix_rfl, by simp [OpeningTag.scanAt, Scan.after, Scan.topLevel]⟩, .inl rfl,
      wraps_ofChanges hcss⟩
  | replaced hsome =>
    obtain ⟨-, t, ht⟩ := assigns_of_replaced hsome
    simp [ht] at hin

/-- A style edit that changes the document keeps a tag with at most one `style` at that, unless it inserts a style
into a tag that has one behind the end of the block, or disturbs the scanner so that more come to light. -/
theorem apply_keeps_one_style_iff (settings : Settings) (content : Text) (line : Except EditError Nat)
    (element : Element) (css : Assoc Text) {r : Text}
    (h : apply settings content line element css = .ok (some r)) (hr : r ≠ content) :
    ∃ c tag place entries text nameEnd,
      Candidate.locate settings (Text.lines content) line element = .ok (some c) ∧
      c.openingTag? settings element = some tag ∧ Outcome (Style.ofChanges css) tag place entries text ∧
      content = front content c tag ++ place.whole ++ back content c tag ∧
      r = front content c tag ++ place.replace text ++ back content c tag ∧
      nameEnd = (front content c tag ++ tag.name).length ∧
      stylesOfTag r nameEnd = stylesInFront tag place + stylesFrom tag place text (back content c tag) ∧
      (Regular tag place entries →
        stylesOfTag r nameEnd = stylesOfTag content nameEnd + if place.inside = [] then 1 else 0) ∧
      (place.inside = [] → (∀ p ∈ css, p.1.all isNameChar = true) → Regular tag place entries) ∧
      (place.inside = [] → Closed tag → stylesOfTag content nameEnd = 0) ∧
      ((stylesOfTag content nameEnd ≤ 1 → stylesOfTag r nameEnd ≤ 1) ↔
        (Regular tag place entries ∧ ¬ (place.inside = [] ∧ stylesOfTag content nameEnd = 1)) ∨
        (¬ Regular tag place entries ∧ (1 < stylesOfTag content nameEnd ∨
          stylesInFront tag place + stylesFrom tag place text (back content c tag) ≤ 1))) := by
  unfold apply at h
  split at h
  · cases h
  obtain ⟨c, tag, place, text, hc, ht, he, hbefore, hafter⟩ := apply_replaces h hr
  obtain ⟨entries, ho⟩ := outcome_of_ofTag? he
  have hwhole := ho.whole
  rw [← hwhole] at hbefore
  have hopen := staysOpen_of_openingTag? ht
  have hcount := stylesOfTag_eq hwhole hopen ho.mayStand.1 (front content c tag) (back content c tag)
  have hcount' := stylesOfTag_eq hwhole hopen ho.mayStand.2 (front content c tag) (back content c tag)
  change stylesOfTag (_ ++ place.whole ++ _) _ = _ at hcount
  rw [← hbefore] at hcount
  rw [← hafter] at hcount'
  have hregular : Regular tag place entries → stylesOfTag r (front content c tag ++ tag.name).length =
      stylesOfTag content (front content c tag ++ tag.name).length + if place.inside = [] then 1 else 0 := by
    intro hreg
    rw [hcount, hcount', ho.stylesFrom_eq hreg, Nat.add_assoc]
  refine ⟨c, tag, place, entries, text, _, hc, ht, ho, hbefore, hafter, rfl, hcount', hregular,
    ho.regular_of_ordinary, fun hin hclosed => ?_, ?_⟩
  · cases ho with
    | inserted hnone =>
      obtain ⟨hfront, hfrom⟩ := styles_around_insertion tag (back content c tag)
      rw [hcount, hfront, hfrom, Nat.zero_add]
      exact topStyles_eq_zero_of_closed hclosed (Candidate.delimited_of_openingTag? ht) hnone _
    | replaced hsome =>
      obtain ⟨-, t, ht⟩ := assigns_of_replaced hsome
      simp [ht] at hin
  · by_cases hreg : Regular tag place entries
    · rw [hregular hreg]
      simp only [hreg, true_and, not_true, false_and, or_false]
      by_cases hin : place.inside = []
      · simp [hin]
        omega
      · simp [hin]
    · rw [hcount']
      simp only [hreg, false_and, not_false_eq_true, true_and, false_or]
      omega

/-- A link without a style gets its first one. -/
theorem link_gets_one_style :
    let content := "<a href='/x'>".toList
    let link : Element := { tagName := "a".toList, attributes := [("href".toList, "/x".toList)] }
    let r := "<a style=\x7b\x7b color: 'red' \x7d\x7d href='/x'>".toList
    apply {} content (.ok 1) link [("color".toList, "red".toList)] = .ok (some r) ∧ r ≠ content ∧
      ∃ c tag, Candidate.locate {} (Text.lines content) (.ok 1) link = .ok (some c) ∧
        c.openingTag? {} link = some tag ∧
        (stylesOfTag content (front content c tag ++ tag.name).length ≤ 1 →
          stylesOfTag r (front content c tag ++ tag.name).length ≤ 1) := by
  intro content link r
  have hedit : apply {} content (.ok 1) link [("color".toList, "red".toList)] = .ok (some r) := by rfl
  have hr : r ≠ content := by decide
  obtain ⟨c, tag, place, entries, text, nameEnd, hc, ht, ho, -, -, rfl, -, -, hregular, hclosed, hiff⟩ :=
    apply_keeps_one_style_iff {} content (.ok 1) link [("color".toList, "red".toList)] hedit hr
  refine ⟨hedit, hr, c, tag, hc, ht, hiff.mpr (.inl ?_)⟩
  have hlocate : Candidate.locate {} (Text.lines content) (.ok 1) link =
      .ok (some (Candidate.atLine {} (Text.lines content) (Evidence.rank {} link.attributes) 0)) := by rfl
  cases hc.symm.trans hlocate
  cases ht.symm.trans (show _ = some (OpeningTag.ofOffset 1 content 0) by rfl)
  have hin : place.inside = [] := by
    cases ho with
    | inserted _ => rfl
    | replaced hsome =>
      have hnone : first? written? none (OpeningTag.ofOffset 1 content 0).head = none := by rfl
      cases hnone.symm.trans hsome
  have hzero := hclosed hin ⟨" href='/x'".toList, by rfl, by rfl⟩
  exact ⟨hregular hin (by decide), fun h => absurd (hzero.symm.trans h.2) (by decide)⟩

/-- The arrow of a handler ends the block, so the style on the next line is not seen and the tag gets another. -/
theorem style_behind_arrow_doubled :
    let content := "<a href='/x' onClick=\x7b() => f()\x7d\n style=\x7bs\x7d>".toList
    let link : Element := { tagName := "a".toList, attributes := [("href".toList, "/x".toList)] }
    let r := "<a style=\x7b\x7b color: 'red' \x7d\x7d href='/x' onClick=\x7b() => f()\x7d\n style=\x7bs\x7d>".toList
    apply {} content (.ok 1) link [("color".toList, "red".toList)] = .ok (some r) ∧ r ≠ content ∧
      ∃ c tag, Candidate.locate {} (Text.lines content) (.ok 1) link = .ok (some c) ∧
        c.openingTag? {} link = some tag ∧ stylesOfTag content (front content c tag ++ tag.name).length = 1 ∧
          stylesOfTag r (front content c tag ++ tag.name).length = 2 := by
  intro content link r
  exact ⟨by rfl, by decide, Candidate.atLine {} (Text.lines content) (Evidence.rank {} link.attributes) 0,
    OpeningTag.ofOffset 1 "<a href='/x' onClick=\x7b() => f()\x7d".toList 0, by rfl, by rfl, by rfl, by rfl⟩

end LiveEdit.StyleEdit
