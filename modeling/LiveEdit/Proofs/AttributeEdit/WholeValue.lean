/-
  LiveEdit.Proofs.AttributeEdit.WholeValue — whether the passage that an attribute edit replaces is one attribute.

  The edit looks for a name, an equals sign and a value, and knows neither escapes nor nested braces nor whether
  it is within another value. `Spelled` is what it finds; `span_at_topLevel_iff` says when the scanner of opening
  tags takes that for whole.
-/

import LiveEdit.Edit.AttributeEdit
import LiveEdit.Proofs.Edit.Assignment
import LiveEdit.Proofs.Edit.EditedTag
import LiveEdit.Proofs.Markup.TopLevel
import LiveEdit.Proofs.Text.Passage

namespace LiveEdit.AttributeEdit

open Markup TagEdit

/-! ## What is replaced -/

/-- How an attribute is written: what assigns to it, its value, and both with the marks around the value. -/
inductive Spelled (name : Text) : Written → (assign value inside : Text) → Prop
  | quoted {assign value : Text} {quote : Char} (ha : Assigns name assign) (hq : quote = '\'' ∨ quote = '"')
      (hv : quote ∉ value) : Spelled name (.quoted quote value) assign value (assign ++ quote :: value ++ [quote])
  | expression {assign value : Text} (ha : Assigns name assign) (hv : '\x7d' ∉ value) :
      Spelled name .expression assign value (assign ++ '\x7b' :: value ++ ['\x7d'])

theorem spelled_of_quoted? {name t rest : Text} {previous : Option Char} {w : Written}
    (h : quoted? name previous t = some (w, rest)) :
    ∃ assign value inside, Spelled name w assign value inside ∧ t = inside ++ rest := by
  unfold quoted? at h
  split at h
  · split at h
    · rename_i quote u hu
      obtain ⟨assign, ha, rfl⟩ := assigns_of_afterAssignment? hu
      simp only [Option.ite_none_right_eq_some] at h
      obtain ⟨hq, h⟩ := h
      split at h
      · rename_i c v hv
        simp only [Option.ite_none_right_eq_some, Option.some.injEq, Prod.mk.injEq] at h
        obtain ⟨rfl, rfl, rfl⟩ := h
        obtain ⟨value, htake, hall, -, rfl⟩ := cut_of_dropWhile hv
        rw [htake]
        refine ⟨assign, value, _, .quoted ha (by simpa using hq) (fun hm => ?_), by simp⟩
        simpa using List.all_eq_true.mp hall c hm
      · cases h
    · cases h
  · cases h

theorem spelled_of_expression? {name t rest : Text} {previous : Option Char} {w : Written}
    (h : expression? name previous t = some (w, rest)) :
    ∃ assign value inside, Spelled name w assign value inside ∧ t = inside ++ rest := by
  unfold expression? at h
  split at h
  · split at h
    · rename_i u hu
      obtain ⟨assign, ha, rfl⟩ := assigns_of_afterAssignment? hu
      split at h
      · rename_i c v hv
        cases h
        obtain ⟨value, -, hall, hc, rfl⟩ := cut_of_dropWhile hv
        have hc : c = '\x7d' := by simpa using hc
        refine ⟨assign, value, _, .expression ha (fun hm => ?_), by simp [hc]⟩
        simpa using List.all_eq_true.mp hall _ hm
      · cases h
    · cases h
  · cases h

/-- What a search finds with such a reader stands in the tag as it is spelled. -/
theorem spelled_of_first? {name head : Text} {read : Option Char → Text → Option (Written × Text)}
    (hread : ∀ {previous t w rest}, read previous t = some (w, rest) →
      ∃ assign value inside, Spelled name w assign value inside ∧ t = inside ++ rest)
    {place : Text.Passage} {w : Written} (h : Text.Passage.first? read none head = some (place, w)) :
    place.whole = head ∧ ∃ assign value, Spelled name w assign value place.inside := by
  have leaves : ∀ {previous t w rest}, read previous t = some (w, rest) → rest <:+ t := by
    intro previous t w rest h
    obtain ⟨-, -, inside, -, rfl⟩ := hread h
    exact ⟨inside, rfl⟩
  refine ⟨Text.Passage.whole_first? leaves h, ?_⟩
  obtain ⟨assign, value, inside, hs, he⟩ := hread (Text.Passage.read_of_first? leaves h)
  exact ⟨assign, value, List.append_cancel_right he ▸ hs⟩

theorem spelled_of_written? {name head : Text} {place : Text.Passage} {w : Written}
    (h : written? name head = some (place, w)) :
    place.whole = head ∧ ∃ assign value, Spelled name w assign value place.inside := by
  unfold written? at h
  split at h
  · rename_i a b ha hb
    split at h <;> cases h
    · exact spelled_of_first? spelled_of_expression? hb
    · exact spelled_of_first? spelled_of_quoted? ha
  · rename_i a ha _
    cases h
    exact spelled_of_first? spelled_of_quoted? ha
  · exact spelled_of_first? spelled_of_expression? h

theorem Spelled.assigns {name assign value inside : Text} {w : Written}
    (h : Spelled name w assign value inside) : Assigns name assign := by
  cases h <;> assumption

/-! ## How the scanner reads it -/

/-- From a state before the value, the scanner comes back to the top level just behind it: the quoted value begins
at top level and does not escape its closing mark; all quotes of the expression are closed, and no brace but its
own is open. -/
def TakenWhole (s : Scan) (value : Text) : Written → Prop
  | .quoted _ quoted => s.topLevel = true ∧ Text.endsEscaped quoted = false
  | .expression => (s.after ('\x7b' :: value)).quote = none ∧ (s.after ('\x7b' :: value)).depth ≤ 1

theorem Spelled.topLevel_iff {name assign value inside : Text} {w : Written}
    (h : Spelled name w assign value inside) {s : Scan} (hs : Scan.Reached s) :
    (s.after inside).topLevel = true ↔ TakenWhole (s.after assign) value w := by
  cases h with
  | @quoted _ _ quote ha hq hv =>
    obtain ⟨front, c, rfl, hc⟩ := ha.concat
    have he : (s.after (front ++ [c])).escaped = false := by
      rw [Scan.after_concat]
      exact (hs.after front).not_escaped hc
    rw [List.append_assoc, Scan.after_append]
    exact Scan.quoted_topLevel_iff he (Scan.isQuote_of_eq hq) hv
  | expression ha hv =>
    rw [List.append_assoc, Scan.after_append, Scan.after_concat]
    exact Scan.step_brace_topLevel_iff ((hs.after _).after _)

/-! ## The edit -/

theorem written?_of_ofTag? {name new : Text} {tag : OpeningTag} {place : Text.Passage} {text : Text}
    (h : ofTag? name new tag = some (.replace place text)) :
    ∃ w quote, written? name tag.head = some (place, w) ∧ quoteFor? w.quote new = some quote ∧
      text = name ++ '=' :: quote :: new ++ [quote] := by
  obtain ⟨⟨p, w⟩, hw, h⟩ := Option.bind_eq_some_iff.mp h
  obtain ⟨quote, hq, h⟩ := Option.bind_eq_some_iff.mp h
  split at h
  · cases h
  · cases h
    exact ⟨w, quote, hw, hq, rfl⟩

/-- An attribute edit that changes the document replaces one passage of the tag, an attribute as the edit
reads it. Both ends of the passage are at top level just when it begins there and the scanner takes its value for
a whole one. A name without quotes and braces does not matter to the scanner. -/
theorem apply_replaces_whole_iff (settings : Settings) (content : Text) (line : Except EditError Nat)
    (element : Element) (name new : Text) {r : Text}
    (h : apply settings content line element name new = .ok (some r)) (hr : r ≠ content) :
    ∃ c tag place w assign value quote,
      Candidate.locate settings (Text.lines content) line element = .ok (some c) ∧
      c.openingTag? settings element = some tag ∧ written? name tag.head = some (place, w) ∧
      content = front content c tag ++ place.whole ++ back content c tag ∧
      r = front content c tag ++ place.replace (name ++ '=' :: quote :: new ++ [quote]) ++ back content c tag ∧
      Spelled name w assign value place.inside ∧
      (tag.AtTopLevel place.before ∧ tag.AtTopLevel (place.before ++ place.inside) ↔
        tag.AtTopLevel place.before ∧ TakenWhole (tag.scanAt (place.before ++ assign)) value w) ∧
      (name.all Scan.isPlain = true → tag.AtTopLevel place.before → tag.scanAt (place.before ++ assign) = {}) := by
  obtain ⟨c, tag, place, text, hc, ht, he, hbefore, hafter⟩ := apply_replaces h hr
  obtain ⟨w, quote, hw, -, rfl⟩ := written?_of_ofTag? he
  obtain ⟨hwhole, assign, value, hs⟩ := spelled_of_written? hw
  refine ⟨c, tag, place, w, assign, value, quote, hc, ht, hw, by rw [hwhole]; exact hbefore, hafter, hs, ?_,
    fun hplain hstart => ?_⟩
  · refine and_congr_right fun ⟨hname, _⟩ => ?_
    have hend : tag.AtTopLevel (place.before ++ place.inside) ↔
        (tag.scanAt (place.before ++ place.inside)).topLevel = true :=
      ⟨And.right, fun h => ⟨hname.trans (List.prefix_append _ _), h⟩⟩
    rw [hend, OpeningTag.scanAt_append hname, OpeningTag.scanAt_append hname]
    exact hs.topLevel_iff (tag.reached_scanAt _)
  · rw [OpeningTag.scanAt_append hstart.1, (tag.reached_scanAt _).eq_start hstart.2]
    exact Scan.after_plain rfl (hs.assigns.isPlain hplain)

/-- The target of a link is replaced as a whole. -/
theorem link_target_replaced_whole :
    let content := "<a href='/x'>".toList
    let link : Element := { tagName := "a".toList, attributes := [("href".toList, "/x".toList)] }
    apply {} content (.ok 1) link "href".toList "/y".toList = .ok (some "<a href='/y'>".toList) ∧
      "<a href='/y'>".toList ≠ content ∧
      ∃ c tag place w, Candidate.locate {} (Text.lines content) (.ok 1) link = .ok (some c) ∧
        c.openingTag? {} link = some tag ∧ written? "href".toList tag.head = some (place, w) ∧
        tag.AtTopLevel place.before ∧ tag.AtTopLevel (place.before ++ place.inside) := by
  intro content link
  have hedit : apply {} content (.ok 1) link "href".toList "/y".toList = .ok (some "<a href='/y'>".toList) := by rfl
  have hr : "<a href='/y'>".toList ≠ content := by decide
  obtain ⟨c, tag, place, w, assign, value, quote, hc, ht, hw, -, -, -, hiff, hplain⟩ :=
    apply_replaces_whole_iff {} content (.ok 1) link "href".toList "/y".toList hedit hr
  refine ⟨hedit, hr, c, tag, place, w, hc, ht, hw, hiff.mpr ?_⟩
  have hlocate : Candidate.locate {} (Text.lines content) (.ok 1) link =
      .ok (some (Candidate.atLine {} (Text.lines content) (Evidence.rank {} link.attributes) 0)) := by rfl
  cases hc.symm.trans hlocate
  cases ht.symm.trans (show _ = some (OpeningTag.ofOffset 1 content 0) by rfl)
  cases hw.symm.trans
    (show _ = some (⟨"<a ".toList, "href='/x'".toList, ">".toList⟩, .quoted '\'' "/x".toList) by rfl)
  have hstart : (OpeningTag.ofOffset 1 content 0).AtTopLevel "<a ".toList := ⟨by decide, by decide⟩
  refine ⟨hstart, ?_⟩
  rw [hplain (by decide) hstart]
  exact ⟨by decide, by decide⟩

/-- Of a target with a template literal in it only the first part is replaced: the passage ends within the
literal, and the rest of it stays in the tag. -/
theorem template_literal_cut :
    let content := "<a aria-label='Go' href=\x7b\x60/$\x7bi\x7d\x60\x7d>".toList
    let link : Element := { tagName := "a".toList, attributes := [("aria-label".toList, "Go".toList)] }
    let r := "<a aria-label='Go' href=\"/y\"\x60\x7d>".toList
    apply {} content (.ok 1) link "href".toList "/y".toList = .ok (some r) ∧ r ≠ content ∧
      ∃ c tag place w, Candidate.locate {} (Text.lines content) (.ok 1) link = .ok (some c) ∧
        c.openingTag? {} link = some tag ∧ written? "href".toList tag.head = some (place, w) ∧
        tag.AtTopLevel place.before ∧ ¬ tag.AtTopLevel (place.before ++ place.inside) := by
  intro content link r
  refine ⟨by rfl, by decide, Candidate.atLine {} (Text.lines content) (Evidence.rank {} link.attributes) 0,
    OpeningTag.ofOffset 1 content 0,
    ⟨"<a aria-label='Go' ".toList, "href=\x7b\x60/$\x7bi\x7d".toList, "\x60\x7d>".toList⟩, .expression,
    by rfl, by rfl, by rfl, ⟨by decide, by decide⟩, fun h => ?_⟩
  exact absurd h.2 (by decide)

end LiveEdit.AttributeEdit
