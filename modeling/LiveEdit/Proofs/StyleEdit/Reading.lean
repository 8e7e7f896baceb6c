/-
  LiveEdit.Proofs.StyleEdit.Reading — what a style edit finds in a tag, and what it writes in its place.

  `written?_eq_some` says how a `style` is spelled that the edit finds. `Writes` says what becomes of it: the entries
  that it holds and the new ones are written in its place, and new ones alone if no style is found
  (`writes_of_ofTag?`). An edit that changes the document does that and nothing else (`apply_writes`).
-/

import LiveEdit.Proofs.Edit.EditedTag
import LiveEdit.Proofs.StyleEdit.TopStyles

namespace LiveEdit.StyleEdit

open Markup TagEdit Text.Passage

/-! ## The style that is found -/

/-- The value of a `style` attribute as it is written; of a value that is left alone nothing is read. -/
inductive Value : Written → Text → Prop
  | object {body : Text} (hb : ∀ c ∈ body, c ≠ '\x7b' ∧ c ≠ '\x7d') :
      Value (.object body) ('\x7b' :: '\x7b' :: body ++ ['\x7d', '\x7d'])
  | string {quote : Char} {body : Text} (hq : quote = '\'' ∨ quote = '"') (hb : quote ∉ body) :
      Value (.string body) (quote :: body ++ [quote])
  | other : Value .other []

theorem object?_eq_some {t body rest : Text} (h : object? t = some (body, rest)) :
    (∀ c ∈ body, c ≠ '\x7b' ∧ c ≠ '\x7d') ∧ t = '\x7b' :: '\x7b' :: body ++ ['\x7d', '\x7d'] ++ rest := by
  unfold object? at h
  split at h
  · rename_i u
    simp only at h
    split at h
    · rename_i v hv
      cases h
      obtain ⟨body, htake, hall, -, rfl⟩ := cut_of_dropWhile hv
      rw [htake]
      refine ⟨fun c hc => ?_, by simp⟩
      simpa using List.all_eq_true.mp hall c hc
    · cases h
  · cases h

theorem string?_eq_some {t body rest : Text} (h : string? t = some (body, rest)) :
    ∃ quote, (quote = '\'' ∨ quote = '"') ∧ quote ∉ body ∧ t = quote :: body ++ [quote] ++ rest := by
  unfold string? at h
  split at h
  · cases h
  · rename_i quote u
    simp only [Option.ite_none_right_eq_some] at h
    obtain ⟨hq, h⟩ := h
    split at h
    · cases h
    · rename_i c v hv
      cases h
      obtain ⟨body, htake, hall, hc, rfl⟩ := cut_of_dropWhile hv
      have hc : c = quote := by simpa using hc
      rw [htake]
      refine ⟨quote, by simpa using hq, fun hm => ?_, by simp [hc]⟩
      simpa using List.all_eq_true.mp hall quote hm

theorem written?_eq_some {previous : Option Char} {t rest : Text} {w : Written}
    (h : written? previous t = some (w, rest)) :
    startsName previous = true ∧
      ∃ assign value, Assigns "style".toList assign ∧ Value w value ∧ t = assign ++ value ++ rest := by
  unfold written? at h
  simp only [Option.ite_none_right_eq_some] at h
  obtain ⟨hp, h⟩ := h
  obtain ⟨value, hv, hread⟩ := Option.map_eq_some_iff.mp h
  obtain ⟨assign, ha, rfl⟩ := assigns_of_afterAssignment? hv
  refine ⟨hp, assign, ?_⟩
  split at hread
  · rename_i body _ ho
    cases hread
    obtain ⟨hb, hv⟩ := object?_eq_some ho
    exact ⟨_, ha, .object hb, by rw [hv]; simp⟩
  · rename_i body _ _ hs
    cases hread
    obtain ⟨quote, hq, hb, hv⟩ := string?_eq_some hs
    exact ⟨_, ha, .string hq hb, by rw [hv]; simp⟩
  · cases hread
    exact ⟨[], ha, .other, by simp⟩

theorem written?_eq_none_iff {previous : Option Char} {t : Text} :
    written? previous t = none ↔ (startsName previous = true → assignsStyle t = false) := by
  unfold written? assignsStyle
  cases startsName previous <;> simp

theorem written?_leaves {previous : Option Char} {t rest : Text} {w : Written}
    (h : written? previous t = some (w, rest)) : rest <:+ t := by
  obtain ⟨-, assign, value, -, -, rfl⟩ := written?_eq_some h
  exact List.suffix_append _ _

/-! ## What is written -/

/-- The entries of a style that is found; an expression that is no flat object has none to keep. -/
def entriesOf? : Written → Option (Assoc Text)
  | .object body => Style.parse? body
  | .string body => some (Style.ofDeclarations body)
  | .other => none

/-- What an edit writes where: the new entries right behind the tag's name if no style is found in the tag, and else
the entries of the style that is found with the new ones, in its place. -/
inductive Writes (new : Assoc Text) (tag : OpeningTag) : (place : Text.Passage) → (found : Option Written) →
    (entries : Assoc Text) → (text : Text) → Prop
  | inserted (hnone : first? written? none tag.head = none) :
      Writes new tag ⟨tag.name, [], tag.body⟩ none new (' ' :: assignment new)
  | merged {place : Text.Passage} {w : Written} {old : Assoc Text}
      (hsome : first? written? none tag.head = some (place, w)) (hold : entriesOf? w = some old) :
      Writes new tag place (some w) (old.putAll new) (assignment (old.putAll new))

theorem writes_of_ofTag? {new : Assoc Text} {tag : OpeningTag} {place : Text.Passage} {text : Text}
    (h : ofTag? new tag = some (.replace place text)) :
    ∃ found entries, Writes new tag place found entries text := by
  unfold ofTag? at h
  split at h
  · rename_i hnone
    cases h
    exact ⟨none, new, .inserted hnone⟩
  · rename_i p body hsome
    obtain ⟨existing, hparse, h⟩ := Option.map_eq_some_iff.mp h
    simp only at h
    split at h
    · cases h
    · cases h
      exact ⟨_, _, .merged hsome hparse⟩
  · rename_i p body hsome
    cases h
    exact ⟨_, _, .merged hsome rfl⟩
  · cases h

theorem Writes.whole {new entries : Assoc Text} {tag : OpeningTag} {place : Text.Passage} {found : Option Written}
    {text : Text} (h : Writes new tag place found entries text) : place.whole = tag.head := by
  cases h with
  | inserted _ => simp [Text.Passage.whole, OpeningTag.head]
  | merged hsome _ => exact whole_first? written?_leaves hsome

/-- A style edit that changes the document writes a style in one place of the element's tag. -/
theorem apply_writes {settings : Settings} {content : Text} {line : Except EditError Nat} {element : Element}
    {css : Assoc Text} {r : Text} (h : apply settings content line element css = .ok (some r)) (hr : r ≠ content) :
    ∃ c tag place found entries text,
      Candidate.locate settings (Text.lines content) line element = .ok (some c) ∧
      c.openingTag? settings element = some tag ∧ Writes (Style.ofChanges css) tag place found entries text ∧
      content = front content c tag ++ place.whole ++ back content c tag ∧
      r = front content c tag ++ place.replace text ++ back content c tag := by
  unfold apply at h
  split at h
  · cases h
  · obtain ⟨c, tag, place, text, hc, ht, he, hbefore, hafter⟩ := apply_replaces h hr
    obtain ⟨found, entries, hw⟩ := writes_of_ofTag? he
    rw [← hw.whole] at hbefore
    exact ⟨c, tag, place, found, entries, text, hc, ht, hw, hbefore, hafter⟩

end LiveEdit.StyleEdit
