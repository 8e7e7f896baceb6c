/-
  LiveEdit.Proofs.Fallback.Snippet — which texts are accepted as snippets, and which answers give them.

  An accepted snippet is not empty, has no blanks at its ends and does not read like an explanation (`IsSnippet`). Such
  a text is taken out of a fence exactly, whatever the answer says in front of the fence and behind it
  (`parse_block`). What has been accepted is accepted again as it is: no closed fence is left in it, and no fence at
  all if the answer had a closed one (`parse_stable`).
-/

import LiveEdit.Proofs.Fallback.Fence

namespace LiveEdit

open Fallback

/-- A text without a snippet in it: nothing is left of it, or it reads like an explanation. -/
def Unusable (snippet : Text) : Prop := snippet = [] ∨ looksLikeProse snippet = true

theorem parse_eq_ok_iff {response snippet : Text} :
    parse response = .ok snippet ↔ ¬ Unusable (snippetText response) ∧ snippet = snippetText response := by
  by_cases hempty : snippetText response = []
  · simp [parse, Unusable, hempty]
  · by_cases hprose : looksLikeProse (snippetText response) = true
    · simp [parse, Unusable, hempty, hprose]
    · have hparse : parse response = .ok (snippetText response) := by simp [parse, hempty, hprose]
      have husable : ¬ Unusable (snippetText response) := not_or.mpr ⟨hempty, hprose⟩
      rw [hparse, Except.ok.injEq]
      exact ⟨fun h => ⟨husable, h.symm⟩, fun h => h.2.symm⟩

namespace Fallback

/-- Texts that may be accepted as they are, but for a fence in them. -/
structure IsSnippet (t : Text) : Prop where
  nonempty : t ≠ []
  stripped : Text.strip t = t
  isCode : looksLikeProse t = false

theorem parse_of_snippetText {response s : Text} (hs : IsSnippet s) (h : snippetText response = s) :
    parse response = .ok s := by
  have husable : ¬ Unusable s := not_or.mpr ⟨hs.nonempty, by simp [hs.isCode]⟩
  exact parse_eq_ok_iff.mpr ⟨h.symm ▸ husable, h.symm⟩

theorem isSnippet_of_parse {response s : Text} (h : parse response = .ok s) : IsSnippet s := by
  obtain ⟨husable, rfl⟩ := parse_eq_ok_iff.mp h
  obtain ⟨hne, hprose⟩ := not_or.mp husable
  exact ⟨hne, strip_snippetText response, by simpa using hprose⟩

/-- Accepted as they are: snippets without a closed fence. -/
theorem parse_eq_self_iff (s : Text) : parse s = .ok s ↔ IsSnippet s ∧ ¬ HoldsBlock s := by
  constructor
  · intro h
    have hs := isSnippet_of_parse h
    exact ⟨hs, ((snippetText_eq_self_iff s).mp (parse_eq_ok_iff.mp h).2.symm).2⟩
  · rintro ⟨hs, hno⟩
    exact parse_of_snippetText hs ((snippetText_eq_self_iff s).mpr ⟨hs.stripped, hno⟩)

/-- A snippet without a fence in it is what an answer gives that puts it into a fence, on lines of its own: with any of
the language tags or none, with anything behind the closing fence, and with anything in front of the opening one that
neither holds a fence nor ends with a backtick. An answer of the snippet alone gives it too, with any blanks around. -/
theorem parse_block {s : Text} (hs : IsSnippet s) (hno : ¬ fence <:+: s) :
    (∀ language before after, (language = [] ∨ language ∈ languages) → ¬ fence <:+: before →
      before.getLast? ≠ some '\x60' →
        parse (before ++ (fence ++ language ++ '\n' :: s ++ '\n' :: fence) ++ after) = .ok s) ∧
      ∀ front back, Text.allBlank front = true → Text.allBlank back = true →
        parse (front ++ s ++ back) = .ok s := by
  constructor
  · intro language before after hlanguage hbefore hend
    have hblock : fence ++ language ++ '\n' :: s ++ '\n' :: fence = block language s := by simp [block]
    refine parse_of_snippetText hs ?_
    rw [hblock, snippetText_block hno hlanguage hbefore hend, hs.stripped]
  · intro front back hfront hback
    have hstrip : Text.strip (front ++ s ++ back) = s := by
      rw [Text.strip_around hs.nonempty hs.stripped, List.dropWhile_eq_nil_iff.mpr (List.all_eq_true.mp hfront),
        List.rdropWhile_eq_nil_iff.mpr (List.all_eq_true.mp hback), List.nil_append, List.append_nil]
    refine parse_of_snippetText hs ?_
    rw [snippetText_of_not_holdsBlock, hstrip]
    rw [hstrip]
    exact fun hblock => hno hblock.fence_isInfix

/-- Code that begins like a language tag and holds backticks, in a fence with a tag, between words and another fence. -/
theorem tagged_snippet_unwrapped :
    let s := "tsx\x60\x60\n\n  ts".toList
    let before := "\nSee \x60a\x60:\n".toList
    let after := "\nor\n\x60\x60\x60\nb\n\x60\x60\x60 ".toList
    IsSnippet s ∧ ¬ fence <:+: s ∧ ¬ fence <:+: before ∧ before.getLast? ≠ some '\x60' ∧
      parse (before ++ (fence ++ "ts".toList ++ '\n' :: s ++ '\n' :: fence) ++ after) = .ok s ∧
      parse (" \n".toList ++ s ++ "\n".toList) = .ok s := by
  intro s before after
  have hs : IsSnippet s := ⟨by decide, by decide, by decide⟩
  have hno : ¬ fence <:+: s := mt (Text.occurs_iff_isInfix fence s).mpr (by decide)
  have hbefore : ¬ fence <:+: before := mt (Text.occurs_iff_isInfix fence before).mpr (by decide)
  obtain ⟨hblock, halone⟩ := parse_block hs hno
  exact ⟨hs, hno, hbefore, by decide, hblock _ before after (by decide) hbefore (by decide),
    halone _ _ (by decide) (by decide)⟩

/-- What an answer gives is a snippet without a closed fence, and gives itself when it is the answer. If the answer had
a closed fence, there is no fence in the snippet at all. -/
theorem parse_stable {response s : Text} (h : parse response = .ok s) :
    IsSnippet s ∧ ¬ HoldsBlock s ∧ parse s = .ok s ∧ (HoldsBlock response → ¬ fence <:+: s) := by
  have hs := isSnippet_of_parse h
  obtain ⟨-, rfl⟩ := parse_eq_ok_iff.mp h
  have hno : ¬ HoldsBlock (snippetText response) := not_holdsBlock_snippetText response
  exact ⟨hs, hno, (parse_eq_self_iff _).mpr ⟨hs, hno⟩, not_fence_snippetText⟩

/-- An answer with two fences in a row, and a third that nothing closes. -/
theorem snippet_of_three_fences_stable :
    let response := "a\n\x60\x60\x60\x60 b\x60\x60\x60js\nc \x60\x60\x60 d".toList
    let s := "\x60 b".toList
    parse response = .ok s ∧ HoldsBlock response ∧ IsSnippet s ∧ parse s = .ok s ∧ ¬ fence <:+: s := by
  intro response s
  have h : parse response = .ok s := by rfl
  have hblock : HoldsBlock response := ⟨"a\n".toList, "\x60 b".toList, "js\nc \x60\x60\x60 d".toList, by decide⟩
  obtain ⟨hs, -, hself, hno⟩ := parse_stable h
  exact ⟨h, hblock, hs, hself, hno hblock⟩

end Fallback

end LiveEdit
