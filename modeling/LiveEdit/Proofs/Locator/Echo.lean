/-
  LiveEdit.Proofs.Locator.Echo — a generator that gives back the snippet it was shown.

  A reply that repeats the snippet should change nothing. Before it is compared with the source, though, it loses the
  blanks at its ends, and a fence in it may be taken for one around it. So nothing changes just when the reply holds
  no snippet at all or the snippet survives both (`echo_changes_nothing_iff`); the indentation of the first line is
  enough for a patch (`echo_loses_indentation`).
-/

import LiveEdit.Proofs.Fallback.Snippet
import LiveEdit.Proofs.Locator.Escalation

namespace LiveEdit

open Fallback

/-! ## Replies that repeat the snippet -/

/-- A snippet is repeated as it is, or in the fence in which the prompt shows it. -/
inductive Echo where
  | bare
  | fenced
  deriving DecidableEq

namespace Echo

def reply : Echo → Text → Text
  | .bare, t => t
  | .fenced, t => inFence t

/-- What is taken from the reply is the text that it repeats: there are no blanks at the ends to lose, and no fences
in it to mislead. -/
def Survives : Echo → Text → Prop
  | .bare, t => Text.strip t = t ∧ ¬ HoldsBlock t
  | .fenced, t => Text.strip t = t ∧ ¬ fence <:+: t

theorem snippetText_reply_eq_iff (e : Echo) (t : Text) : snippetText (e.reply t) = t ↔ e.Survives t := by
  cases e with
  | bare => exact snippetText_eq_self_iff t
  | fenced => exact snippetText_inFence_eq_iff t

theorem survives_of_no_fence (e : Echo) {t : Text} (hstrip : Text.strip t = t) (h : ¬ fence <:+: t) : e.Survives t := by
  cases e with
  | bare => exact ⟨hstrip, fun hblock => h hblock.fence_isInfix⟩
  | fenced => exact ⟨hstrip, h⟩

/-- Without a fence in the text, either reply gives the text without the blanks at its ends. -/
theorem snippetText_reply (e : Echo) {t : Text} (h : ¬ fence <:+: t) : snippetText (e.reply t) = Text.strip t := by
  cases e with
  | fenced => exact snippetText_inFence h
  | bare =>
    exact snippetText_of_not_holdsBlock fun hblock => h (hblock.fence_isInfix.trans (Text.strip_isInfix t))

end Echo

/-- The generator is shown the text of its window in a fence. -/
theorem Shown.user_eq {settings : Settings} {r : Request} {filePath : Text} {line : Option Nat}
    {start stop target : Nat} {p : Prompt} (h : Shown settings r filePath line start stop target p) :
    ∃ head, p.user = head ++ inFence (windowText r.sourceText start stop) := by
  obtain ⟨reliable, -, rfl⟩ := h.prompt
  rw [← snippet_ofLines r.sourceText start stop target reliable r.element r.change filePath]
  exact ⟨_, Brief.prompt_eq _⟩

/-! ## The outcome -/

/-- When the fast path has declined, the generator is asked once about a window of the source. If it repeats the
window, nothing changes iff there is no snippet in the reply or the window survives; for a window without a fence
this means that it is blank, or reads like an explanation, or has no blanks at its ends. A patch has what is taken
from the reply in the place of the window. -/
theorem echo_changes_nothing_iff {settings : Settings} {project : Option Text} {r : Request} {filePath : Text}
    {fast : FastPath} (h : FastDeclines settings project r filePath fast) (g : Generator) (calls : Nat) :
    ∃ start stop target p, Shown settings r filePath fast.line start stop target p ∧
      (∃ head, p.user = head ++ inFence (windowText r.sourceText start stop)) ∧
      (locate settings project (some g) calls r).prompts = [p] ∧
      ∀ e : Echo, g.answer calls p = .text (e.reply (windowText r.sourceText start stop)) →
        ((locate settings project (some g) calls r).result = .ok none ↔
          Unusable (snippetText (e.reply (windowText r.sourceText start stop))) ∨
            e.Survives (windowText r.sourceText start stop)) ∧
        (¬ fence <:+: windowText r.sourceText start stop →
          snippetText (e.reply (windowText r.sourceText start stop)) =
            Text.strip (windowText r.sourceText start stop)) ∧
        ∀ patch, (locate settings project (some g) calls r).result = .ok (some patch) →
          patch.content = withSnippet r.sourceText start stop
            (snippetText (e.reply (windowText r.sourceText start stop))) := by
  obtain ⟨start, stop, target, p, hs, hprompts, hresult⟩ := locate_asks h g calls
  refine ⟨start, stop, target, p, hs, hs.user_eq, hprompts, ?_⟩
  intro e he
  have hlt : start < stop := Nat.lt_of_lt_of_le hs.inside.1 hs.inside.2.1
  obtain ⟨hnone, hsome⟩ := patchOfReply_text r filePath g.provider target hlt hs.inside.2.2
    (e.reply (windowText r.sourceText start stop))
  rw [hresult, he]
  refine ⟨?_, e.snippetText_reply, ?_⟩
  · rw [hnone, ← e.snippetText_reply_eq_iff]
    constructor
    · intro hall
      by_cases hu : Unusable (snippetText (e.reply (windowText r.sourceText start stop)))
      · exact .inl hu
      · exact .inr (hall _ (parse_eq_ok_iff.mpr ⟨hu, rfl⟩))
    · intro hor snippet hparse
      obtain ⟨hu, rfl⟩ := parse_eq_ok_iff.mp hparse
      rcases hor with hu' | hkept
      · exact absurd hu' hu
      · exact hkept
  · intro patch hpatch
    obtain ⟨snippet, hparse, hcontent⟩ := hsome patch hpatch
    rw [hcontent, (parse_eq_ok_iff.mp hparse).2]

/-- A text that is not in the source, asked of a generator that repeats the three of four lines that it was shown. -/
theorem echo_of_paragraph_changes_nothing :
    let settings : Settings := { fallbackContextLines := ⟨2, by decide⟩ }
    let source := "<p>\n  Hi\n</p>\n<hr>".toList
    let shown := "<p>\n  Hi\n</p>".toList
    let r : Request := { sourceText := source, change := .text "Bye".toList "Hey".toList, reportedLine := some (.int 1) }
    FastDeclines settings none r [] ⟨none, "text:derived-line".toList, none⟩ ∧
      windowText source 0 3 = shown ∧
      ∀ e : Echo,
        let g : Generator := { answer := fun _ _ => .text (e.reply shown) }
        (locate settings none (some g) 0 r).result = .ok none := by
  intro settings source shown r
  have h : FastDeclines settings none r [] ⟨none, "text:derived-line".toList, none⟩ :=
    ⟨rfl, .inl rfl, by decide +kernel, fun _ hc => by cases hc⟩
  have hwindow : windowText source 0 3 = shown := by rfl
  refine ⟨h, hwindow, ?_⟩
  intro e g
  obtain ⟨start, stop, target, p, hs, -, -, hall⟩ := echo_changes_nothing_iff h g 0
  have hclamp : Line.clamp (Text.lines source).length (lineValue r.reportedLine) = .ok 1 := by rfl
  obtain rfl : target = 1 := by
    rcases hs.targets with ht | ⟨-, ht⟩
    · cases ht
    · exact Except.ok.inj (ht.symm.trans hclamp)
  have haround : window settings (Text.lines source).length 1 = (0, 3) := by rfl
  obtain ⟨rfl, rfl⟩ : start = 0 ∧ stop = 3 := Prod.mk.inj (hs.around.symm.trans haround)
  have hreply : g.answer 0 p = .text (e.reply (windowText r.sourceText 0 3)) := by
    show Reply.text (e.reply shown) = .text (e.reply (windowText source 0 3))
    rw [hwindow]
  refine (hall e hreply).1.mpr (.inr ?_)
  show e.Survives (windowText source 0 3)
  rw [hwindow]
  exact e.survives_of_no_fence (by decide) (no_fence_of_no_backtick (by decide))

/-- One line that is indented comes back without its indentation, and that is a patch. -/
theorem echo_loses_indentation :
    let r : Request := { sourceText := "  <p>Hi</p>".toList, change := .text "Bye".toList "Hey".toList }
    FastDeclines {} none r [] ⟨none, "text:derived-line".toList, none⟩ ∧
      windowText r.sourceText 0 1 = r.sourceText ∧
      ∀ e : Echo,
        let g : Generator := { answer := fun _ _ => .text (e.reply r.sourceText) }
        let outcome := locate {} none (some g) 0 r
        (∃ target p, Shown {} r [] none 0 1 target p ∧ outcome.prompts = [p]) ∧
          ∃ patch, outcome.result = .ok (some patch) ∧ patch.content = "<p>Hi</p>".toList := by
  intro r
  have h : FastDeclines {} none r [] ⟨none, "text:derived-line".toList, none⟩ :=
    ⟨rfl, .inl rfl, rfl, fun _ hc => by cases hc⟩
  refine ⟨h, rfl, ?_⟩
  intro e g outcome
  obtain ⟨start, stop, target, p, hs, hprompts, hresult⟩ := locate_asks h g 0
  have hone : (Text.lines r.sourceText).length = 1 := by rfl
  obtain ⟨rfl, rfl⟩ : start = 0 ∧ stop = 1 := by
    have hinside := hs.inside
    omega
  refine ⟨⟨target, p, hs, hprompts⟩, ?_⟩
  have hparse : parse (e.reply r.sourceText) = .ok "<p>Hi</p>".toList := by
    rw [parse_eq_ok_iff, e.snippetText_reply (no_fence_of_no_backtick (by decide))]
    exact ⟨by unfold Unusable; decide, by decide⟩
  rw [hresult]
  show ∃ patch, patchOfReply r [] g.provider 0 1 target (.text (e.reply r.sourceText)) = .ok (some patch) ∧ _
  rw [patchOfReply_of_parse r [] g.provider 0 1 target hparse, if_neg (by decide)]
  exact ⟨_, rfl, rfl⟩

end LiveEdit
