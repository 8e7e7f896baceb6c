/-
  LiveEdit.Proofs.Fallback.Fence — which part of an answer is taken for the snippet.

  A fence is closed if another one follows it (`fenced?_isSome_iff`): neither a language tag nor blanks can hide the
  second. An answer is taken as it is just when nothing stands around it or in it that could be a fence
  (`snippetText_eq_self_iff`), and of an answer with a closed fence a part is taken that holds none
  (`not_fence_snippetText`). Of a text in a fence the text itself is taken, without the blanks at its ends, if it holds
  no fence, whatever stands around (`snippetText_block`).
-/

import LiveEdit.Fallback.Prompt
import LiveEdit.Fallback.Response
import LiveEdit.Proofs.Text.Occurrence
import LiveEdit.Proofs.Text.Strip

namespace LiveEdit.Fallback

/-! ## Closed fences -/

/-- What was taken off the front of a text with a fence in it does not touch the fence, if it has no backtick. -/
theorem fence_survives {taken rest front back : Text} (ht : '\x60' ∉ taken)
    (h : taken ++ rest = front ++ fence ++ back) : ∃ front', rest = front' ++ fence ++ back := by
  rw [List.append_assoc] at h
  rcases List.append_eq_append_iff.mp h with ⟨x, rfl, hr⟩ | ⟨x, rfl, hx⟩
  · exact ⟨x, by rw [hr, List.append_assoc]⟩
  · cases x with
    | nil => exact ⟨[], hx.symm⟩
    | cons c x =>
      obtain ⟨rfl, -⟩ := List.cons.inj hx
      exact absurd (by simp) ht

theorem afterLanguage_suffix (t : Text) : ∃ language, '\x60' ∉ language ∧ t = language ++ afterLanguage t := by
  unfold afterLanguage
  cases h : languages.findSome? (Text.afterStart? · t) with
  | none => exact ⟨[], by simp, rfl⟩
  | some rest =>
    obtain ⟨language, hl, hrest⟩ := List.exists_of_findSome?_eq_some h
    have hno : ∀ l ∈ languages, '\x60' ∉ l := by decide
    exact ⟨language, hno language hl, Text.afterStart?_eq_some_iff.mp hrest⟩

theorem blanks_suffix (t : Text) : ∃ blanks, '\x60' ∉ blanks ∧ t = blanks ++ t.dropWhile Text.isBlank := by
  refine ⟨t.takeWhile Text.isBlank, fun h => ?_, List.takeWhile_append_dropWhile.symm⟩
  exact absurd (List.mem_takeWhile_imp h) (by decide)

/-- What is skipped behind a fence holds no backtick. -/
theorem opened_suffix (t : Text) :
    ∃ skipped, '\x60' ∉ skipped ∧ t = skipped ++ (afterLanguage t).dropWhile Text.isBlank := by
  obtain ⟨language, hl, ht⟩ := afterLanguage_suffix t
  obtain ⟨blanks, hb, hrest⟩ := blanks_suffix (afterLanguage t)
  refine ⟨language ++ blanks, ?_, ?_⟩
  · intro hmem
    rcases List.mem_append.mp hmem with h | h
    · exact hl h
    · exact hb h
  · rw [List.append_assoc, ← hrest, ← ht]

theorem no_fence_of_no_backtick {t : Text} (h : '\x60' ∉ t) : ¬ fence <:+: t :=
  fun hin => h (hin.subset (by simp [fence]))

/-- A text with two fences, one after the other. -/
def HoldsBlock (t : Text) : Prop := ∃ before inside after, t = before ++ fence ++ inside ++ fence ++ after

theorem HoldsBlock.fence_isInfix {t : Text} (h : HoldsBlock t) : fence <:+: t := by
  obtain ⟨before, inside, after, rfl⟩ := h
  exact ⟨before, inside ++ fence ++ after, by simp only [List.append_assoc]⟩

theorem HoldsBlock.mono {t whole : Text} (h : HoldsBlock t) (hin : t <:+: whole) : HoldsBlock whole := by
  obtain ⟨before, inside, after, rfl⟩ := h
  obtain ⟨front, back, rfl⟩ := hin
  exact ⟨front ++ before, inside, after ++ back, by simp only [List.append_assoc]⟩

theorem fenced?_eq_some_iff {t body : Text} : fenced? t = some body ↔ ∃ before rest after,
    Text.cut? fence t = some (before, rest) ∧
      Text.cut? fence ((afterLanguage rest).dropWhile Text.isBlank) = some (body, after) := by
  constructor
  · intro h
    obtain ⟨⟨before, rest⟩, hopen, h⟩ := Option.bind_eq_some_iff.mp h
    obtain ⟨⟨body', after⟩, hclose, h⟩ := Option.bind_eq_some_iff.mp h
    cases h
    exact ⟨before, rest, after, hopen, hclose⟩
  · rintro ⟨before, rest, after, hopen, hclose⟩
    simp [fenced?, hopen, hclose]

theorem holdsBlock_of_fenced? {t body : Text} (h : fenced? t = some body) : HoldsBlock t := by
  obtain ⟨before, rest, after, hopen, hclose⟩ := fenced?_eq_some_iff.mp h
  obtain ⟨skipped, -, hskip⟩ := opened_suffix rest
  refine ⟨before, skipped ++ body, after, ?_⟩
  rw [Text.cut?_eq_some hopen, hskip, Text.cut?_eq_some hclose]
  simp only [List.append_assoc]

theorem fenced?_isSome_iff (t : Text) : (fenced? t).isSome = true ↔ HoldsBlock t := by
  constructor
  · intro h
    obtain ⟨body, hbody⟩ := Option.isSome_iff_exists.mp h
    exact holdsBlock_of_fenced? hbody
  · intro h
    obtain ⟨front, inside, back, ht⟩ := h
    have hfirst : t = front ++ fence ++ (inside ++ fence ++ back) := by
      rw [ht]
      simp only [List.append_assoc]
    obtain ⟨before, rest, hopen, -⟩ := Text.cut?_leftmost fence front (inside ++ fence ++ back)
    -- The second fence is behind the first cut, and what is skipped there cannot have taken a part of it.
    obtain ⟨passed, hpassed⟩ := Text.cut?_keeps hopen
    obtain ⟨skipped, hs, hskip⟩ := opened_suffix rest
    have hsecond : skipped ++ (afterLanguage rest).dropWhile Text.isBlank = (passed ++ inside) ++ fence ++ back := by
      rw [← hskip, hpassed]
      simp only [List.append_assoc]
    obtain ⟨front', hfront'⟩ := fence_survives hs hsecond
    obtain ⟨body, after, hclose, -⟩ := Text.cut?_leftmost fence front' back
    rw [← hfront'] at hclose
    rw [← hfirst] at hopen
    rw [Option.isSome_iff_exists]
    exact ⟨body, fenced?_eq_some_iff.mpr ⟨before, rest, after, hopen, hclose⟩⟩

/-- A text that begins and ends with a fence has no blanks at its ends. -/
theorem strip_between_fences (t : Text) : Text.strip (fence ++ t ++ fence) = fence ++ t ++ fence := by
  rw [Text.strip_eq_self_iff]
  constructor
  · intro c hc
    obtain rfl : '\x60' = c := by simpa [fence] using hc
    decide
  · intro c hc
    obtain rfl : '\x60' = c := by simpa [fence, List.getLast?_append, List.getLast?_cons] using hc
    decide

theorem holdsBlock_strip {t : Text} (h : HoldsBlock t) : HoldsBlock (Text.strip t) := by
  obtain ⟨before, inside, after, rfl⟩ := h
  have hstrip := Text.strip_around (by simp [fence]) (strip_between_fences inside) before after
  refine ⟨before.dropWhile Text.isBlank, inside, after.rdropWhile Text.isBlank, ?_⟩
  simpa only [List.append_assoc] using hstrip

/-! ## What is taken -/

theorem strip_snippetText (t : Text) : Text.strip (snippetText t) = snippetText t := by
  unfold snippetText
  split <;> exact Text.strip_strip _

/-- Of an answer with a closed fence a part is taken that holds no fence. -/
theorem not_fence_snippetText {t : Text} (h : HoldsBlock t) : ¬ fence <:+: snippetText t := by
  obtain ⟨body, hbody⟩ := Option.isSome_iff_exists.mp ((fenced?_isSome_iff _).mpr (holdsBlock_strip h))
  obtain ⟨before, rest, after, -, hclose⟩ := fenced?_eq_some_iff.mp hbody
  have hno : ¬ fence <:+: body := Text.not_isInfix_of_cut? (by simp [fence]) hclose
  rw [snippetText, hbody]
  exact fun hin => hno (hin.trans (Text.strip_isInfix body))

/-- Without a closed fence the whole answer is taken, up to blanks. -/
theorem snippetText_of_not_holdsBlock {t : Text} (h : ¬ HoldsBlock (Text.strip t)) : snippetText t = Text.strip t := by
  unfold snippetText
  split
  · rename_i body hbody
    exact absurd (holdsBlock_of_fenced? hbody) h
  · rfl

/-- No closed fence is left in what is taken. -/
theorem not_holdsBlock_snippetText (t : Text) : ¬ HoldsBlock (snippetText t) := by
  by_cases h : HoldsBlock t
  · exact fun hblock => not_fence_snippetText h hblock.fence_isInfix
  · have hno : ¬ HoldsBlock (Text.strip t) := fun hblock => h (hblock.mono (Text.strip_isInfix t))
    rw [snippetText_of_not_holdsBlock hno]
    exact hno

/-- An answer is taken for the snippet as it is iff there are no blanks at its ends and no two fences in it. -/
theorem snippetText_eq_self_iff (t : Text) : snippetText t = t ↔ Text.strip t = t ∧ ¬ HoldsBlock t := by
  constructor
  · intro h
    refine ⟨?_, fun hblock => not_fence_snippetText hblock ?_⟩
    · rw [← h, strip_snippetText]
    · rw [h]
      exact hblock.fence_isInfix
  · rintro ⟨hstrip, hno⟩
    rw [← hstrip] at hno
    rw [snippetText_of_not_holdsBlock hno, hstrip]

/-! ## Texts in a fence -/

/-- A text between two fences on lines of their own, the first with a language tag or none. -/
def block (language t : Text) : Text := fence ++ (language ++ '\n' :: (t ++ ['\n'])) ++ fence

/-- A language tag at the end of its line is taken off whole, also where another one begins like it. -/
theorem afterLanguage_append {language : Text} (h : language = [] ∨ language ∈ languages) (t : Text) :
    afterLanguage (language ++ '\n' :: t) = '\n' :: t := by
  simp only [languages, List.mem_cons, List.not_mem_nil, or_false] at h
  rcases h with rfl | rfl | rfl | rfl | rfl | rfl | rfl <;> simp [afterLanguage, languages, Text.afterStart?]

/-- A text without a fence is cut off at the fence behind it; what is left in front of it is the text up to blanks. -/
theorem cut?_fence {t : Text} (h : ¬ fence <:+: t) (after : Text) :
    ∃ body, Text.cut? fence ((t ++ '\n' :: (fence ++ after)).dropWhile Text.isBlank) = some (body, after) ∧
      Text.strip body = Text.strip t := by
  rw [List.dropWhile_append]
  split
  · rename_i hnil
    refine ⟨[], ?_, ?_⟩
    · rw [List.dropWhile_cons_of_pos (by decide)]
      exact Text.cut?_self_append fence after
    · rw [← Text.strip_dropWhile t, List.isEmpty_iff.mp hnil]
  · have hno : ¬ fence <:+: t.dropWhile Text.isBlank := fun hin => h (hin.trans (List.dropWhile_suffix _).isInfix)
    refine ⟨_, Text.cut?_append_mark (by decide) hno after, ?_⟩
    rw [Text.strip_concat_of_blank (by decide), Text.strip_dropWhile]

/-- Behind a text without a fence that does not end with a backtick, the first fence is found. -/
theorem cut?_fence_behind {front : Text} (h : ¬ fence <:+: front) (hend : front.getLast? ≠ some '\x60')
    (rest : Text) : Text.cut? fence (front ++ fence ++ rest) = some (front, rest) := by
  rcases front.eq_nil_or_concat' with rfl | ⟨u, c, rfl⟩
  · exact Text.cut?_self_append fence rest
  · have hc : c ∉ fence := by simpa [fence] using hend
    have hu : ¬ fence <:+: u := fun hin => h (hin.trans (List.prefix_append u [c]).isInfix)
    simpa using Text.cut?_append_mark hc hu rest

/-- Of a text without a fence, put into one, what stands between its blanks is taken, whatever stands behind the fences
and whatever stands in front of them without being taken for a fence. -/
theorem snippetText_block {t language before : Text} (h : ¬ fence <:+: t)
    (hlanguage : language = [] ∨ language ∈ languages) (hbefore : ¬ fence <:+: before)
    (hend : before.getLast? ≠ some '\x60') (after : Text) :
    snippetText (before ++ block language t ++ after) = Text.strip t := by
  have hsuffix : before.dropWhile Text.isBlank <:+ before := List.dropWhile_suffix _
  have hfront : ¬ fence <:+: before.dropWhile Text.isBlank := fun hin => hbefore (hin.trans hsuffix.isInfix)
  have hlast : (before.dropWhile Text.isBlank).getLast? ≠ some '\x60' := by
    obtain ⟨blanks, hblanks⟩ := hsuffix
    intro hc
    rw [← hblanks, List.getLast?_append, hc] at hend
    exact hend rfl
  have hstrip : Text.strip (before ++ block language t ++ after) = before.dropWhile Text.isBlank ++ fence ++
      (language ++ '\n' :: (t ++ '\n' :: (fence ++ after.rdropWhile Text.isBlank))) := by
    have hblock : Text.strip (block language t) = block language t := strip_between_fences _
    rw [Text.strip_around (by simp [block, fence]) hblock]
    simp [block]
  obtain ⟨body, hclose, hbody⟩ := cut?_fence h (after.rdropWhile Text.isBlank)
  have hfenced : fenced? (Text.strip (before ++ block language t ++ after)) = some body := by
    rw [hstrip, fenced?_eq_some_iff]
    refine ⟨_, _, after.rdropWhile Text.isBlank, cut?_fence_behind hfront hlast _, ?_⟩
    rw [afterLanguage_append hlanguage, List.dropWhile_cons_of_pos (by decide)]
    exact hclose
  rw [snippetText, hfenced]
  exact hbody

/-- A text between two fences, the first with a language tag. -/
def inFence (t : Text) : Text := fence ++ 't' :: 's' :: 'x' :: '\n' :: t ++ '\n' :: fence

/-- The prompt ends with the snippet in such a fence. -/
theorem Brief.prompt_eq (b : Brief) :
    b.prompt = "Request:\n".toList ++ Json.pretty b.request ++ "\n\nCode snippet:\n".toList ++ inFence b.snippet := by
  have hopen : "\n\nCode snippet:\n\x60\x60\x60tsx\n".toList =
      "\n\nCode snippet:\n".toList ++ fence ++ ['t', 's', 'x', '\n'] := by simp [fence]
  have hclose : "\n\x60\x60\x60".toList = '\n' :: fence := by simp [fence]
  unfold prompt
  -- The captions are long, and are better not evaluated.
  generalize "Request:\n".toList ++ Json.pretty b.request = front
  generalize "\n\nCode snippet:\n".toList = caption at hopen ⊢
  generalize "\n\nCode snippet:\n\x60\x60\x60tsx\n".toList = opening at hopen ⊢
  generalize "\n\x60\x60\x60".toList = closing at hclose ⊢
  rw [hopen, hclose]
  simp [inFence]

theorem inFence_eq (t : Text) : inFence t = block ['t', 's', 'x'] t := by simp [inFence, block]

theorem snippetText_inFence {t : Text} (h : ¬ fence <:+: t) : snippetText (inFence t) = Text.strip t := by
  have hempty : ¬ fence <:+: [] := no_fence_of_no_backtick List.not_mem_nil
  have hblock := snippetText_block h (.inr (by decide : ['t', 's', 'x'] ∈ languages)) hempty (by simp) []
  rw [inFence_eq]
  simpa using hblock

/-- A text comes back out of its fence iff there are no blanks at its ends and no fence in it. -/
theorem snippetText_inFence_eq_iff (t : Text) :
    snippetText (inFence t) = t ↔ Text.strip t = t ∧ ¬ fence <:+: t := by
  have hblock : HoldsBlock (inFence t) := ⟨[], 't' :: 's' :: 'x' :: '\n' :: (t ++ ['\n']), [], by simp [inFence]⟩
  constructor
  · intro h
    have hno := not_fence_snippetText hblock
    rw [h] at hno
    exact ⟨(snippetText_inFence hno).symm.trans h, hno⟩
  · intro h
    rw [snippetText_inFence h.2, h.1]

end LiveEdit.Fallback
