/-
  LiveEdit.Proofs.Markup.TopLevel — the scanner of opening tags on the pieces of an attribute.

  Within a quote only its own mark counts, unless it is escaped (`after_inQuote`); outside of quotes, text without
  quotes and braces changes nothing (`after_plain`). A quotation mark or a closing brace leads back to the top
  level from one kind of state only (`step_quote_topLevel_iff`, `step_brace_topLevel_iff`); so it shows when a quoted
  or a braced value is a whole one (`quoted_topLevel_iff`, `braced_topLevel_iff`).
-/

import Mathlib.Data.List.Induction
import LiveEdit.Markup.OpeningTag

namespace LiveEdit

namespace Text

/-- The text ends in an odd number of backslashes, so that a character after it is escaped. -/
def endsEscaped (t : Text) : Bool := (t.reverse.takeWhile (· = '\\')).length % 2 = 1

theorem endsEscaped_concat (t : Text) (c : Char) :
    endsEscaped (t ++ [c]) = (!endsEscaped t && decide (c = '\\')) := by
  unfold endsEscaped
  by_cases hc : c = '\\'
  · simp only [hc, List.reverse_append, List.reverse_singleton, List.singleton_append, decide_true,
      List.takeWhile_cons_of_pos, List.length_cons, Bool.and_true, ← decide_not, decide_eq_decide]
    omega
  · simp [hc]

theorem endsEscaped_eq_false {t : Text} (h : '\\' ∉ t) : endsEscaped t = false := by
  rcases List.eq_nil_or_concat t with rfl | ⟨t, c, rfl⟩
  · rfl
  · have hc : c ≠ '\\' := by
      rintro rfl
      exact h (by simp)
    rw [List.concat_eq_append, endsEscaped_concat]
    simp [hc]

/-- What follows a text that escapes nothing is read as if nothing stood before it. -/
theorem endsEscaped_append {t : Text} (h : endsEscaped t = false) (u : Text) :
    endsEscaped (t ++ u) = endsEscaped u := by
  induction u using List.reverseRecOn with
  | nil => rw [List.append_nil, h]; rfl
  | append_singleton u c ih => rw [← List.append_assoc, endsEscaped_concat, endsEscaped_concat, ih]

theorem endsEscaped_cons {c : Char} (hc : c ≠ '\\') (t : Text) : endsEscaped (c :: t) = endsEscaped t :=
  endsEscaped_append (endsEscaped_eq_false (by simpa using Ne.symm hc) : endsEscaped [c] = false) t

theorem endsEscaped_pair (c : Char) (t : Text) : endsEscaped ('\\' :: c :: t) = endsEscaped t :=
  endsEscaped_append (endsEscaped_concat ['\\'] c : endsEscaped ['\\', c] = false) t

end Text

namespace Markup.Scan

theorem after_append (s : Scan) (t u : Text) : s.after (t ++ u) = (s.after t).after u := List.foldl_append

theorem after_concat (s : Scan) (t : Text) (c : Char) : s.after (t ++ [c]) = (s.after t).step c := by
  rw [after_append]
  rfl

/-! ## States that occur -/

/-- Only a quotation mark opens a quote, and nothing is escaped outside of one. -/
structure Reached (s : Scan) : Prop where
  quote : ∀ q, s.quote = some q → isQuote q = true
  escaped : s.quote = none → s.escaped = false

theorem reached_start : Reached {} := ⟨fun q h => by simp at h, fun _ => rfl⟩

theorem Reached.ne_quote {s : Scan} (h : Reached s) {q c : Char} (hq : s.quote = some q) (hc : isQuote c = false) :
    c ≠ q := by
  intro he
  rw [he, h.quote q hq] at hc
  cases hc

theorem Reached.step {s : Scan} (h : Reached s) (c : Char) : Reached (s.step c) := by
  unfold Scan.step
  split
  · rename_i q hq
    have hmark := h.quote q hq
    split
    · exact ⟨h.quote, fun hn => by simp [hq] at hn⟩
    · split
      · exact ⟨h.quote, fun hn => by simp [hq] at hn⟩
      · rename_i hesc _
        split
        · exact ⟨fun q h => by simp at h, fun _ => by simpa using hesc⟩
        · exact h
  · rename_i hq
    split
    · rename_i hc
      exact ⟨fun q hs => Option.some.inj hs ▸ hc, fun hn => by simp at hn⟩
    · split
      · exact ⟨h.quote, h.escaped⟩
      · split
        · exact ⟨h.quote, h.escaped⟩
        · exact h

theorem Reached.after {s : Scan} (h : Reached s) (t : Text) : Reached (s.after t) := by
  induction t generalizing s with
  | nil => exact h
  | cons c t ih => exact ih (h.step c)

theorem topLevel_iff {s : Scan} : s.topLevel = true ↔ s.quote = none ∧ s.depth = 0 := by
  simp [topLevel]

/-- At top level there is but one state. -/
theorem Reached.eq_start {s : Scan} (h : Reached s) (ht : s.topLevel = true) : s = {} := by
  obtain ⟨hq, hd⟩ := topLevel_iff.mp ht
  have he := h.escaped hq
  obtain ⟨quote, escaped, depth⟩ := s
  simp only at hq hd he
  rw [hq, hd, he]

/-! ## Quotes and braces -/

/-- A character that changes nothing outside of quotes. -/
def isPlain (c : Char) : Bool := !isQuote c && c ≠ '\x7b' && c ≠ '\x7d'

theorem step_plain {s : Scan} (hs : s.quote = none) {c : Char} (hc : isPlain c = true) : s.step c = s := by
  simp only [isPlain, Bool.and_eq_true, Bool.not_eq_true', decide_eq_true_eq] at hc
  simp [step, hs, hc.1.1, hc.1.2, hc.2]

theorem after_plain {s : Scan} (hs : s.quote = none) {t : Text} (ht : t.all isPlain = true) : s.after t = s := by
  induction t with
  | nil => rfl
  | cons c t ih =>
    obtain ⟨hc, ht⟩ := Bool.and_eq_true_iff.mp ht
    show (s.step c).after t = s
    rw [step_plain hs hc]
    exact ih ht

theorem isQuote_of_eq {q : Char} (h : q = '\'' ∨ q = '"') : isQuote q = true := by
  rcases h with rfl | rfl
  · rfl
  · rfl

theorem isQuote_ne_backslash {q : Char} (h : isQuote q = true) : q ≠ '\\' := by
  rintro rfl
  simp [isQuote] at h

/-- Within a quote, text without the quotation mark is read over. -/
theorem after_inQuote {q : Char} {t : Text} (depth : Nat) (hq : q ∉ t) :
    Scan.after ⟨some q, false, depth⟩ t = ⟨some q, Text.endsEscaped t, depth⟩ := by
  induction t using List.reverseRecOn with
  | nil => rfl
  | append_singleton t c ih =>
    simp only [List.mem_append, List.mem_singleton, not_or] at hq
    rw [after_concat, ih hq.1, Text.endsEscaped_concat]
    cases Text.endsEscaped t with
    | true => simp [step]
    | false =>
      by_cases hc : c = '\\'
      · simp [step, hc]
      · simp [step, hc, Ne.symm hq.2]

/-- Where a quotation mark does not occur, its quote is not opened. -/
theorem quote_ne_of_not_mem {q : Char} {s : Scan} {t : Text} (hs : s.quote ≠ some q) (hq : q ∉ t) :
    (s.after t).quote ≠ some q := by
  induction t generalizing s with
  | nil => exact hs
  | cons c t ih =>
    obtain ⟨hc, ht⟩ := not_or.mp (mt List.mem_cons.mpr hq)
    refine ih ?_ ht
    unfold step
    split
    · rename_i q' hq'
      rw [hq'] at hs
      split
      · simpa [hq'] using hs
      · split
        · simpa [hq'] using hs
        · split <;> simp [hq', hs]
    · split
      · simpa using Ne.symm hc
      · split
        · simp_all
        · split <;> simp_all

/-- After a character that is no backslash, nothing is escaped. -/
theorem Reached.not_escaped {s : Scan} (h : Reached s) {c : Char} (hc : c ≠ '\\') : (s.step c).escaped = false := by
  unfold Scan.step
  split
  · rename_i q hq
    split
    · rfl
    · rename_i he
      split <;> simpa using he
  · rename_i hq
    have he := h.escaped hq
    split
    · exact he
    · split
      · exact he
      · split <;> exact he

theorem step_quote_topLevel_iff {s : Scan} {q : Char} (h : isQuote q = true) :
    (s.step q).topLevel = true ↔ s.quote = some q ∧ s.escaped = false ∧ s.depth = 0 := by
  have hb := isQuote_ne_backslash h
  rw [topLevel_iff]
  unfold step
  split
  · rename_i q' hq'
    split
    · rename_i he
      simp [hq', he]
    · rename_i he
      split
      · rename_i hqq
        simp [hq', hqq, he]
      · rename_i hqq
        simp [hq', Ne.symm hqq]
  · rename_i hq'
    simp [h, hq']

theorem step_brace_topLevel_iff {s : Scan} (h : Reached s) :
    (s.step '\x7d').topLevel = true ↔ s.quote = none ∧ s.depth ≤ 1 := by
  rw [topLevel_iff]
  unfold step
  split
  · rename_i q hq
    have hne : '\x7d' ≠ q := h.ne_quote hq (by decide)
    split
    · simp [hq]
    · simp [hq]
  · rename_i hq
    simp [isQuote, hq]
    omega

/-- A text between two marks of one kind is a whole value if it begins at top level and does not escape the second. -/
theorem quoted_topLevel_iff {s : Scan} (he : s.escaped = false) {quote : Char}
    (hq : isQuote quote = true) {value : Text} (hv : quote ∉ value) :
    (s.after (quote :: value ++ [quote])).topLevel = true ↔ s.topLevel = true ∧ Text.endsEscaped value = false := by
  rw [after_concat, step_quote_topLevel_iff hq]
  show ((s.step quote).after value).quote = _ ∧ ((s.step quote).after value).escaped = _ ∧
    ((s.step quote).after value).depth = 0 ↔ _
  cases hquote : s.quote with
  | none =>
    have hstep : s.step quote = ⟨some quote, false, s.depth⟩ := by simp [step, hquote, hq, he]
    rw [hstep, after_inQuote _ hv, topLevel_iff]
    simp only [hquote, true_and]
    exact and_comm
  | some other =>
    -- The mark closes a quote of its own kind or stands in one of another, and does not occur again.
    have hstep : (s.step quote).quote ≠ some quote := by
      have hb := isQuote_ne_backslash hq
      by_cases ho : quote = other
      · simp [step, hquote, he, ← ho, hb]
      · simp [step, hquote, he, ho, hb, Ne.symm ho]
    have hend := quote_ne_of_not_mem hstep hv
    simp [hend, topLevel, hquote]

theorem Reached.quote_step_brace {s : Scan} (h : Reached s) : (s.step '\x7d').quote = s.quote := by
  unfold Scan.step
  split
  · rename_i q hq
    have hne : '\x7d' ≠ q := h.ne_quote hq (by decide)
    split
    · rfl
    · simp [hq]
  · rename_i hq
    simp [isQuote, hq]

/-- Without braces the depth stays as it is, within quotes and outside of them. -/
theorem depth_after {t : Text} (ht : ∀ c ∈ t, c ≠ '\x7b' ∧ c ≠ '\x7d') (s : Scan) : (s.after t).depth = s.depth := by
  induction t generalizing s with
  | nil => rfl
  | cons c t ih =>
    obtain ⟨⟨hopen, hclose⟩, ht⟩ := List.forall_mem_cons.mp ht
    have hstep : (s.step c).depth = s.depth := by
      unfold step
      split
      · split
        · rfl
        · split
          · rfl
          · split <;> rfl
      · split
        · rfl
        · rfl
    exact (ih ht (s.step c)).trans hstep

/-- A text without braces between double braces is a whole value if its quotes are closed. -/
theorem braced_topLevel_iff {t : Text} (ht : ∀ c ∈ t, c ≠ '\x7b' ∧ c ≠ '\x7d') :
    (Scan.after {} ('\x7b' :: '\x7b' :: t ++ ['\x7d', '\x7d'])).topLevel = true ↔
      (Scan.after {} ('\x7b' :: '\x7b' :: t)).quote = none := by
  have hreached : Reached (Scan.after {} ('\x7b' :: '\x7b' :: t)) := reached_start.after _
  have hdepth : (Scan.after {} ('\x7b' :: '\x7b' :: t)).depth = 2 := depth_after ht _
  rw [after_append]
  show ((Scan.step (Scan.after {} ('\x7b' :: '\x7b' :: t)) '\x7d').step '\x7d').topLevel = true ↔ _
  rw [step_brace_topLevel_iff (hreached.step _), hreached.quote_step_brace]
  refine ⟨And.left, fun hquote => ⟨hquote, ?_⟩⟩
  simp [step, hquote, isQuote, hdepth]

end Markup.Scan

/-! ## Places in a tag -/

namespace Markup.OpeningTag

/-- The scanner's state behind a beginning of the tag; it starts behind the tag's name. -/
def scanAt (tag : OpeningTag) (t : Text) : Scan := Scan.after {} (t.drop tag.name.length)

/-- The tag begins with `t`, and behind it the scanner is at top level. No place within the tag's name is. -/
def AtTopLevel (tag : OpeningTag) (t : Text) : Prop := tag.name <+: t ∧ (tag.scanAt t).topLevel = true

theorem reached_scanAt (tag : OpeningTag) (t : Text) : Scan.Reached (tag.scanAt t) := Scan.reached_start.after _

theorem scanAt_append {tag : OpeningTag} {t : Text} (h : tag.name <+: t) (u : Text) :
    tag.scanAt (t ++ u) = (tag.scanAt t).after u := by
  obtain ⟨front, rfl⟩ := h
  simp only [scanAt, List.append_assoc, List.drop_left, Scan.after_append]

end Markup.OpeningTag

end LiveEdit
