/-
  LiveEdit.Proofs.Markup.Outside — which texts end outside of quotes and braces.

  `Unquoted` says by grammar that all quotes of a text are closed and what stands outside of them, and `BracesClosed`
  that there no opening brace is left without its closing one. The scanner of opening tags is at top level behind
  just these texts (`topLevel_after_iff`): behind every text its state says whether a quote is open (`reads_after`),
  and its depth is the greatest number by which the opening braces of an ending outnumber the closing ones
  (`after_outside`). So the places of a tag at top level can be told without the scanner
  (`OpeningTag.atTopLevel_iff`).
-/

import Mathlib.Order.Bounds.Basic
import LiveEdit.Proofs.Style.StringLiteral

namespace LiveEdit.Markup

open Style Scan

/-! ## Outside of quotes and braces -/

/-- All quotes of a text are closed, and `code` is what stands outside of them. -/
inductive Unquoted : (t code : Text) → Prop
  | nil : Unquoted [] []
  | outside {c : Char} {t code : Text} : isQuote c = false → Unquoted t code → Unquoted (c :: t) (c :: code)
  | quoted {mark : Char} {body t code : Text} : isQuote mark = true → LiteralBody mark body → Unquoted t code →
      Unquoted (mark :: body ++ mark :: t) code

/-- No opening brace is left without its closing one: each ending has as many closing braces as opening ones, or
more. A closing brace that closes nothing makes up for no brace that is opened behind it. -/
def BracesClosed (code : Text) : Prop := ∀ ending, ending <:+ code → ending.count '\x7b' ≤ ending.count '\x7d'

/-- The text ends outside of quotes and of braces. -/
def Outside (t : Text) : Prop := ∃ code, Unquoted t code ∧ BracesClosed code

namespace Unquoted

theorem append {t u code code' : Text} (ht : Unquoted t code) (hu : Unquoted u code') :
    Unquoted (t ++ u) (code ++ code') := by
  induction ht with
  | nil => exact hu
  | outside hc _ ih => exact .outside hc ih
  | quoted hmark hbody _ ih =>
    rw [List.append_assoc]
    exact .quoted hmark hbody ih

theorem isQuote_eq_false {t code : Text} (h : Unquoted t code) : ∀ c ∈ code, isQuote c = false := by
  induction h with
  | nil => exact fun c hc => absurd hc List.not_mem_nil
  | outside hc _ ih => exact List.forall_mem_cons.mpr ⟨hc, ih⟩
  | quoted _ _ _ ih => exact ih

end Unquoted

namespace Scan

/-! ## The scanner on quotes -/

theorem step_outside {c : Char} (hc : isQuote c = false) (depth : Nat) :
    Scan.step ⟨none, false, depth⟩ c = ⟨none, false, depth + [c].count '\x7b' - [c].count '\x7d'⟩ := by
  by_cases hopen : c = '\x7b'
  · rw [hopen]
    rfl
  · by_cases hclose : c = '\x7d'
    · rw [hclose]
      rfl
    · simp [step, hc, hopen, hclose]

theorem step_opening {mark : Char} (hmark : isQuote mark = true) (depth : Nat) :
    Scan.step ⟨none, false, depth⟩ mark = ⟨some mark, false, depth⟩ := by
  simp [step, hmark]

theorem step_closing {mark : Char} (hmark : isQuote mark = true) (depth : Nat) :
    Scan.step ⟨some mark, false, depth⟩ mark = ⟨none, false, depth⟩ := by
  simp [step, isQuote_ne_backslash hmark]

theorem step_within {mark c : Char} (hb : c ≠ '\\') (hc : c ≠ mark) (depth : Nat) :
    Scan.step ⟨some mark, false, depth⟩ c = ⟨some mark, false, depth⟩ := by
  simp [step, hb, hc]

/-- Between the marks of a quote the state stays as it is. -/
theorem after_body {mark : Char} {body : Text} (h : LiteralBody mark body) (depth : Nat) :
    Scan.after ⟨some mark, false, depth⟩ body = ⟨some mark, false, depth⟩ := by
  induction h with
  | nil => rfl
  | @char c t hb hc _ ih =>
    show (Scan.step _ c).after t = _
    rw [step_within hb hc, ih]
  | escape _ ih => exact ih

/-- Closed quotes make no difference to the scanner. -/
theorem after_unquoted {t code : Text} (h : Unquoted t code) (depth : Nat) :
    Scan.after ⟨none, false, depth⟩ t = Scan.after ⟨none, false, depth⟩ code := by
  induction h generalizing depth with
  | nil => rfl
  | @outside c t code hc _ ih =>
    show (Scan.step _ c).after t = (Scan.step _ c).after code
    rw [step_outside hc, ih]
  | @quoted mark body t code hmark hbody _ ih =>
    rw [after_append]
    show ((Scan.step _ mark).after body).after (mark :: t) = _
    rw [step_opening hmark, after_body hbody]
    show (Scan.step _ mark).after t = _
    rw [step_closing hmark, ih]

/-- What the quote of a state says of the text that has been read: all quotes are closed, or the last one is open,
perhaps with a backslash that escapes the character to come. -/
inductive Reads : Text → (quote : Option Char) → (escaped : Bool) → Prop
  | closed {t code : Text} : Unquoted t code → Reads t none false
  | opened {t code body : Text} {mark : Char} : Unquoted t code → isQuote mark = true → LiteralBody mark body →
      Reads (t ++ mark :: body) (some mark) false
  | escaping {t code body : Text} {mark : Char} : Unquoted t code → isQuote mark = true → LiteralBody mark body →
      Reads (t ++ mark :: body ++ ['\\']) (some mark) true

theorem Reads.step {t : Text} {s : Scan} (h : Reads t s.quote s.escaped) (c : Char) :
    Reads (t ++ [c]) (s.step c).quote (s.step c).escaped := by
  obtain ⟨quote, escaped, depth⟩ := s
  simp only at h
  cases h with
  | closed ht =>
    cases hc : isQuote c with
    | true =>
      rw [step_opening hc]
      exact .opened ht hc .nil
    | false =>
      rw [step_outside hc]
      exact .closed (ht.append (.outside hc .nil))
  | @opened t code body mark ht hmark hbody =>
    by_cases hb : c = '\\'
    · have hstep : Scan.step ⟨some mark, false, depth⟩ '\\' = ⟨some mark, true, depth⟩ := rfl
      rw [hb, hstep]
      exact .escaping ht hmark hbody
    · by_cases hc : c = mark
      · rw [hc, step_closing hmark, List.append_assoc]
        exact .closed (ht.append (.quoted hmark hbody .nil))
      · rw [step_within hb hc, List.append_assoc]
        exact .opened ht hmark (hbody.append (.char hb hc .nil))
  | @escaping t code body mark ht hmark hbody =>
    have hstep : Scan.step ⟨some mark, true, depth⟩ c = ⟨some mark, false, depth⟩ := rfl
    rw [hstep, List.append_assoc, List.append_assoc]
    exact .opened ht hmark (hbody.append (.escape .nil))

theorem reads_after (t : Text) : Reads t (Scan.after {} t).quote (Scan.after {} t).escaped := by
  induction t using List.reverseRecOn with
  | nil => exact .closed .nil
  | append_singleton t c ih =>
    rw [after_concat]
    exact ih.step c

theorem exists_unquoted {t : Text} (h : (Scan.after {} t).quote = none) : ∃ code, Unquoted t code := by
  have hreads := reads_after t
  rw [h] at hreads
  generalize (Scan.after {} t).escaped = escaped at hreads
  cases hreads with
  | closed ht => exact ⟨_, ht⟩

/-! ## The scanner on braces -/

/-- The numbers by which the opening braces of an ending outnumber the closing ones. -/
def excesses (code : Text) : Set Nat := {n | ∃ ending, ending <:+ code ∧ ending.count '\x7b' = ending.count '\x7d' + n}

theorem zero_mem_excesses (code : Text) : 0 ∈ excesses code := ⟨[], List.nil_suffix, rfl⟩

theorem mem_excesses_concat {code : Text} {c : Char} {n : Nat} : n ∈ excesses (code ++ [c]) ↔
    n = 0 ∨ ∃ ending, ending <:+ code ∧
      ending.count '\x7b' + [c].count '\x7b' = ending.count '\x7d' + [c].count '\x7d' + n := by
  constructor
  · rintro ⟨ending, hending, hcount⟩
    rcases List.suffix_concat_iff.mp hending with rfl | ⟨front, rfl, hfront⟩
    · exact .inl (by simpa using hcount.symm)
    · rw [List.count_append, List.count_append] at hcount
      exact .inr ⟨front, hfront, hcount⟩
  · rintro (rfl | ⟨front, hfront, hcount⟩)
    · exact zero_mem_excesses _
    · refine ⟨front ++ [c], List.suffix_concat_iff.mpr (.inr ⟨front, rfl, hfront⟩), ?_⟩
      rw [List.count_append, List.count_append]
      exact hcount

/-- The greatest excess goes up with an opening brace and down with a closing one, but not below zero. -/
theorem isGreatest_excesses_concat {code : Text} {depth : Nat} (h : IsGreatest (excesses code) depth) (c : Char) :
    IsGreatest (excesses (code ++ [c])) (depth + [c].count '\x7b' - [c].count '\x7d') := by
  obtain ⟨⟨ending, hending, hcount⟩, hgreatest⟩ := h
  generalize hopen : [c].count '\x7b' = opening
  generalize hclose : [c].count '\x7d' = closing
  constructor
  · rw [mem_excesses_concat, hopen, hclose]
    by_cases hle : closing ≤ depth + opening
    · exact .inr ⟨ending, hending, by omega⟩
    · -- The brace closes nothing; only the empty ending is without an excess of closing braces.
      exact .inl (by omega)
  · intro n hn
    rw [mem_excesses_concat, hopen, hclose] at hn
    rcases hn with rfl | ⟨front, hfront, hn⟩
    · exact Nat.zero_le _
    · by_cases hle : opening ≤ n + closing
      · have hbound := hgreatest ⟨front, hfront, show _ = front.count '\x7d' + (n + closing - opening) by omega⟩
        omega
      · omega

/-- Without quotes the depth is the greatest excess of opening braces. -/
theorem after_outside {code : Text} (h : ∀ c ∈ code, isQuote c = false) :
    ∃ depth, Scan.after {} code = ⟨none, false, depth⟩ ∧ IsGreatest (excesses code) depth := by
  induction code using List.reverseRecOn with
  | nil =>
    refine ⟨0, rfl, zero_mem_excesses [], ?_⟩
    rintro n ⟨ending, hending, hcount⟩
    rw [List.suffix_nil.mp hending] at hcount
    exact Nat.le_of_eq (by simpa using hcount.symm)
  | append_singleton code c ih =>
    obtain ⟨depth, hafter, hgreatest⟩ := ih fun d hd => h d (List.mem_append_left [c] hd)
    have hc : isQuote c = false := h c (List.mem_append_right code List.mem_cons_self)
    refine ⟨_, ?_, isGreatest_excesses_concat hgreatest c⟩
    rw [after_concat, hafter, step_outside hc]

theorem bracesClosed_iff {code : Text} {depth : Nat} (h : IsGreatest (excesses code) depth) :
    BracesClosed code ↔ depth = 0 := by
  obtain ⟨⟨ending, hending, hcount⟩, hgreatest⟩ := h
  constructor
  · intro hclosed
    have hle := hclosed ending hending
    omega
  · rintro rfl ending hending
    by_contra hlt
    have hle := hgreatest ⟨ending, hending, (Nat.add_sub_of_le (Nat.le_of_not_le hlt)).symm⟩
    omega

/-! ## The top level -/

theorem topLevel_iff_bracesClosed {t code : Text} (h : Unquoted t code) :
    (Scan.after {} t).topLevel = true ↔ BracesClosed code := by
  obtain ⟨depth, hafter, hgreatest⟩ := after_outside h.isQuote_eq_false
  rw [bracesClosed_iff hgreatest, after_unquoted h, hafter, topLevel_iff]
  simp

/-- The scanner is at top level just behind what ends outside of quotes and braces. -/
theorem topLevel_after_iff (t : Text) : (Scan.after {} t).topLevel = true ↔ Outside t := by
  constructor
  · intro h
    obtain ⟨code, hcode⟩ := exists_unquoted (topLevel_iff.mp h).1
    exact ⟨code, hcode, (topLevel_iff_bracesClosed hcode).mp h⟩
  · rintro ⟨code, hcode, hbraces⟩
    exact (topLevel_iff_bracesClosed hcode).mpr hbraces

end Scan

instance (t : Text) : Decidable (Outside t) := decidable_of_iff _ (topLevel_after_iff t)

/-- The closing brace in front makes up for nothing. -/
example : Outside "\x7da='\x7b'\x7b\x7d".toList ∧ ¬ Outside "\x7da='\x7d'\x7b".toList := by decide

/-- The places of a tag at top level are those outside of the quotes and braces behind its name. -/
theorem OpeningTag.atTopLevel_iff (tag : OpeningTag) (t : Text) :
    tag.AtTopLevel t ↔ tag.name <+: t ∧ Outside (t.drop tag.name.length) := by
  rw [AtTopLevel, scanAt, topLevel_after_iff]

end LiveEdit.Markup
