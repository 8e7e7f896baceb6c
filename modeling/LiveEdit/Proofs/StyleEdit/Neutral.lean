/-
  LiveEdit.Proofs.StyleEdit.Neutral — style objects that the scanner reads over.

  A text is neutral if the scanner, somewhere within braces, reads it without leaving them and ends as it began.
  Literals are neutral whatever they hold (`neutral_literal`), keys if the property's name has no quotes, braces
  and backslashes (`neutral_key`); an object of neutral keys and values is one whole value (`wraps_print`).
-/

import LiveEdit.Proofs.Assoc
import LiveEdit.Proofs.Style.Key
import LiveEdit.Proofs.StyleEdit.TopStyles

namespace LiveEdit.StyleEdit

open Markup

/-- Within `depth + 1` braces, outside of quotes. -/
def within (depth : Nat) : Scan := ⟨none, false, depth + 1⟩

structure Neutral (t : Text) : Prop where
  inside : ∀ depth, staysInside (within depth) t = true
  after : ∀ depth, (within depth).after t = within depth

theorem Neutral.append {t u : Text} (ht : Neutral t) (hu : Neutral u) : Neutral (t ++ u) where
  inside depth := by rw [staysInside_append, ht.inside, ht.after, hu.inside]; rfl
  after depth := by rw [Scan.after_append, ht.after, hu.after]

theorem neutral_plain {t : Text} (ht : t.all Scan.isPlain = true) : Neutral t where
  inside depth := by
    induction t with
    | nil => rfl
    | cons c t ih =>
      obtain ⟨hc, ht⟩ := Bool.and_eq_true_iff.mp ht
      rw [staysInside, Scan.step_plain rfl hc, ih ht]
      rfl
  after depth := Scan.after_plain rfl ht

/-! ## Literals -/

/-- Within single quotes, nothing escaped. -/
def quotedWithin (depth : Nat) : Scan := ⟨some '\'', false, depth + 1⟩

theorem literalChar_reads (depth : Nat) (c : Char) :
    staysInside (quotedWithin depth) (Style.literalChar c) = true ∧
      (quotedWithin depth).after (Style.literalChar c) = quotedWithin depth := by
  unfold Style.literalChar
  by_cases hb : c = '\\'
  · subst hb
    exact ⟨rfl, rfl⟩
  · by_cases hq : c = '\''
    · subst hq
      exact ⟨rfl, rfl⟩
    · have hstep : (quotedWithin depth).step c = quotedWithin depth := by simp [Scan.step, quotedWithin, hb, hq]
      simp only [hb, hq, decide_false, Bool.or_self, Bool.false_eq_true, if_false]
      exact ⟨rfl, hstep⟩

theorem literalChars_read (depth : Nat) (t : Text) :
    staysInside (quotedWithin depth) (t.flatMap Style.literalChar) = true ∧
      (quotedWithin depth).after (t.flatMap Style.literalChar) = quotedWithin depth := by
  induction t with
  | nil => exact ⟨rfl, rfl⟩
  | cons c t ih =>
    obtain ⟨hinside, hafter⟩ := literalChar_reads depth c
    rw [List.flatMap_cons, staysInside_append, Scan.after_append, hinside, hafter, ih.1, ih.2]
    exact ⟨rfl, rfl⟩

theorem neutral_literal (t : Text) : Neutral (Style.literal t) where
  inside depth := by
    obtain ⟨hinside, hafter⟩ := literalChars_read depth (Text.strip t)
    show (!(within depth).topLevel &&
      staysInside (quotedWithin depth) ((Text.strip t).flatMap Style.literalChar ++ ['\''])) = true
    rw [staysInside_append, hinside, hafter]
    rfl
  after depth := by
    have hafter := (literalChars_read depth (Text.strip t)).2
    show (quotedWithin depth).after ((Text.strip t).flatMap Style.literalChar ++ ['\'']) = within depth
    rw [Scan.after_append, hafter]
    rfl

/-! ## Keys -/

/-- A character of an ordinary property name. -/
def isNameChar (c : Char) : Bool := Scan.isPlain c && c ≠ '\\'

theorem isPlain_toUpper {c : Char} (h : c.isLower = true) : Scan.isPlain c.toUpper = true :=
  Text.ascii_forall (P := fun c => c.isLower = true → Scan.isPlain c.toUpper = true) (by decide)
    (Text.ascii_of_isLower h) h

theorem camelCase_plain {t : Text} (ht : t.all Scan.isPlain = true) :
    (Style.camelCase t).all Scan.isPlain = true := Style.camelCase_all (fun _ => isPlain_toUpper) ht

theorem staysInside_inQuote {q : Char} {t : Text} (hq : q ∉ t) (escaped : Bool) (depth : Nat) :
    staysInside ⟨some q, escaped, depth⟩ t = true := by
  induction t generalizing escaped with
  | nil => rfl
  | cons c t ih =>
    simp only [List.mem_cons, not_or] at hq
    have hstep : ∃ e, Scan.step ⟨some q, escaped, depth⟩ c = ⟨some q, e, depth⟩ := by
      cases escaped with
      | true => exact ⟨false, rfl⟩
      | false =>
        by_cases hb : c = '\\'
        · exact ⟨true, by simp [Scan.step, hb]⟩
        · exact ⟨false, by simp [Scan.step, hb, Ne.symm hq.1]⟩
    obtain ⟨e, he⟩ := hstep
    rw [staysInside, he, ih hq.2 e]
    rfl

theorem neutral_quoted {q : Char} (hmark : Scan.isQuote q = true) {t : Text} (hq : q ∉ t)
    (ht : Text.endsEscaped t = false) : Neutral (q :: t ++ [q]) := by
  have hstep : ∀ depth, (within depth).step q = ⟨some q, false, depth + 1⟩ := fun depth => by
    simp [Scan.step, within, hmark]
  have hread : ∀ depth, Scan.after ⟨some q, false, depth + 1⟩ t = ⟨some q, false, depth + 1⟩ := fun depth => by
    rw [Scan.after_inQuote _ hq, ht]
  constructor
  · intro depth
    rw [List.cons_append, staysInside, hstep, staysInside_append, staysInside_inQuote hq, hread]
    rfl
  · intro depth
    rw [Scan.after_concat]
    show (((within depth).step q).after t).step q = _
    rw [hstep, hread]
    simp [Scan.step, Scan.isQuote_ne_backslash hmark, within]

theorem neutral_key {property : Text} (h : property.all isNameChar = true) : Neutral (Style.key property) := by
  have hchar : ∀ c ∈ Text.strip property, Scan.isPlain c = true ∧ c ≠ '\\' := fun c hc => by
    have := List.all_eq_true.mp h c ((Text.strip_isInfix _).subset hc)
    simpa [isNameChar] using this
  have hplain : (Text.strip property).all Scan.isPlain = true :=
    List.all_eq_true.mpr fun c hc => (hchar c hc).1
  unfold Style.key
  simp only
  split
  · refine neutral_quoted rfl (fun hc => ?_) (Text.endsEscaped_eq_false fun hc => (hchar _ hc).2 rfl)
    exact absurd (hchar _ hc).1 (by decide)
  · exact neutral_plain (camelCase_plain hplain)

/-! ## Objects -/

theorem neutral_joinWith {sep : Text} (hsep : Neutral sep) {pieces : List Text} (h : ∀ p ∈ pieces, Neutral p) :
    Neutral (Text.joinWith sep pieces) := by
  induction pieces using Text.joinWith.induct with
  | case1 => exact neutral_plain rfl
  | case2 piece => exact h piece (by simp)
  | case3 piece next pieces ih =>
    exact ((h piece (by simp)).append hsep).append (ih fun p hp => h p (List.mem_cons_of_mem piece hp))

theorem neutral_body {entries : Assoc Text} (h : ∀ e ∈ entries, Neutral e.1 ∧ Neutral e.2) :
    Neutral (Style.body entries) := by
  refine neutral_joinWith (neutral_plain rfl) fun p hp => ?_
  obtain ⟨⟨key, value⟩, he, rfl⟩ := List.mem_map.mp hp
  have hsep : Neutral [':', ' '] := neutral_plain rfl
  simpa using (h _ he).1.append (hsep.append (h _ he).2)

/-- An object of neutral entries is one whole value. -/
theorem wraps_print {entries : Assoc Text} (h : ∀ e ∈ entries, Neutral e.1 ∧ Neutral e.2) :
    wraps (Style.print entries) = true := by
  have hbody := neutral_body h
  have hinside : staysInside (Scan.step {} '\x7b') ('\x7b' :: ' ' :: Style.body entries ++ [' ', '\x7d', '\x7d']) =
      true := by
    show staysInside (within 1) (Style.body entries ++ [' ', '\x7d', '\x7d']) = true
    rw [staysInside_append, hbody.inside, hbody.after]
    rfl
  have hafter : Scan.after {} (Style.print entries) = {} := by
    show (within 1).after (Style.body entries ++ [' ', '\x7d', '\x7d']) = {}
    rw [Scan.after_append, hbody.after]
    rfl
  have hlast : Text.Passage.lastOr none (Style.print entries) = some '\x7d' :=
    Text.Passage.lastOr_append none ('\x7b' :: '\x7b' :: ' ' :: Style.body entries) [' ', '\x7d', '\x7d']
  show (true && staysInside (Scan.step {} '\x7b') ('\x7b' :: ' ' :: Style.body entries ++ [' ', '\x7d', '\x7d']) &&
    (Scan.after {} (Style.print entries)).topLevel &&
      TagEdit.startsName (Text.Passage.lastOr none (Style.print entries))) = true
  rw [hinside, hafter, hlast]
  rfl

/-- Changes of ordinary properties are written as one whole value. -/
theorem wraps_ofChanges {css : Assoc Text} (h : ∀ p ∈ css, p.1.all isNameChar = true) :
    wraps (Style.print (Style.ofChanges css)) = true := by
  refine wraps_print fun e he => ?_
  rcases Assoc.mem_putAll he with he | he
  · cases he
  · obtain ⟨p, hp, rfl⟩ := List.mem_map.mp he
    exact ⟨neutral_key (h p hp), neutral_literal p.2⟩

end LiveEdit.StyleEdit
