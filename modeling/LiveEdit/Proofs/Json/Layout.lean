/-
  LiveEdit.Proofs.Json.Layout — where the line feeds of written values are.

  The line form has none, since everything in it is printable (`line_printable`). In the indented form each stands in
  front of a line that is not empty (`feedsFollowed_indented`), so that an empty line ends it wherever it stands.
-/

import LiveEdit.Proofs.Json.Writing
import LiveEdit.Proofs.Text.Lines

namespace LiveEdit.Text

/-! ## Lines that are not empty -/

/-- Behind each line feed stands a character that is none. -/
def FeedsFollowed : Text → Prop
  | [] => True
  | c :: t => (c = '\n' → ∃ d s, t = d :: s ∧ d ≠ '\n') ∧ FeedsFollowed t

theorem feedsFollowed_of_not_mem {t : Text} (h : '\n' ∉ t) : FeedsFollowed t := by
  induction t with
  | nil => trivial
  | cons c t ih =>
    obtain ⟨hc, ht⟩ := not_or.mp (mt List.mem_cons.mpr h)
    exact ⟨fun he => absurd he.symm hc, ih ht⟩

theorem FeedsFollowed.append {t u : Text} (ht : FeedsFollowed t) (hu : FeedsFollowed u) : FeedsFollowed (t ++ u) := by
  induction t with
  | nil => exact hu
  | cons c t ih =>
    refine ⟨fun hc => ?_, ih ht.2⟩
    obtain ⟨d, s, rfl, hd⟩ := ht.1 hc
    exact ⟨d, s ++ u, rfl, hd⟩

theorem FeedsFollowed.joinWith {sep : Text} {ts : List Text} (hsep : FeedsFollowed sep)
    (h : ∀ t ∈ ts, FeedsFollowed t) : FeedsFollowed (joinWith sep ts) := by
  induction ts with
  | nil => trivial
  | cons t ts ih =>
    have ht := h t List.mem_cons_self
    cases ts with
    | nil => exact ht
    | cons next ts => exact (ht.append hsep).append (ih fun u hu => h u (List.mem_cons_of_mem t hu))

/-- A part that begins with an empty line is found behind a text in which each line feed is followed. -/
theorem cut?_of_feedsFollowed {front : Text} (h : FeedsFollowed front) (part back : Text) :
    cut? ('\n' :: '\n' :: part) (front ++ '\n' :: '\n' :: part ++ back) = some (front, back) := by
  induction front with
  | nil =>
    have hstart : afterStart? ('\n' :: '\n' :: part) ('\n' :: '\n' :: part ++ back) = some back :=
      afterStart?_eq_some_iff.mpr rfl
    rw [List.nil_append, List.cons_append, cut?]
    rw [List.cons_append] at hstart
    rw [hstart]
  | cons c front ih =>
    have hnot : afterStart? ('\n' :: '\n' :: part) (c :: (front ++ '\n' :: '\n' :: part ++ back)) = none := by
      by_cases hc : c = '\n'
      · obtain ⟨d, s, rfl, hd⟩ := h.1 hc
        simp [afterStart?, Ne.symm hd]
      · simp [afterStart?, Ne.symm hc]
    rw [List.cons_append, List.cons_append, cut?, hnot, ih h.2]
    rfl

end LiveEdit.Text

namespace LiveEdit.Json

open Text

variable {v : Value} {t u : Text}

/-! ## The line -/

/-- No character below the space stands in the text. -/
def Printable (t : Text) : Prop := ∀ c ∈ t, 32 ≤ c.toNat

instance (t : Text) : Decidable (Printable t) := List.decidableBAll (fun c : Char => 32 ≤ c.toNat) t

theorem Printable.append (ht : Printable t) (hu : Printable u) : Printable (t ++ u) :=
  fun c hc => (List.mem_append.mp hc).elim (ht c) (hu c)

theorem Printable.cons {c : Char} (hc : 32 ≤ c.toNat) (ht : Printable t) : Printable (c :: t) :=
  List.forall_mem_cons.mpr ⟨hc, ht⟩

theorem printable_singleton {c : Char} (hc : 32 ≤ c.toNat) : Printable [c] := .cons hc (by decide)

theorem Printable.joinWith {sep : Text} {ts : List Text} (hsep : Printable sep) (h : ∀ t ∈ ts, Printable t) :
    Printable (joinWith sep ts) := by
  intro c hc
  rcases mem_joinWith hc with hc | ⟨t, ht, hc⟩
  · exact hsep c hc
  · exact h t ht c hc

theorem Printable.feed_not_mem (h : Printable t) : '\n' ∉ t := fun hc => absurd (h '\n' hc) (by decide)

theorem Printable.return_not_mem (h : Printable t) : '\r' ∉ t := fun hc => absurd (h '\r' hc) (by decide)

theorem printable_toDigits {base : Nat} (hb : 1 < base) (hle : base ≤ 16) (n : Nat) :
    Printable (Nat.toDigits base n) := by
  induction n using Nat.strongRecOn with
  | ind n ih =>
    rw [Nat.toDigits_eq_if hb]
    split
    · exact printable_singleton (digitChar_printable (by omega))
    · have hmod := Nat.mod_lt n (Nat.lt_trans Nat.zero_lt_one hb)
      exact (ih _ (Nat.div_lt_self (by omega) hb)).append (printable_singleton (digitChar_printable (by omega)))

theorem printable_intText (n : Int) : Printable (Value.intText n) := by
  have hdigits := printable_toDigits (by decide : 1 < 10) (by decide) n.natAbs
  unfold Value.intText
  split
  · exact hdigits.cons (by decide)
  · exact hdigits

theorem printable_number {x : Double} (h : x.isFinite = false) : Printable (number x) := by
  cases x with
  | nan => decide
  | infinite negative => cases negative <;> decide
  | finite => cases h

theorem printable_entryText (key : Text) (ht : Printable t) : Printable (entryText key t) :=
  .append (fun _ hc => string_printable hc) ((ht.cons (by decide)).cons (by decide))

theorem line_printable (h : v.Plain) : Printable (line v) := by
  induction h with
  | null => decide
  | bool b => cases b <;> decide
  | int n => exact printable_intText n
  | special h => exact printable_number h
  | str t => exact fun c hc => string_printable hc
  | @list items _ ih =>
    rw [line, lineItems_eq_map]
    have hjoined : Printable (Text.joinWith ", ".toList (items.map line)) := by
      refine .joinWith (by decide) fun t ht => ?_
      obtain ⟨v, hv, rfl⟩ := List.mem_map.mp ht
      exact ih v hv
    exact (hjoined.append (by decide)).cons (by decide)
  | @map entries _ _ ih =>
    rw [line, lineEntries_eq_map]
    have hjoined : Printable (Text.joinWith ", ".toList (entries.map fun e => entryText e.1 (line e.2))) := by
      refine .joinWith (by decide) fun t ht => ?_
      obtain ⟨e, he, rfl⟩ := List.mem_map.mp ht
      exact printable_entryText e.1 (ih e he)
    exact (hjoined.append (by decide)).cons (by decide)

/-! ## The indented form -/

theorem Printable.feedsFollowed (h : Printable t) : FeedsFollowed t := feedsFollowed_of_not_mem h.feed_not_mem

theorem feedsFollowed_newline {t : Text} (h : Printable t) (hne : t ≠ []) (depth : Nat) :
    FeedsFollowed (newline depth ++ t) := by
  have hline : Printable (List.replicate (2 * depth) ' ' ++ t) :=
    .append (fun c hc => by rw [List.eq_of_mem_replicate hc]; decide) h
  refine ⟨fun _ => ?_, hline.feedsFollowed⟩
  obtain ⟨c, s, hs⟩ : ∃ c s, List.replicate (2 * depth) ' ' ++ t = c :: s :=
    List.exists_cons_of_ne_nil (List.append_ne_nil_of_right_ne_nil _ hne)
  refine ⟨c, s, hs, fun hc => hline.feed_not_mem ?_⟩
  rw [hs, hc]
  exact List.mem_cons_self

theorem newline_succ (depth : Nat) : newline (depth + 1) = newline depth ++ [' ', ' '] := by
  rw [newline, newline, Nat.mul_add, List.replicate_add]
  rfl

theorem feedsFollowed_block {opening closing : Char} (ho : 32 ≤ opening.toNat) (hc : 32 ≤ closing.toNat) (depth : Nat)
    {members : List Text} (h : ∀ t ∈ members, FeedsFollowed t) : FeedsFollowed (block opening closing depth members) := by
  have hindent : FeedsFollowed (newline (depth + 1)) := by
    rw [newline_succ]
    exact feedsFollowed_newline (by decide) (by decide) depth
  have hjoined : FeedsFollowed (Text.joinWith (',' :: newline (depth + 1)) members) :=
    .joinWith (.append (printable_singleton (c := ',') (by decide)).feedsFollowed hindent) h
  unfold block
  split
  · exact ((printable_singleton hc).cons ho).feedsFollowed
  · have hend := feedsFollowed_newline (printable_singleton hc) (by simp) depth
    have hall := (printable_singleton ho).feedsFollowed.append (hindent.append (hjoined.append hend))
    simpa using hall

theorem feedsFollowed_entryText (key : Text) {t : Text} (h : FeedsFollowed t) : FeedsFollowed (entryText key t) := by
  have hkey := (printable_entryText key (t := []) (by decide)).feedsFollowed.append h
  simpa [entryText] using hkey

theorem feedsFollowed_indented (h : v.Plain) (depth : Nat) : FeedsFollowed (indented depth v) := by
  induction h generalizing depth with
  | null => exact (line_printable .null).feedsFollowed
  | bool b => exact (line_printable (.bool b)).feedsFollowed
  | int n => exact (line_printable (.int n)).feedsFollowed
  | special h => exact (line_printable (.special h)).feedsFollowed
  | str t => exact (line_printable (.str t)).feedsFollowed
  | @list items _ ih =>
    rw [indented, indentedItems_eq_map]
    refine feedsFollowed_block (by decide) (by decide) depth fun t ht => ?_
    obtain ⟨v, hv, rfl⟩ := List.mem_map.mp ht
    exact ih v hv (depth + 1)
  | @map entries _ _ ih =>
    rw [indented, indentedEntries_eq_map]
    refine feedsFollowed_block (by decide) (by decide) depth fun t ht => ?_
    obtain ⟨e, he, rfl⟩ := List.mem_map.mp ht
    exact feedsFollowed_entryText e.1 (ih e he (depth + 1))

end LiveEdit.Json
