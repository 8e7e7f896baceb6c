/-
  LiveEdit.Proofs.StyleEdit.TopStyles — how many `style` attributes an opening tag carries.

  `topStyles` reads a tag as the scanner of opening tags does, to the first `>` at top level, and counts the places
  at top level where `style` is assigned to. A text that the scanner reads without coming to the top level counts
  nothing (`topStyles_inside`), an attribute with a value of that kind counts one (`topStyles_attribute`), and what
  stands in front of a `style` counts by itself (`topStyles_append_style`).
-/

import LiveEdit.Edit.StyleEdit
import LiveEdit.Proofs.Edit.Assignment
import LiveEdit.Proofs.Markup.TopLevel
import LiveEdit.Proofs.Text.Passage

namespace LiveEdit.StyleEdit

open Markup TagEdit Text.Passage

/-- A `style` is assigned to here. -/
def assignsStyle (t : Text) : Bool := (afterAssignment? "style".toList t).isSome

/-- The `style` attributes at top level from a state on, up to the `>` that closes the tag. -/
def topStyles (s : Scan) (previous : Option Char) : Text → Nat
  | [] => 0
  | c :: t =>
    if s.closes c then 0
    else (if s.topLevel && startsName previous && assignsStyle (c :: t) then 1 else 0) +
      topStyles (s.step c) (some c) t

/-- The `style` attributes of the tag whose name ends at an offset of a document. -/
def stylesOfTag (document : Text) (nameEnd : Nat) : Nat := topStyles {} none (document.drop nameEnd)

/-! ## Where a style may be assigned to -/

theorem afterStart?_append {part : Text} {d : Char} (hd : d ∉ part) (t u : Text) :
    Text.afterStart? part (t ++ d :: u) = (Text.afterStart? part t).map (· ++ d :: u) := by
  induction part generalizing t with
  | nil => rfl
  | cons a part ih =>
    simp only [List.mem_cons, not_or] at hd
    cases t with
    | nil => simp [Text.afterStart?, Ne.symm hd.1]
    | cons b t =>
      simp only [List.cons_append, Text.afterStart?]
      split
      · exact ih hd.2 t
      · rfl

/-- An equals sign follows, after blanks. -/
def signFollows (t : Text) : Bool := (t.dropWhile Text.isBlank).head? == some '='

theorem assignsStyle_eq (t : Text) : assignsStyle t = (Text.afterStart? "style".toList t).any signFollows := by
  unfold assignsStyle afterAssignment?
  cases Text.afterStart? "style".toList t with
  | none => rfl
  | some u =>
    simp only [Option.map_some, Option.any_some, signFollows]
    cases u.dropWhile Text.isBlank with
    | nil => rfl
    | cons c v =>
      by_cases hc : c = '='
      · simp [hc]
      · simp [hc]

theorem assignsStyle_cons_eq_false {c : Char} (hc : c ≠ 's') (t : Text) : assignsStyle (c :: t) = false := by
  rw [assignsStyle_eq, show "style".toList = 's' :: "tyle".toList from rfl, Text.afterStart?, if_neg (Ne.symm hc)]
  rfl

theorem assignsStyle_of_assigns {assign : Text} (h : Assigns "style".toList assign) (t : Text) :
    assignsStyle (assign ++ t) = true := by
  obtain ⟨hg, -⟩ := h
  rename_i gap gap'
  have hrest : Text.afterStart? "style".toList ("style".toList ++ gap ++ '=' :: gap' ++ t) =
      some (gap ++ '=' :: (gap' ++ t)) := by
    rw [Text.afterStart?_eq_some_iff]
    simp
  rw [assignsStyle_eq, hrest, Option.any_some, signFollows,
    List.dropWhile_append_of_pos fun c hc => List.all_eq_true.mp hg c hc]
  rfl

/-- A character that cannot belong to the rest of an assignment to `style`. -/
def endsAssignment (d : Char) : Bool := !"tyle".toList.contains d && !Text.isBlank d && d ≠ '='

/-- Whether a style is assigned to shows before such a character. -/
theorem assignsStyle_append {d : Char} (hd : endsAssignment d = true) (c : Char) (t u : Text) :
    assignsStyle (c :: t ++ d :: u) = assignsStyle (c :: t) := by
  simp only [endsAssignment, Bool.and_eq_true, Bool.not_eq_true', List.contains_eq_mem, decide_eq_false_iff_not,
    decide_eq_true_eq] at hd
  obtain ⟨⟨hmem, hblank⟩, hsign⟩ := hd
  rw [assignsStyle_eq, assignsStyle_eq, show "style".toList = 's' :: "tyle".toList from rfl, List.cons_append]
  unfold Text.afterStart?
  split
  · rw [afterStart?_append hmem]
    cases Text.afterStart? "tyle".toList t with
    | none => rfl
    | some v =>
      simp only [Option.map_some, Option.any_some, signFollows, List.dropWhile_append]
      split
      · rename_i he
        rw [List.isEmpty_iff.mp he]
        simp [hblank, hsign]
      · rename_i he
        obtain ⟨e, w, hw⟩ := List.exists_cons_of_ne_nil (mt List.isEmpty_iff.mpr he)
        rw [hw]
        rfl
  · rfl

/-! ## Counting -/

theorem topStyles_cons_of_ne {c : Char} (hc : c ≠ 's') {s : Scan} (hs : s.closes c = false) (previous : Option Char)
    (t : Text) : topStyles s previous (c :: t) = topStyles (s.step c) (some c) t := by
  rw [topStyles, assignsStyle_cons_eq_false hc]
  simp [hs]

theorem topStyles_startsName {p q : Option Char} (h : startsName p = startsName q) (s : Scan) (t : Text) :
    topStyles s p t = topStyles s q t := by
  cases t with
  | nil => rfl
  | cons c t => rw [topStyles, topStyles, h]

/-- Plain text without `s` and `>` counts nothing. -/
theorem topStyles_plain {u : Text} (hu : ∀ c ∈ u, Scan.isPlain c = true ∧ c ≠ 's' ∧ c ≠ '>') (p : Option Char)
    (t : Text) : topStyles {} p (u ++ t) = topStyles {} (lastOr p u) t := by
  induction u generalizing p with
  | nil => rfl
  | cons c u ih =>
    obtain ⟨⟨hplain, hs, hgt⟩, hu⟩ := List.forall_mem_cons.mp hu
    have hstep : Scan.step {} c = {} := Scan.step_plain rfl hplain
    rw [List.cons_append, topStyles_cons_of_ne hs (by simp [Scan.closes, hgt]), hstep, ih hu, lastOr_cons]

/-- The scanner is never at top level in front of a character of the text. -/
def staysInside (s : Scan) : Text → Bool
  | [] => true
  | c :: t => !s.topLevel && staysInside (s.step c) t

theorem staysInside_append (s : Scan) (t u : Text) :
    staysInside s (t ++ u) = (staysInside s t && staysInside (s.after t) u) := by
  induction t generalizing s with
  | nil => rfl
  | cons c t ih =>
    rw [List.cons_append, staysInside, staysInside, ih, Bool.and_assoc]
    rfl

theorem topStyles_inside {s : Scan} {u : Text} (hu : staysInside s u = true) (p : Option Char) (t : Text) :
    topStyles s p (u ++ t) = topStyles (s.after u) (lastOr p u) t := by
  induction u generalizing s p with
  | nil => rfl
  | cons c u ih =>
    simp only [staysInside, Bool.and_eq_true, Bool.not_eq_true'] at hu
    have hclose : s.closes c = false := by simp [Scan.closes, hu.1]
    rw [List.cons_append, topStyles, hclose, hu.1, lastOr_cons]
    simp only [Bool.false_and, Bool.false_eq_true, if_false, Nat.zero_add]
    exact ih hu.2 (some c)

/-- The scanner leaves the top level with the first character, a quotation mark or an opening brace, and comes
back to it only with the last, which no name can follow. -/
def wraps : Text → Bool
  | [] => false
  | c :: t =>
    (Scan.isQuote c || c = '\x7b') && staysInside (Scan.step {} c) t && (Scan.after {} (c :: t)).topLevel &&
      startsName (lastOr none (c :: t))

theorem topStyles_wraps {v : Text} (hv : wraps v = true) (p : Option Char) (t : Text) :
    topStyles {} p (v ++ t) = topStyles {} none t := by
  cases v with
  | nil => cases hv
  | cons c v =>
    simp only [wraps, Bool.and_eq_true] at hv
    obtain ⟨⟨⟨hc, hinside⟩, htop⟩, hlast⟩ := hv
    have hne : c ≠ 's' ∧ c ≠ '>' := by
      constructor
      all_goals
        rintro rfl
        revert hc
        decide
    have hstate : (Scan.step {} c).after v = {} := (Scan.reached_start.after (c :: v)).eq_start htop
    rw [List.cons_append, topStyles_cons_of_ne hne.1 (by simp [Scan.closes, hne.2]), topStyles_inside hinside, hstate,
      ← lastOr_cons none]
    exact topStyles_startsName (by rw [hlast]; rfl) _ _

/-- A style attribute whose value is one whole value to the scanner. -/
def Whole (t : Text) : Prop :=
  ∃ assign value, t = assign ++ value ∧ Assigns "style".toList assign ∧ wraps value = true

theorem assigns_eq_cons {assign : Text} (h : Assigns "style".toList assign) :
    ∃ u, assign = 's' :: u ∧ ∀ c ∈ u, Scan.isPlain c = true ∧ c ≠ 's' ∧ c ≠ '>' := by
  obtain ⟨hg, hg'⟩ := h
  rename_i gap gap'
  refine ⟨"tyle".toList ++ gap ++ '=' :: gap', rfl, fun c hc => ?_⟩
  have hblank : ∀ c, Text.isBlank c = true → Scan.isPlain c = true ∧ c ≠ 's' ∧ c ≠ '>' := by
    refine fun c hb => ⟨isPlain_of_isBlank hb, ?_, ?_⟩
    all_goals
      rintro rfl
      exact absurd hb (by decide)
  have hname : ∀ c ∈ "tyle=".toList, Scan.isPlain c = true ∧ c ≠ 's' ∧ c ≠ '>' := fun c hc => by
    have hall : ("tyle=".toList.all fun c => Scan.isPlain c && c ≠ 's' && c ≠ '>') = true := rfl
    simpa [and_assoc] using List.all_eq_true.mp hall c hc
  simp only [List.mem_append, List.mem_cons] at hc
  rcases hc with (hc | hc) | rfl | hc
  · exact hname c (List.mem_append_left ['='] hc)
  · exact hblank c (List.all_eq_true.mp hg c hc)
  · exact hname '=' (by decide)
  · exact hblank c (List.all_eq_true.mp hg' c hc)

theorem topStyles_attribute {a : Text} (ha : Whole a) {p : Option Char} (hp : startsName p = true) (t : Text) :
    topStyles {} p (a ++ t) = 1 + topStyles {} none t := by
  obtain ⟨assign, value, rfl, hassign, hv⟩ := ha
  have hstyle := assignsStyle_of_assigns hassign (value ++ t)
  obtain ⟨u, rfl, hu⟩ := assigns_eq_cons hassign
  rw [List.append_assoc, List.cons_append, topStyles]
  rw [List.cons_append] at hstyle
  have hstep : Scan.step {} 's' = {} := by decide
  rw [hstyle, hp, hstep, topStyles_plain hu, topStyles_wraps hv]
  rfl

/-! ## Pieces of a tag -/

/-- No character of the text closes the tag. -/
def staysOpen (s : Scan) : Text → Bool
  | [] => true
  | c :: t => !s.closes c && staysOpen (s.step c) t

/-- In a tag only the last character may close it. -/
theorem staysOpen_of_tagLength {s : Scan} {t f g : Text} (h : t.take (Scan.tagLength s t) = f ++ g) (hg : g ≠ []) :
    staysOpen s f = true := by
  induction t generalizing s f with
  | nil =>
    cases f with
    | nil => rfl
    | cons c f => simp at h
  | cons c t ih =>
    cases f with
    | nil => rfl
    | cons d f =>
      unfold Scan.tagLength at h
      split at h
      · simp [hg] at h
      · rename_i hc
        simp only [List.take_succ_cons, List.cons_append, List.cons.injEq] at h
        obtain ⟨rfl, h⟩ := h
        simp [staysOpen, hc, ih h]

/-- What stands in front of a `style` counts by itself. -/
theorem topStyles_append_style {s : Scan} {f : Text} (hf : staysOpen s f = true) (p : Option Char) (t : Text) :
    topStyles s p (f ++ 's' :: t) = topStyles s p f + topStyles (s.after f) (lastOr p f) ('s' :: t) := by
  induction f generalizing s p with
  | nil => exact (Nat.zero_add _).symm
  | cons c f ih =>
    simp only [staysOpen, Bool.and_eq_true, Bool.not_eq_true'] at hf
    have hlook : assignsStyle (c :: (f ++ 's' :: t)) = assignsStyle (c :: f) := assignsStyle_append (by decide) c f t
    rw [List.cons_append, topStyles, topStyles, hlook, hf.1, ih hf.2, lastOr_cons]
    exact (Nat.add_assoc _ _ _).symm

/-- Where no style is assigned to, a closed tag carries none. -/
theorem topStyles_closed_eq_zero {s : Scan} {f : Text} (hend : (s.after f).topLevel = true) (p : Option Char)
    (hnone : ∀ x c y, f = x ++ c :: y → startsName (lastOr p x) = true → assignsStyle (c :: y) = false) (t : Text) :
    topStyles s p (f ++ '>' :: t) = 0 := by
  induction f generalizing s p with
  | nil =>
    have htop : s.topLevel = true := hend
    have hclose : s.closes '>' = true := by simp [Scan.closes, htop]
    rw [List.nil_append, topStyles, if_pos hclose]
  | cons c f ih =>
    have hlook : assignsStyle (c :: (f ++ '>' :: t)) = assignsStyle (c :: f) := assignsStyle_append (by decide) c f t
    have hhere : (startsName p && assignsStyle (c :: f)) = false := by
      cases hp : startsName p with
      | false => rfl
      | true => exact hnone [] c f rfl hp
    have hrest := ih hend (some c) fun x d y he hs =>
      hnone (c :: x) d y (by rw [he]; rfl) (by rw [lastOr_cons]; exact hs)
    rw [List.cons_append, topStyles, hlook, hrest, Bool.and_assoc, hhere]
    simp

end LiveEdit.StyleEdit
