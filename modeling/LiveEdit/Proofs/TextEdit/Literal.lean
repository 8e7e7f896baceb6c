/-
  LiveEdit.Proofs.TextEdit.Literal — literals whose text an edit replaces.

  Between the marks of a literal the edit writes the new text as it is, without a look at the marks. So the literals
  are whole afterwards just when the new text fits between the marks of each of them (`apply_keeps_literals_iff`);
  plain words always fit (`fits_of_plain`), and an apostrophe is enough to end a literal in single quotes too early
  (`apostrophe_ends_literal`).
-/

import LiveEdit.Proofs.Style.StringLiteral
import LiveEdit.Proofs.TextEdit.Specification

namespace LiveEdit.TextEdit

open Markup
open Text (Passage)

/-! ## Literals -/

/-- A text between two equal marks, in its document. -/
structure Literal where
  before : Text
  mark : Char
  inside : Text
  after : Text

def Literal.whole (l : Literal) : Text := l.before ++ l.mark :: l.inside ++ l.mark :: l.after

/-- A text that may stand between two of the marks: it holds the mark only escaped, it does not escape the closing
one, and between quotes it is one line. -/
structure Fits (mark : Char) (inside : Text) : Prop where
  escaped : ∀ front back, inside = front ++ mark :: back → Text.endsEscaped front = true
  closed : Text.endsEscaped inside = false
  oneLine : mark ≠ '\x60' → '\n' ∉ inside

/-- Read from its opening mark on, the literal ends at its closing mark, and on the same line if the marks are
quotes. -/
def Literal.ReadsBack (l : Literal) : Prop :=
  Style.literalRest? l.mark (l.inside ++ l.mark :: l.after) = some (l.inside ++ [l.mark], l.after) ∧
    (l.mark ≠ '\x60' → '\n' ∉ l.inside)

theorem Literal.readsBack_iff {l : Literal} (hm : l.mark ≠ '\\') : l.ReadsBack ↔ Fits l.mark l.inside := by
  unfold Literal.ReadsBack
  rw [Style.literalRest?_eq_some_iff hm, Style.literalBody_iff hm]
  constructor
  · intro h
    exact ⟨h.1.1, h.1.2, h.2⟩
  · intro h
    exact ⟨⟨h.escaped, h.closed⟩, h.oneLine⟩

/-- A text without backslashes, marks and line feeds fits. -/
theorem fits_of_plain {mark : Char} {t : Text} (hb : '\\' ∉ t) (hm : mark ∉ t) (hn : '\n' ∉ t) : Fits mark t where
  escaped := by
    intro front back ht
    exact absurd (by simp [ht]) hm
  closed := Text.endsEscaped_eq_false hb
  oneLine := fun _ => hn

/-! ## Literals that are rewritten -/

/-- A literal of the document, and what has become of it: of what the pieces keep, the new text stands between the
marks of one of the hits. -/
inductive Rewritten (old new : Text) (scope : Passage) (ps : List Piece) : Literal → Literal → Prop
  | hit (front back : List Piece) (h : Hit) : ps = front ++ .hit h :: back →
      Rewritten old new scope ps
        ⟨scope.before ++ render old front, h.mark, old, render old back ++ scope.after⟩
        ⟨scope.before ++ render new front, h.mark, new, render new back ++ scope.after⟩

theorem mem_hitsFrom {old : Text} {h : Hit} {ps : List Piece} (hh : Piece.hit h ∈ ps) (offset : Nat) :
    ∃ i, (i, h) ∈ hitsFrom old offset ps := by
  induction ps generalizing offset with
  | nil => cases hh
  | cons p ps ih =>
    rcases List.mem_cons.mp hh with rfl | hrest
    · exact ⟨offset, List.mem_cons_self⟩
    · cases p with
      | char c => exact ih hrest (offset + 1)
      | hit g =>
        obtain ⟨i, hi⟩ := ih hrest (offset + (g.text old).length)
        exact ⟨i, List.mem_cons_of_mem _ hi⟩

/-- The hits among the pieces of a text are enclosures of the kind by which it was cut. -/
theorem of_hit_pieces {old t : Text} {kind : Enclosure} {h : Hit} (hh : Piece.hit h ∈ pieces old kind 0 t) :
    h.Of kind := by
  obtain ⟨i, hi⟩ : ∃ i, (i, h) ∈ hitsFrom old 0 (pieces old kind 0 t) := mem_hitsFrom hh 0
  have hleft := leftmost_pieces old kind t 0
  rw [List.drop_zero] at hleft
  exact (hleft.matchAt _ hi).1

/-- Other than between tags, a hit is a text between two equal marks. -/
theorem Hit.Of.text_eq {kind : Enclosure} {h : Hit} (hk : h.Of kind) (hkind : kind ≠ .tags) (inside : Text) :
    h.text inside = h.mark :: inside ++ [h.mark] := by
  cases kind with
  | tags => exact absurd rfl hkind
  | quotes | backticks => simp [Hit.text, hk.2.1, hk.2.2]

theorem Hit.Of.isQuote {kind : Enclosure} {h : Hit} (hk : h.Of kind) (hkind : kind ≠ .tags) :
    Scan.isQuote h.mark = true := by
  cases kind with
  | tags => exact absurd rfl hkind
  | quotes =>
    rcases hk.1 with hm | hm
    · rw [hm]
      rfl
    · rw [hm]
      rfl
  | backticks =>
    rw [hk.1]
    rfl

theorem render_split (inside : Text) (front back : List Piece) (h : Hit) :
    render inside (front ++ .hit h :: back) = render inside front ++ h.text inside ++ render inside back := by
  simp [render, Piece.text]

/-- Both literals stand in their documents, between the same marks. -/
theorem Rewritten.whole {old new : Text} {scope : Passage} {kind : Enclosure} (hkind : kind ≠ .tags) {l l' : Literal}
    (h : Rewritten old new scope (pieces old kind 0 scope.inside) l l') :
    l.whole = scope.whole ∧ l'.whole = scope.replace (render new (pieces old kind 0 scope.inside)) ∧
      l.inside = old ∧ l'.inside = new ∧ l'.mark = l.mark ∧ Scan.isQuote l.mark = true := by
  cases h with
  | hit front back h hps =>
    have hmem : Piece.hit h ∈ pieces old kind 0 scope.inside := by
      rw [hps]
      simp
    have hof : h.Of kind := of_hit_pieces hmem
    have hold : scope.inside = render old front ++ h.text old ++ render old back := by
      rw [← render_split, ← hps, render_pieces]
    refine ⟨?_, ?_, rfl, rfl, rfl, hof.isQuote hkind⟩
    · rw [Passage.whole, hold, hof.text_eq hkind]
      simp [Literal.whole]
    · rw [Passage.replace, hps, render_split, hof.text_eq hkind]
      simp [Literal.whole]

theorem exists_rewritten (old new : Text) (scope : Passage) {ps : List Piece} (h : ps.any Piece.isHit = true) :
    ∃ l l', Rewritten old new scope ps l l' := by
  obtain ⟨p, hp, hhit⟩ := List.any_eq_true.mp h
  cases p with
  | char c => cases hhit
  | hit g =>
    obtain ⟨front, back, hps⟩ := List.append_of_mem hp
    exact ⟨_, _, .hit front back g hps⟩

/-- An edit that replaces the text of literals writes the new text between their marks. It leaves all of them whole
just when the new text fits between the marks of each. -/
theorem apply_keeps_literals_iff {settings : Settings} {content old new r : Text} {line : Value}
    (h : apply settings content old new line = .ok (some r)) :
    ∃ scope kind ps, Scope settings content old line scope ∧ FirstKind old scope.inside kind ∧
      Leftmost old kind scope.inside 0 (hitsFrom old 0 ps) ∧ render old ps = scope.inside ∧
      r = scope.replace (render new ps) ∧
      (kind ≠ .tags →
        (∃ l l', Rewritten old new scope ps l l') ∧
        (∀ l l', Rewritten old new scope ps l l' →
          l.whole = content ∧ l'.whole = r ∧ l.inside = old ∧ l'.inside = new ∧ l'.mark = l.mark ∧
            Scan.isQuote l.mark = true ∧ (l'.ReadsBack ↔ Fits l'.mark l'.inside)) ∧
        ((∀ l l', Rewritten old new scope ps l l' → l'.ReadsBack) ↔
          ∀ l l', Rewritten old new scope ps l l' → Fits l.mark new)) := by
  obtain ⟨-, -, scope, kind, hs, hkind, rfl⟩ := replaced_of_apply h
  have hleft := leftmost_pieces old kind scope.inside 0
  rw [List.drop_zero] at hleft
  refine ⟨scope, kind, pieces old kind 0 scope.inside, hs, hkind, hleft, render_pieces old kind scope.inside, rfl, ?_⟩
  intro htags
  have hreads : ∀ l l', Rewritten old new scope (pieces old kind 0 scope.inside) l l' →
      (l'.ReadsBack ↔ Fits l'.mark l'.inside) := by
    intro l l' hl
    obtain ⟨-, -, -, -, hmark, hquote⟩ := hl.whole htags
    exact Literal.readsBack_iff (by rw [hmark]; exact Scan.isQuote_ne_backslash hquote)
  refine ⟨exists_rewritten old new scope ((any_isHit_iff old kind scope.inside).mpr hkind.1), ?_, ?_⟩
  · intro l l' hl
    obtain ⟨hwhole, hwhole', hinside, hinside', hmark, hquote⟩ := hl.whole htags
    exact ⟨by rw [hwhole, whole_of_scope hs], hwhole', hinside, hinside', hmark, hquote, hreads l l' hl⟩
  · refine forall_congr' fun l => forall_congr' fun l' => forall_congr' fun hl => ?_
    obtain ⟨-, -, -, hinside', hmark, -⟩ := hl.whole htags
    rw [hreads l l' hl, hinside', hmark]

/-- A word in quotes of either kind is replaced by another one, and both literals are whole. -/
theorem words_in_quotes_stay_literals :
    let content := "f('Hi', \"Hi\")".toList
    let r := "f('Hey', \"Hey\")".toList
    apply {} content "Hi".toList "Hey".toList (.int 1) = .ok (some r) ∧
      ∃ scope ps, (∃ l l', Rewritten "Hi".toList "Hey".toList scope ps l l') ∧
        ∀ l l', Rewritten "Hi".toList "Hey".toList scope ps l l' → l.whole = content ∧ l'.whole = r ∧ l'.ReadsBack := by
  intro content r
  have hedit : apply {} content "Hi".toList "Hey".toList (.int 1) = .ok (some r) := by rfl
  obtain ⟨scope, kind, ps, hs, hkind, -, -, -, hall⟩ := apply_keeps_literals_iff hedit
  have htags : kind ≠ .tags := by
    rintro rfl
    obtain ⟨i, h, hmatch⟩ := hkind.1
    have hmark : '>' ∈ scope.inside := by
      have hfirst : '>' ∈ h.text "Hi".toList := by simp [Hit.text, hmatch.1.1]
      exact List.mem_of_mem_drop (hmatch.2.subset hfirst)
    have hwhole : '>' ∈ scope.whole := by simp [Passage.whole, hmark]
    rw [whole_of_scope hs] at hwhole
    exact absurd hwhole (by decide)
  obtain ⟨hexists, heach, hiff⟩ := hall htags
  have hfits : ∀ l l', Rewritten "Hi".toList "Hey".toList scope ps l l' → Fits l.mark "Hey".toList := by
    intro l l' hl
    obtain ⟨-, -, -, -, -, hquote, -⟩ := heach l l' hl
    refine fits_of_plain (by decide) ?_ (by decide)
    intro hmem
    have hnone : "Hey".toList.any Scan.isQuote = false := by decide
    rw [List.any_eq_true.mpr ⟨_, hmem, hquote⟩] at hnone
    cases hnone
  refine ⟨hedit, scope, ps, hexists, ?_⟩
  intro l l' hl
  obtain ⟨hwhole, hwhole', -⟩ := heach l l' hl
  exact ⟨hwhole, hwhole', hiff.mpr hfits l l' hl⟩

/-- An apostrophe in the new text ends the literal in single quotes too early. -/
theorem apostrophe_ends_literal :
    let content := "const a = 'Hi';".toList
    let r := "const a = 'It's';".toList
    apply {} content "Hi".toList "It's".toList .null = .ok (some r) ∧
      ∃ l l', Rewritten "Hi".toList "It's".toList ⟨[], content, []⟩ (pieces "Hi".toList .quotes 0 content) l l' ∧
        l.whole = content ∧ l'.whole = r ∧ ¬ Fits l'.mark l'.inside ∧ ¬ l'.ReadsBack := by
  intro content r
  have hps : pieces "Hi".toList .quotes 0 content =
      "const a = ".toList.map Piece.char ++ .hit ⟨'\'', [], ['\'']⟩ :: [.char ';'] := by decide
  have hfits : ¬ Fits '\'' "It's".toList := by
    intro h
    have := h.escaped "It".toList "s".toList rfl
    cases this
  refine ⟨by rfl, _, _, .hit _ _ _ hps, by decide, by decide, hfits, ?_⟩
  intro hreads
  exact hfits ((Literal.readsBack_iff (by decide)).mp hreads)

end LiveEdit.TextEdit
