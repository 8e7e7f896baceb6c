/-
  LiveEdit.Proofs.TextEdit.Undo — a text edit taken back by the edit the other way round.

  Without a line an edit replaces one occurrence and leaves its enclosure as it was (`replaced_without_line`). So
  the new text is enclosed too. If it stands nowhere else in the edited document, the edit back finds it there,
  whichever kind of enclosure it tries first, and gives the document as it was (`apply_undone`).
-/

import LiveEdit.Proofs.TextEdit.SingleOccurrence
import Mathlib.Logic.ExistsUnique

namespace LiveEdit.TextEdit

open Text (Passage)

variable {old new t : Text} {kind : Enclosure} {hit : Hit}

/-- The passage stands right between the characters of an enclosure. -/
def Hit.Around (hit : Hit) (place : Passage) : Prop :=
  (∃ front, place.before = front ++ hit.mark :: hit.blanks) ∧ ∃ back, place.after = hit.closing ++ back

theorem MatchAt.exists_around {i : Nat} (m : MatchAt old kind t i hit) :
    hit.Around ⟨t.take (occurrence (i, hit)), old, t.drop (occurrence (i, hit) + old.length)⟩ := by
  obtain ⟨back, hback⟩ := m.2
  have hlt := m.lt_length
  obtain ⟨front, rfl, rfl⟩ : ∃ front, t = front ++ hit.mark :: hit.blanks ++ (old ++ (hit.closing ++ back)) ∧
      front.length = i := by
    refine ⟨t.take i, ?_, by rw [List.length_take]; omega⟩
    have hdrop := (List.take_append_drop i t).symm
    rw [← hback] at hdrop
    simpa [Hit.text] using hdrop
  have hlen : occurrence (front.length, hit) = (front ++ hit.mark :: hit.blanks).length := by
    simp only [occurrence, List.length_append, List.length_cons]
    omega
  rw [hlen, ← List.drop_drop, List.take_left, List.drop_left, List.drop_left]
  exact ⟨⟨front, rfl⟩, back, rfl⟩

/-- The enclosure of a passage encloses whatever is put in its place. -/
theorem Hit.Around.occurs_replace {place : Passage} (ha : hit.Around place) (hk : hit.Of kind) (inside : Text) :
    Occurs inside kind (place.replace inside) := by
  obtain ⟨⟨front, hfront⟩, back, hback⟩ := ha
  refine ⟨front.length, hit, hk, back, ?_⟩
  simp [Passage.replace, Hit.text, hfront, hback]

/-- An edit without a line replaces one enclosed occurrence, and nothing else. -/
theorem replaced_without_line {settings : Settings} {content r : Text} {line : Value}
    (hline : Line.NamesNoLine line) (hedit : apply settings content old new line = .ok (some r)) :
    old ≠ new ∧ ∃ place kind hit, Hit.Of kind hit ∧ hit.Around place ∧
      place.inside = old ∧ place.whole = content ∧ r = place.replace new := by
  rw [apply_of_namesNoLine settings content old new hline, Except.ok.injEq] at hedit
  by_cases hskip : old = [] ∨ old = new
  · rw [if_pos hskip] at hedit
    cases hedit
  obtain ⟨hempty, hne⟩ := not_or.mp hskip
  rw [if_neg hskip] at hedit
  have hcount : Text.count old content = 1 := by
    by_cases h : Text.count old content = 1
    · exact h
    · rw [inWhole?, if_neg h] at hedit
      cases hedit
  rw [inWhole?, if_pos hcount] at hedit
  obtain ⟨kind, hkind, rfl⟩ := firstKind_of_replaceIn? hne hedit
  obtain ⟨i, hit, hmatch, hrender⟩ := render_of_count_eq_one hempty hcount hkind.1 new
  obtain ⟨rest, hrest⟩ := hmatch.isPrefix_occurrence
  refine ⟨hne, _, kind, hit, hmatch.1, hmatch.exists_around, rfl, ?_, hrender⟩
  rw [Passage.whole, ← List.drop_drop, ← hrest, List.drop_left, List.append_assoc, hrest, List.take_append_drop]

/-- Where a text occurs at one offset only, it stands in one place. -/
theorem eq_of_occurs_once {p q : Passage} (hwhole : p.whole = q.whole) (hinside : p.inside = q.inside)
    (honce : ∃! o, p.inside <+: p.whole.drop o) : p = q := by
  have here : ∀ place : Passage, place.inside <+: place.whole.drop place.before.length := by
    intro place
    rw [Passage.whole, List.append_assoc, List.drop_left]
    exact List.prefix_append _ _
  have hlen : p.before.length = q.before.length := by
    refine honce.unique (here p) ?_
    rw [hinside, hwhole]
    exact here q
  obtain ⟨before, inside, after⟩ := p
  obtain ⟨before', inside', after'⟩ := q
  simp only [Passage.whole, List.append_assoc] at hwhole hinside hlen
  subst hinside
  obtain ⟨rfl, hrest⟩ := List.append_inj hwhole hlen
  rw [List.append_cancel_left hrest]

/-- The edit back, when the new text stands at one place only: the document is as it was before the edit. -/
theorem apply_undone (settings : Settings) {content r : Text} {line : Value} (hline : Line.NamesNoLine line)
    (hedit : apply settings content old new line = .ok (some r)) (honce : ∃! p, new <+: r.drop p) :
    apply settings r new old line = .ok (some content) := by
  obtain ⟨hne, place, kind, hit, hkind, haround, hinside, hwhole, hr⟩ := replaced_without_line hline hedit
  obtain ⟨o, hocc, honly⟩ := honce
  have hnew : new ≠ [] := by
    intro h
    subst h
    have h0 : 0 = o := honly 0 List.nil_prefix
    have h1 : 1 = o := honly 1 List.nil_prefix
    omega
  have htwice : ¬ Text.OccursTwice new r := by
    intro h
    obtain ⟨p, q, hp, hq, hpq⟩ := h
    have hpos := List.length_pos_iff.mpr hnew
    have hsame := (honly p hp).trans (honly q hq).symm
    omega
  have henclosed : Enclosed new r := by
    rw [hr]
    exact ⟨kind, haround.occurs_replace hkind new⟩
  -- So the edit back succeeds, and it replaces an occurrence of the new text.
  obtain ⟨back, hback⟩ := Option.isSome_iff_exists.mp
    ((inWhole?_isSome_iff hnew (Ne.symm hne)).mpr ⟨henclosed, htwice⟩)
  have hagain : apply settings r new old line = .ok (some back) := by
    have hskip : ¬ (new = [] ∨ new = old) := not_or.mpr ⟨hnew, Ne.symm hne⟩
    rw [apply_of_namesNoLine settings r new old hline, if_neg hskip, hback]
  obtain ⟨-, place', -, -, -, -, hinside', hwhole', rfl⟩ := replaced_without_line hline hagain
  have hsame : place' = ⟨place.before, new, place.after⟩ := by
    refine eq_of_occurs_once (hwhole'.trans hr) hinside' ?_
    rw [hinside', hwhole']
    exact ⟨o, hocc, honly⟩
  rw [hagain, hsame, ← hwhole, ← hinside]
  rfl

/-- A greeting is changed in its tags and changed back, although it holds the text that it replaced. -/
theorem greeting_undone :
    Line.NamesNoLine .null ∧
      apply {} "<p> Hi </p>".toList "Hi".toList "Hi, you".toList .null = .ok (some "<p> Hi, you </p>".toList) ∧
      (∃! p, "Hi, you".toList <+: "<p> Hi, you </p>".toList.drop p) ∧
      apply {} "<p> Hi, you </p>".toList "Hi, you".toList "Hi".toList .null = .ok (some "<p> Hi </p>".toList) := by
  have hline : Line.NamesNoLine .null := Line.isUsable_eq_false_iff.mp rfl
  have hedit : apply {} "<p> Hi </p>".toList "Hi".toList "Hi, you".toList .null =
      .ok (some "<p> Hi, you </p>".toList) := by rfl
  have honce : ∃! p, "Hi, you".toList <+: "<p> Hi, you </p>".toList.drop p := by
    refine ⟨4, by decide, ?_⟩
    intro p hp
    have hlt : p < "<p> Hi, you </p>".toList.length := Text.lt_length_of_isPrefix_drop (by decide) hp
    have hall : ∀ p < "<p> Hi, you </p>".toList.length,
        "Hi, you".toList <+: "<p> Hi, you </p>".toList.drop p → p = 4 := by decide
    exact hall p hlt hp
  exact ⟨hline, hedit, honce, apply_undone {} hline hedit honce⟩

end LiveEdit.TextEdit
