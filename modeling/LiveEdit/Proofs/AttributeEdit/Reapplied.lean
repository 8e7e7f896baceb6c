/-
  LiveEdit.Proofs.AttributeEdit.Reapplied — an attribute edit that is made once more.

  A tag that begins with an attribute as the edit writes it, and with no other assignment to the name before, is read
  as that attribute (`written?_of_assigned`). So the edit changes nothing where all that it has written is read again
  (`written?_again`). It can only write once more in another tag, or in a tag that now ends within the new value
  (`reassign_leaves_alone_iff`).
-/

import LiveEdit.Proofs.Edit.SecondReading
import LiveEdit.Proofs.Text.Run

namespace LiveEdit.AttributeEdit

open Markup TagEdit Text.Passage

/-! ## Where a name is assigned to -/

/-- The whole name stands at a place of the text, and an equals sign behind it. -/
def AssignedAt (name t : Text) (p : Nat) : Prop :=
  startsName (lastOr none (t.take p)) = true ∧ (afterAssignment? name (t.drop p)).isSome = true

theorem assignedAt_append_iff {name front back : Text} : AssignedAt name (front ++ back) front.length ↔
    startsName (lastOr none front) = true ∧ (afterAssignment? name back).isSome = true := by
  rw [AssignedAt, List.take_left, List.drop_left]

instance (name t : Text) (p : Nat) : Decidable (AssignedAt name t p) :=
  inferInstanceAs (Decidable (_ ∧ _))

theorem AssignedAt.lt_length {name t : Text} {p : Nat} (h : AssignedAt name t p) : p < t.length := by
  obtain ⟨gap, -, hprefix⟩ := afterAssignment?_isSome_iff.mp h.2
  have hlength := hprefix.length_le
  simp only [List.length_append, List.length_drop, List.length_singleton] at hlength
  omega

theorem assigned_once_of_filter {name t : Text} {o : Nat}
    (h : (List.range t.length).filter (fun p => AssignedAt name t p) = [o]) : ∃! p, AssignedAt name t p :=
  existsUnique_of_filter (fun _ => decide_eq_true_iff) (fun _ => AssignedAt.lt_length) h

section

variable {name t rest head : Text} {previous : Option Char} {w : Written} {place : Text.Passage}

theorem assigned_of_quoted? (h : quoted? name previous t = some (w, rest)) :
    startsName previous = true ∧ (afterAssignment? name t).isSome = true := by
  unfold quoted? at h
  split at h
  · rename_i hp
    refine ⟨hp, ?_⟩
    split at h
    · rename_i hu
      rw [hu]
      rfl
    · cases h
  · cases h

theorem assigned_of_expression? (h : expression? name previous t = some (w, rest)) :
    startsName previous = true ∧ (afterAssignment? name t).isSome = true := by
  unfold expression? at h
  split at h
  · rename_i hp
    refine ⟨hp, ?_⟩
    split at h
    · rename_i hu
      rw [hu]
      rfl
    · cases h
  · cases h

theorem quoted?_leaves (h : quoted? name previous t = some (w, rest)) : rest <:+ t := by
  obtain ⟨-, -, inside, -, rfl⟩ := spelled_of_quoted? h
  exact ⟨inside, rfl⟩

theorem expression?_leaves (h : expression? name previous t = some (w, rest)) : rest <:+ t := by
  obtain ⟨-, -, inside, -, rfl⟩ := spelled_of_expression? h
  exact ⟨inside, rfl⟩

/-- Either reader reads the attribute where it is found. -/
theorem read_of_written? (h : written? name head = some (place, w)) :
    quoted? name (lastOr none place.before) (place.inside ++ place.after) = some (w, place.after) ∨
      expression? name (lastOr none place.before) (place.inside ++ place.after) = some (w, place.after) := by
  have ofQuoted (ha : first? (quoted? name) none head = some (place, w)) := read_of_first? quoted?_leaves ha
  have ofExpression (ha : first? (expression? name) none head = some (place, w)) := read_of_first? expression?_leaves ha
  unfold written? at h
  split at h
  · rename_i a b ha hb
    split at h <;> cases h
    · exact .inr (ofExpression hb)
    · exact .inl (ofQuoted ha)
  · rename_i a ha _
    cases h
    exact .inl (ofQuoted ha)
  · exact .inr (ofExpression h)

theorem assignedAt_of_written? (h : written? name head = some (place, w)) :
    AssignedAt name head place.before.length := by
  rw [← (spelled_of_written? h).1, Text.Passage.whole, List.append_assoc, assignedAt_append_iff]
  rcases read_of_written? h with hread | hread
  · exact assigned_of_quoted? hread
  · exact assigned_of_expression? hread

/-- An attribute that is found begins as a name and goes on with its equals sign. -/
theorem head_of_written? (h : written? name head = some (place, w)) :
    startsName (lastOr none place.before) = true ∧
      ∃ gap more, gap.all Text.isBlank = true ∧ head = place.before ++ (name ++ gap ++ '=' :: more) := by
  have hassigned := assignedAt_of_written? h
  rw [← (spelled_of_written? h).1, Text.Passage.whole, List.append_assoc, assignedAt_append_iff,
    afterAssignment?_isSome_iff] at hassigned
  obtain ⟨hstarts, gap, hgap, more, hmore⟩ := hassigned
  exact ⟨hstarts, gap, more, hgap, by
    rw [← (spelled_of_written? h).1, Text.Passage.whole, List.append_assoc, ← hmore]
    simp⟩

end

/-! ## What is written -/

theorem isBlank_of_quote {q : Char} (hq : q = '\'' ∨ q = '"') : Text.isBlank q = false := by
  rcases hq with rfl | rfl
  · decide
  · decide

theorem quoteFor?_eq_some {preferred quote : Char} {value : Text} (hp : preferred = '\'' ∨ preferred = '"')
    (h : quoteFor? preferred value = some quote) : (quote = '\'' ∨ quote = '"') ∧ quote ∉ value := by
  have hother : otherQuote preferred = '\'' ∨ otherQuote preferred = '"' := by
    rcases hp with rfl | rfl
    · exact .inr rfl
    · exact .inl rfl
  unfold quoteFor? at h
  split at h
  · rename_i hnone
    cases h
    exact ⟨hp, by simpa using hnone⟩
  · split at h
    · rename_i hnone
      cases h
      exact ⟨hother, by simpa using hnone⟩
    · cases h

/-- A value that some quote suits gets a quote, whichever is preferred. -/
theorem exists_quoteFor? {q preferred : Char} {value : Text} (hq : q = '\'' ∨ q = '"') (hvalue : q ∉ value)
    (hp : preferred = '\'' ∨ preferred = '"') : ∃ quote, quoteFor? preferred value = some quote := by
  unfold quoteFor?
  split
  · exact ⟨_, rfl⟩
  · rename_i hholds
    have hother : otherQuote preferred = q := by
      rcases hp with rfl | rfl <;> rcases hq with rfl | rfl
      · simp [hvalue] at hholds
      · rfl
      · rfl
      · simp [hvalue] at hholds
    rw [hother, if_pos (by simpa using hvalue)]
    exact ⟨_, rfl⟩

theorem quote_of_written? {name head : Text} {place : Text.Passage} {w : Written}
    (h : written? name head = some (place, w)) : w.quote = '\'' ∨ w.quote = '"' := by
  obtain ⟨-, assign, value, hs⟩ := spelled_of_written? h
  generalize place.inside = inside at hs
  cases hs with
  | quoted _ hq _ => exact hq
  | expression _ _ => exact .inr rfl

/-- How an edit writes an attribute. -/
def assignment (name : Text) (quote : Char) (value : Text) : Text := name ++ '=' :: quote :: value ++ [quote]

section

variable {name value : Text} {quote : Char}

theorem assignment_append (rest : Text) :
    assignment name quote value ++ rest = name ++ '=' :: (quote :: (value ++ quote :: rest)) := by
  simp [assignment]

theorem afterAssignment?_assignment (hq : quote = '\'' ∨ quote = '"') (rest : Text) :
    afterAssignment? name (assignment name quote value ++ rest) = some (quote :: (value ++ quote :: rest)) := by
  have hdrop : (quote :: (value ++ quote :: rest)).dropWhile Text.isBlank = quote :: (value ++ quote :: rest) :=
    List.dropWhile_cons_of_neg (by simp [isBlank_of_quote hq])
  have happend := afterAssignment?_append (show ([] : Text).all Text.isBlank = true from rfl) name
    (quote :: (value ++ quote :: rest))
  rw [List.append_nil, hdrop] at happend
  rw [assignment_append, happend]

/-- The value is read as it is written. -/
theorem quoted?_assignment (hq : quote = '\'' ∨ quote = '"') (hvalue : quote ∉ value) (hline : '\n' ∉ value)
    {previous : Option Char} (hp : startsName previous = true) (rest : Text) :
    quoted? name previous (assignment name quote value ++ rest) = some (.quoted quote value, rest) := by
  have hinside : value.all (fun c => c ≠ quote && c ≠ '\n') = true := by
    refine List.all_eq_true.mpr fun c hc => ?_
    have hne : c ≠ quote := fun h => hvalue (h ▸ hc)
    have hne' : c ≠ '\n' := fun h => hline (h ▸ hc)
    simp [hne, hne']
  have hstop : ∀ c ∈ (quote :: rest).head?, (c ≠ quote && c ≠ '\n' : Bool) = false := by simp
  obtain ⟨htake, hdrop⟩ := Text.run_append hinside hstop
  have hmark : (quote = '\'' || quote = '"' : Bool) = true := by simpa using hq
  simp only [quoted?, if_pos hp, afterAssignment?_assignment hq, hmark, if_true, htake, hdrop]

theorem expression?_assignment (hq : quote = '\'' ∨ quote = '"') (previous : Option Char) (rest : Text) :
    expression? name previous (assignment name quote value ++ rest) = none := by
  have hbrace : quote ≠ '\x7b' := by
    rcases hq with rfl | rfl
    · decide
    · decide
  simp only [expression?, afterAssignment?_assignment hq]
  split
  · split
    · rename_i heq
      simp only [Option.some.injEq, List.cons.injEq] at heq
      exact absurd heq.1 hbrace
    · rfl
  · rfl

/-- An attribute as the edit writes it is the one that is found, if the name is not assigned to before. -/
theorem written?_of_assigned (hq : quote = '\'' ∨ quote = '"') (hvalue : quote ∉ value) (hline : '\n' ∉ value)
    {front rest : Text} (hstarts : startsName (lastOr none front) = true)
    (hearlier : ∀ f d g, front = f ++ d :: g →
      ¬ AssignedAt name (front ++ (assignment name quote value ++ rest)) f.length) :
    ∃ place, written? name (front ++ (assignment name quote value ++ rest)) = some (place, .quoted quote value) := by
  obtain ⟨c, u, hc⟩ := List.exists_cons_of_ne_nil
    (show assignment name quote value ++ rest ≠ [] by rw [assignment_append]; simp)
  have hread : quoted? name (lastOr none front) (assignment name quote value ++ rest) = some (.quoted quote value, rest) :=
    quoted?_assignment hq hvalue hline hstarts rest
  rw [hc] at hread hearlier ⊢
  have hquoted := first?_of_read hread fun f d g hsplit => by
    cases hnone : quoted? name (lastOr none f) (d :: g ++ c :: u) with
    | none => rfl
    | some found =>
      refine absurd ?_ (hearlier f d g hsplit)
      rw [hsplit, List.append_assoc, assignedAt_append_iff]
      exact assigned_of_quoted? hnone
  rw [written?, hquoted]
  cases hexpression : first? (expression? name) none (front ++ c :: u) with
  | none => exact ⟨_, rfl⟩
  | some found =>
    obtain ⟨place, w⟩ := found
    -- An expression that stood in front would be assigned to the name there.
    have hwhole : place.before ++ (place.inside ++ place.after) = front ++ c :: u := by
      rw [← whole_first? expression?_leaves hexpression, Text.Passage.whole, List.append_assoc]
    have hnot : ¬ place.before.length < front.length := by
      intro hlt
      obtain ⟨g, hg⟩ := List.prefix_of_prefix_length_le ⟨_, hwhole⟩ (List.prefix_append front _) (Nat.le_of_lt hlt)
      obtain ⟨d, g, rfl⟩ := List.exists_cons_of_ne_nil (show g ≠ [] by rintro rfl; simp [← hg] at hlt)
      refine hearlier place.before d g hg.symm ?_
      have hread := read_of_first? expression?_leaves hexpression
      rw [← hwhole, assignedAt_append_iff]
      exact assigned_of_expression? hread
    exact ⟨_, if_neg hnot⟩

end

/-! ## The edit when it is made again -/

section

variable {name value : Text} {tag tag' : OpeningTag} {place : Text.Passage} {w : Written} {quote : Char}

/-- A tag that begins with what was written has the attribute with its new value. -/
theorem written?_again (hw : written? name tag.head = some (place, w)) (honce : ∃! p, AssignedAt name tag.head p)
    (hq : quote = '\'' ∨ quote = '"') (hvalue : quote ∉ value) (hline : '\n' ∉ value)
    (hhead : place.before ++ assignment name quote value <+: tag'.head) :
    ∃ place', written? name tag'.head = some (place', .quoted quote value) := by
  obtain ⟨rest, hrest⟩ := hhead
  rw [← hrest, List.append_assoc]
  obtain ⟨hstarts, gap, more, hgap, hold⟩ := head_of_written? hw
  refine written?_of_assigned hq hvalue hline hstarts ?_
  intro f d g hsplit hnew
  -- A name assigned to in front of the new text was assigned to there before, and not only there.
  rw [hsplit, List.append_assoc, assignedAt_append_iff, assignment_append] at hnew
  have hbefore : AssignedAt name tag.head f.length := by
    rw [hold, hsplit, List.append_assoc, assignedAt_append_iff]
    exact ⟨hnew.1, assigned_in_front hgap hnew.2⟩
  have hlength := honce.unique hbefore (assignedAt_of_written? hw)
  rw [hsplit, List.length_append, List.length_cons] at hlength
  omega

theorem ofTag?_of_written? (hw : written? name tag.head = some (place, w))
    (hquote : quoteFor? w.quote value = some quote) : ofTag? name value tag =
      some (if w = .quoted w.quote value then .unchanged else .replace place (assignment name quote value)) := by
  have hbind : ofTag? name value tag = if w = .quoted w.quote value then some .unchanged
      else some (.replace place (assignment name quote value)) := by
    simp only [ofTag?, hw, hquote, Option.bind_eq_bind, Option.bind_some]
    rfl
  rw [hbind]
  split
  · rfl
  · rfl

/-- What an edit writes in the place of another value does not stand there already. -/
theorem assignment_ne_inside (hw : written? name tag.head = some (place, w)) (hq : quote = '\'' ∨ quote = '"')
    (hvalue : quote ∉ value) (hline : '\n' ∉ value) (hother : w ≠ .quoted w.quote value) :
    assignment name quote value ≠ place.inside := by
  intro hsame
  have hread := read_of_written? hw
  rw [← hsame, expression?_assignment hq] at hread
  rcases hread with hread | hread
  · rw [quoted?_assignment hq hvalue hline (assigned_of_quoted? hread).1] at hread
    obtain rfl : .quoted quote value = w := (Prod.mk.inj (Option.some.inj hread)).1
    exact hother rfl
  · cases hread

variable {settings : Settings} {element : Element} {content r : Text} {line line' : Except EditError Nat}
  {c c' : Candidate}

/-- An edit whose value some quote suits leaves a document alone just where it finds that value or none. -/
theorem leavesAlone_iff_read (hc : Candidate.locate settings (Text.lines r) line element = .ok (some c))
    (hq : quote = '\'' ∨ quote = '"') (hvalue : quote ∉ value) (hline : '\n' ∉ value) :
    LeavesAlone r (apply settings r line element name value) ↔
      ∀ tag place w, c.openingTag? settings element = some tag → written? name tag.head = some (place, w) →
        w = .quoted w.quote value := by
  rw [apply, leavesAlone_iff hc (ofTag?_within name value)]
  constructor
  · intro h tag place w ht hw
    by_contra hother
    obtain ⟨quote', hquote⟩ := exists_quoteFor? hq hvalue (quote_of_written? hw)
    obtain ⟨hq', hvalue'⟩ := quoteFor?_eq_some (quote_of_written? hw) hquote
    have he := ofTag?_of_written? hw hquote
    rw [if_neg hother] at he
    exact assignment_ne_inside hw hq' hvalue' hline hother (h tag place _ ht he)
  · intro h tag place text ht he
    obtain ⟨w, quote', hw, hquote, -⟩ := written?_of_ofTag? he
    rw [ofTag?_of_written? hw hquote, if_pos (h tag place w ht hw)] at he
    cases he

/-- The tag begins as the edit leaves the one it is made in. -/
def BeginsWritten (name value : Text) (tag tag' : OpeningTag) : Prop :=
  ∃ place w quote, written? name tag.head = some (place, w) ∧ quoteFor? w.quote value = some quote ∧
    place.before ++ assignment name quote value <+: tag'.head

/-- The scanner reads over what is written behind the name, where no quote is open or no tag is closed in it. -/
theorem staysOpen_assigned {s : Scan} (hq : quote = '\'' ∨ quote = '"') (hvalue : quote ∉ value)
    (hopen : s.quote = none ∨ '>' ∉ value) : StyleEdit.staysOpen s ('=' :: quote :: (value ++ [quote])) = true := by
  have hmark : Scan.isQuote quote = true := Scan.isQuote_of_eq hq
  have hne : quote ≠ '>' := by
    rcases hq with rfl | rfl
    · decide
    · decide
  rcases hopen with hnone | hclose
  · have hquoted : (s.step '=').step quote = ⟨some quote, s.escaped, s.depth⟩ := by
      rw [Scan.step_plain hnone (by decide)]
      simp [Scan.step, hnone, hmark]
    have hinside := StyleEdit.staysOpen_of_staysInside (StyleEdit.staysInside_inQuote hvalue s.escaped s.depth)
    rw [StyleEdit.staysOpen, StyleEdit.staysOpen, hquoted, StyleEdit.staysOpen_append, hinside]
    simp [StyleEdit.staysOpen, Scan.closes, hne]
  · exact StyleEdit.staysOpen_of_not_mem (by simp [hclose, Ne.symm hne]) s

/-- The tag of the edit is found again with the whole new attribute, if the old one stands behind the tag's name and
the new value does not close the tag. -/
theorem begins_again (hread : ReadTwice settings element content r line line' c c')
    (ht : c.openingTag? settings element = some tag) (hw : written? name tag.head = some (place, w))
    (hline : '\n' ∉ value) (hq : quote = '\'' ∨ quote = '"') (hvalue : quote ∉ value)
    (hr : r = front content c tag ++ place.replace (assignment name quote value) ++ back content c tag)
    (hne : name ≠ []) (hname : tag.name <+: place.before)
    (hopen : (tag.scanAt (place.before ++ name)).quote = none ∨ '>' ∉ value)
    (ht' : c'.openingTag? settings element = some tag') :
    place.before ++ assignment name quote value <+: tag'.head := by
  let added : Text := '=' :: quote :: (value ++ [quote])
  obtain ⟨-, gap, more, -, hold⟩ := head_of_written? hw
  have hhead : tag.head = place.before ++ name ++ (gap ++ '=' :: more) := by simp [hold]
  have hreplace : place.replace (assignment name quote value) = place.before ++ name ++ added ++ place.after := by
    simp [Text.Passage.replace, assignment, added]
  have hadded : '\n' ∉ added := by
    rcases hq with rfl | rfl
    · simp [added, hline]
    · simp [added, hline]
  have hcovered : tag.before ++ (place.before ++ name ++ added) <+: c'.block.text :=
    hread.covered ht hr ⟨_, hhead.symm⟩ hadded ⟨place.after, hreplace.symm⟩
  have hsame : tag'.before = tag.before := by
    obtain ⟨between, hbetween⟩ := hname
    have hkept : tag.name ++ (between ++ name) = place.before ++ name := by rw [← hbetween, List.append_assoc]
    refine hread.same_tag_of_kept ht hr ht' (by simp [hne] : between ++ name ≠ []) ?_ ?_
    · rw [hkept, hhead]
      exact List.prefix_append _ _
    · rw [hkept, hreplace, List.append_assoc]
      exact List.prefix_append _ _
  have hstays : StyleEdit.staysOpen {} ((place.before ++ name ++ added).drop tag.name.length) = true := by
    have hlength : tag.name.length ≤ (place.before ++ name).length :=
      (hname.trans (List.prefix_append _ name)).length_le
    rw [List.drop_append_of_le_length hlength, StyleEdit.staysOpen_append,
      ReadTwice.staysOpen_drop ht hhead (by simp), Bool.true_and]
    exact staysOpen_assigned hq hvalue hopen
  have hheld := ReadTwice.held_by_head ht ht' hsame hcovered hstays
  have hassignment : place.before ++ assignment name quote value = place.before ++ name ++ added := by
    simp [assignment, added]
  rwa [hassignment]

end

/-- An attribute that a tag assigns to once is given a value, and then the same value once more, and both times the
search settles on the same line. The second edit changes nothing unless it finds another value in a tag that does not
begin as the first edit left the one it was made in. It finds none if the attribute stands behind the tag's name, and
no quote is open there for the scanner or the value could not close the tag. -/
theorem reassign_leaves_alone_iff (settings : Settings) {content r : Text} (v : LiveEdit.Value) (element : Element)
    (name value : Text) {c c' : Candidate} {tag : OpeningTag}
    (hread : ReadTwice settings element content r (Line.clamp (Text.lines content).length v)
      (Line.clamp (Text.lines r).length v) c c')
    (ht : c.openingTag? settings element = some tag)
    (hedit : apply settings content (Line.clamp (Text.lines content).length v) element name value = .ok (some r))
    (honce : ∃! p, AssignedAt name tag.head p) (hline : '\n' ∉ value) :
    (LeavesAlone r (apply settings r (Line.clamp (Text.lines r).length v) element name value) ↔
      ∀ tag' place' w', c'.openingTag? settings element = some tag' → ¬ BeginsWritten name value tag tag' →
        written? name tag'.head = some (place', w') → w' = .quoted w'.quote value) ∧
    (∀ place w, written? name tag.head = some (place, w) → name ≠ [] → tag.name <+: place.before →
      (tag.scanAt (place.before ++ name)).quote = none ∨ '>' ∉ value →
      LeavesAlone r (apply settings r (Line.clamp (Text.lines r).length v) element name value)) := by
  obtain ⟨result, he, hr⟩ := hread.edit_of_apply ht hedit
  obtain ⟨⟨place, w⟩, hw, hrest⟩ := Option.bind_eq_some_iff.mp he
  obtain ⟨quote, hquote, -⟩ := Option.bind_eq_some_iff.mp hrest
  obtain ⟨hq, hvalue⟩ := quoteFor?_eq_some (quote_of_written? hw) hquote
  rw [leavesAlone_iff_read hread.second hq hvalue hline]
  -- What begins as the edit left it is read as the value that was written.
  have hagain : ∀ tag' place' w', BeginsWritten name value tag tag' → written? name tag'.head = some (place', w') →
      w' = .quoted w'.quote value := by
    intro tag' place' w' hbegins hw'
    obtain ⟨place₁, w₁, quote₁, hw₁, hquote₁, hhead⟩ := hbegins
    obtain ⟨hq₁, hvalue₁⟩ := quoteFor?_eq_some (quote_of_written? hw₁) hquote₁
    obtain ⟨found, hfound⟩ := written?_again hw₁ honce hq₁ hvalue₁ hline hhead
    cases hfound.symm.trans hw'
    rfl
  constructor
  · constructor
    · intro h tag' place' w' ht' _ hw'
      exact h tag' place' w' ht' hw'
    · intro h tag' place' w' ht' hw'
      by_cases hbegins : BeginsWritten name value tag tag'
      · exact hagain tag' place' w' hbegins hw'
      · exact h tag' place' w' ht' hbegins hw'
  · intro place₁ w₁ hw₁ hne hname hopen tag' place' w' ht' hw'
    cases hw.symm.trans hw₁
    rw [ofTag?_of_written? hw hquote, Option.some.injEq] at he
    split at he
    · -- The value was there already, so the same tag is read once more.
      rename_i hsame
      subst he
      obtain rfl : content = r := hr
      rw [hread.tag_of_same ht ht'] at hw'
      cases hw.symm.trans hw'
      exact hsame
    · subst he
      have hr := hr.symm.trans (document_replace content c tag place _)
      have hhead := begins_again hread ht hw hline hq hvalue hr hne hname hopen ht'
      exact hagain tag' place' w' ⟨place, w, quote, hw, hquote, hhead⟩ hw'

/-- A link is given another target, and the same one again. -/
theorem link_target_set_twice :
    let content := "<a aria-label='Go' href='/x'>".toList
    let link : Element := { tagName := "a".toList, attributes := [("aria-label".toList, "Go".toList)] }
    let r := "<a aria-label='Go' href='/y'>".toList
    let first := Line.clamp (Text.lines content).length (.int 1)
    let second := Line.clamp (Text.lines r).length (.int 1)
    ∃ c c' tag place w, ReadTwice {} link content r first second c c' ∧ c.openingTag? {} link = some tag ∧
      apply {} content first link "href".toList "/y".toList = .ok (some r) ∧
      (∃! p, AssignedAt "href".toList tag.head p) ∧ written? "href".toList tag.head = some (place, w) ∧
      tag.name <+: place.before ∧ (tag.scanAt (place.before ++ "href".toList)).quote = none ∧
      LeavesAlone r (apply {} r second link "href".toList "/y".toList) := by
  intro content link r first second
  let c := Candidate.atLine {} (Text.lines content) (Evidence.rank {} link.attributes) 0
  let c' := Candidate.atLine {} (Text.lines r) (Evidence.rank {} link.attributes) 0
  let tag := OpeningTag.ofOffset 1 content 0
  let place : Text.Passage := ⟨"<a aria-label='Go' ".toList, "href='/x'".toList, ">".toList⟩
  have hread : ReadTwice {} link content r first second c c' :=
    { first := by decide +kernel, second := by decide +kernel, sameLine := show (0 : Nat) = 0 from rfl
      once := starts_once_of_filter (o := 0) (by decide +kernel) }
  have ht : c.openingTag? {} link = some tag := by decide +kernel
  have hedit : apply {} content first link "href".toList "/y".toList = .ok (some r) := by decide +kernel
  have honce : ∃! p, AssignedAt "href".toList tag.head p := assigned_once_of_filter (o := 19) (by decide +kernel)
  have hw : written? "href".toList tag.head = some (place, .quoted '\'' "/x".toList) := by decide +kernel
  have hname : tag.name <+: place.before := ⟨" aria-label='Go' ".toList, by decide⟩
  have hquote : (tag.scanAt (place.before ++ "href".toList)).quote = none := by decide
  refine ⟨c, c', tag, place, _, hread, ht, hedit, honce, hw, hname, hquote, ?_⟩
  exact (reassign_leaves_alone_iff {} (.int 1) link "href".toList "/y".toList hread ht hedit honce (by decide)).2 place _
    hw (by decide) hname (.inl hquote)

/-- A target is found within a title, and the value that is set there closes the title for the scanner. The tag ends
within it when it is read again, and what is found there is no longer the attribute that was written. -/
theorem target_in_title_set_twice :
    let content := "<a aria-label=\"Go\" title='href=\"/x\"'>".toList
    let link : Element := { tagName := "a".toList, attributes := [("aria-label".toList, "Go".toList)] }
    let value := "it's href='z' >".toList
    let r := "<a aria-label=\"Go\" title='href=\"it's href='z' >\"'>".toList
    let first := Line.clamp (Text.lines content).length (.int 1)
    let second := Line.clamp (Text.lines r).length (.int 1)
    ∃ c c' tag, ReadTwice {} link content r first second c c' ∧
      (∃! o, StartsTag (Text.strip link.tagName) (c.block.text.drop o)) ∧ c.openingTag? {} link = some tag ∧
      apply {} content first link "href".toList value = .ok (some r) ∧
      (∃! p, AssignedAt "href".toList tag.head p) ∧ '\n' ∉ value ∧
      ¬ LeavesAlone r (apply {} r second link "href".toList value) := by
  intro content link value r first second
  let c := Candidate.atLine {} (Text.lines content) (Evidence.rank {} link.attributes) 0
  let c' := Candidate.atLine {} (Text.lines r) (Evidence.rank {} link.attributes) 0
  let tag := OpeningTag.ofOffset 1 content 0
  let r' := "<a aria-label=\"Go\" title='href=\"it's href=\"it's href='z' >\" >\"'>".toList
  have hread : ReadTwice {} link content r first second c c' :=
    { first := by decide +kernel, second := by decide +kernel, sameLine := show (0 : Nat) = 0 from rfl
      once := starts_once_of_filter (o := 0) (by decide +kernel) }
  have honce : ∃! o, StartsTag (Text.strip link.tagName) (c.block.text.drop o) :=
    starts_once_of_filter (o := 0) (by decide +kernel)
  have ht : c.openingTag? {} link = some tag := by decide +kernel
  have hedit : apply {} content first link "href".toList value = .ok (some r) := by decide +kernel
  have hassigned : ∃! p, AssignedAt "href".toList tag.head p := assigned_once_of_filter (o := 26) (by decide +kernel)
  refine ⟨c, c', tag, hread, honce, ht, hedit, hassigned, by decide, ?_⟩
  have hagain : apply {} r second link "href".toList value = .ok (some r') := by decide +kernel
  rw [hagain]
  intro h
  rcases h with h | h
  · cases h
  · exact absurd (Option.some.inj (Except.ok.inj h)) (by decide +kernel)

end LiveEdit.AttributeEdit
