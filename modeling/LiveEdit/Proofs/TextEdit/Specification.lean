/-
  LiveEdit.Proofs.TextEdit.Specification — what a text edit does.

  `Scope` says where an edit works: in the window around the line that the value points to, if the text is
  enclosed there, and otherwise in the whole document, if the text occurs in it once. An edit succeeds exactly
  when there is such a scope; it then replaces the leftmost matches of the first kind of enclosure that occurs
  there, keeps every other character, and never gives the document back as it was
  (`apply_replaces_enclosed`).
-/

import LiveEdit.Proofs.Line.Clamp
import LiveEdit.Proofs.Text.Lines
import LiveEdit.Proofs.TextEdit.Leftmost
import LiveEdit.Text.Passage

namespace LiveEdit.TextEdit

open Text (Passage)

/-- The order in which the kinds are tried. -/
def Enclosure.rank : Enclosure → Nat
  | .tags => 0
  | .quotes => 1
  | .backticks => 2

def FirstKind (old t : Text) (kind : Enclosure) : Prop :=
  Occurs old kind t ∧ ∀ k : Enclosure, k.rank < kind.rank → ¬ Occurs old k t

def Enclosed (old t : Text) : Prop := ∃ kind, Occurs old kind t

/-- The value is a finite number other than zero, and `n` is the line that it points to in a document of
`count` lines. -/
def PointsTo (line : Value) (count n : Nat) : Prop :=
  ∃ x, Line.position? line = .ok (some x) ∧ x.isFinite = true ∧ x.isZero = false ∧ n = Line.clampNumber count x

/-- The lines around line `n` in their document. -/
def window (settings : Settings) (content : Text) (n : Nat) : Passage :=
  let ls := Text.lines content
  let start := n - settings.textScopeRadius.val - 1
  let stop := min ls.length (n + settings.textScopeRadius.val)
  ⟨Text.above (ls.take start), Text.unlines ((ls.take stop).drop start), Text.below (ls.drop stop)⟩

/-- Where an edit works. -/
inductive Scope (settings : Settings) (content old : Text) (line : Value) : Passage → Prop
  | window {n : Nat} : PointsTo line (Text.lines content).length n →
      Enclosed old (window settings content n).inside →
      Scope settings content old line (window settings content n)
  | whole : (∀ n, PointsTo line (Text.lines content).length n →
        ¬ Enclosed old (TextEdit.window settings content n).inside) →
      Text.count old content = 1 → Enclosed old content →
      Scope settings content old line ⟨[], content, []⟩

/-! ## One scope -/

theorem replaceKind?_eq_some_iff {old new : Text} (hne : old ≠ new) (scope r : Text) (kind : Enclosure) :
    replaceKind? old new scope kind = some r ↔
      Occurs old kind scope ∧ r = render new (pieces old kind 0 scope) := by
  unfold replaceKind?
  by_cases h : Occurs old kind scope
  · have hhit := (any_isHit_iff old kind scope).mpr h
    have hchange := render_pieces_ne hne h
    simp [hhit, hchange, h, eq_comm]
  · have hhit : (pieces old kind 0 scope).any Piece.isHit = false := by
      rw [Bool.eq_false_iff]
      exact fun ha => h ((any_isHit_iff old kind scope).mp ha)
    simp [hhit, h]

theorem replaceKind?_eq_none_iff {old new : Text} (hne : old ≠ new) (scope : Text) (kind : Enclosure) :
    replaceKind? old new scope kind = none ↔ ¬ Occurs old kind scope := by
  rw [Option.eq_none_iff_forall_ne_some]
  constructor
  · exact fun h ho => h _ ((replaceKind?_eq_some_iff hne scope _ kind).mpr ⟨ho, rfl⟩)
  · exact fun ho r h => ho ((replaceKind?_eq_some_iff hne scope r kind).mp h).1

theorem replaceIn?_eq_none_iff {old new : Text} (hne : old ≠ new) (scope : Text) :
    replaceIn? old new scope = none ↔ ¬ Enclosed old scope := by
  unfold replaceIn? Enclosed
  rw [List.findSome?_eq_none_iff]
  simp only [replaceKind?_eq_none_iff hne, not_exists]
  constructor
  · intro h kind
    exact h kind (by cases kind <;> simp)
  · exact fun h kind _ => h kind

/-- What is found is replaced for the first kind that occurs. -/
theorem firstKind_of_replaceIn? {old new scope r : Text} (hne : old ≠ new)
    (h : replaceIn? old new scope = some r) :
    ∃ kind, FirstKind old scope kind ∧ r = render new (pieces old kind 0 scope) := by
  obtain ⟨before, kind, after, hl, hk, hb⟩ := List.findSome?_eq_some_iff.mp h
  obtain ⟨ho, hr⟩ := (replaceKind?_eq_some_iff hne scope r kind).mp hk
  refine ⟨kind, ⟨ho, fun k hlt => ?_⟩, hr⟩
  have hmem : k ∈ before := by
    rcases before with _ | ⟨a, _ | ⟨b, _ | ⟨c, before⟩⟩⟩ <;> simp only [List.nil_append, List.cons_append,
      List.cons.injEq] at hl
    · obtain ⟨rfl, -⟩ := hl
      simp [Enclosure.rank] at hlt
    · obtain ⟨rfl, rfl, -⟩ := hl
      cases k <;> simp [Enclosure.rank] at hlt ⊢
    · obtain ⟨rfl, rfl, rfl, -⟩ := hl
      cases k <;> simp [Enclosure.rank] at hlt ⊢
    · simp at hl
  exact (replaceKind?_eq_none_iff hne scope k).mp (hb k hmem)

/-! ## The line -/

theorem pointsTo_iff {line : Value} {count n : Nat} :
    PointsTo line count n ↔ Line.isUsable line = .ok true ∧ Line.clamp count line = .ok n := by
  cases hp : Line.position? line with
  | error e => simp [PointsTo, Line.isUsable, hp, Except.map]
  | ok found =>
    cases found with
    | none => simp [PointsTo, Line.isUsable, hp, Except.map]
    | some x =>
      have hu : Line.isUsable line = .ok (x.isFinite && !x.isZero) := by rw [Line.isUsable, hp]; rfl
      have hc : Line.clamp count line = .ok (Line.clampNumber count x) := by
        rw [Line.clamp, Line.number?_of_position? hp]; rfl
      rw [hu, hc]
      constructor
      · rintro ⟨y, hy, hf, hz, rfl⟩
        obtain rfl : x = y := by simpa [hp] using hy
        simp [hf, hz]
      · rintro ⟨h, hn⟩
        simp only [Except.ok.injEq, Bool.and_eq_true, Bool.not_eq_true'] at h hn
        exact ⟨x, hp, h.1, h.2, hn.symm⟩

/-- The window is looked at for a value that points to a line, and only then. -/
theorem windowLine?_spec (content : Text) {line : Value} (h : ∃ x, Line.number? line = .ok x) :
    ∃ w, windowLine? content line = .ok w ∧
      ∀ n, w = some n ↔ PointsTo line (Text.lines content).length n := by
  obtain ⟨x, hx⟩ := h
  have hu : ∃ b, Line.isUsable line = .ok b := by
    cases line <;> simp_all [Line.isUsable, Line.position?, Except.map]
  have hc : ∃ m, Line.clamp (Text.lines content).length line = .ok m := by
    rw [Line.clamp, hx]; exact ⟨_, rfl⟩
  obtain ⟨b, hb⟩ := hu
  obtain ⟨m, hm⟩ := hc
  simp only [pointsTo_iff, windowLine?, hb, hm]
  cases b with
  | false => exact ⟨none, rfl, by simp⟩
  | true => exact ⟨some m, rfl, by simp⟩

/-! ## The document around the window -/

/-- The window and what stands around it make up the document. -/
theorem whole_window (settings : Settings) {content : Text} {line : Value} {n : Nat}
    (h : PointsTo line (Text.lines content).length n) : (window settings content n).whole = content := by
  obtain ⟨x, -, -, -, rfl⟩ := h
  have hpos : 0 < (Text.lines content).length := List.length_pos_iff.mpr (Text.lines_ne_nil content)
  obtain ⟨h1, h2⟩ := Line.clampNumber_bounds hpos x
  have hr := settings.textScopeRadius.property
  generalize Line.clampNumber (Text.lines content).length x = n at h1 h2
  generalize hls : Text.lines content = ls at *
  generalize hstart : n - settings.textScopeRadius.val - 1 = start
  generalize hstop : min ls.length (n + settings.textScopeRadius.val) = stop
  have hlt : start < stop := by omega
  have hinside : (ls.take stop).drop start ≠ [] := by
    rw [← List.length_pos_iff, List.length_drop, List.length_take]; omega
  have hparts : ls.take start ++ (ls.take stop).drop start ++ ls.drop stop = ls := by
    have ht : ls.take start = (ls.take stop).take start := by rw [List.take_take, Nat.min_eq_left (by omega)]
    rw [ht, List.take_append_drop, List.take_append_drop]
  simp only [window, Passage.whole, hls, hstart, hstop]
  rw [Text.whole_around hinside hparts, ← hls, Text.unlines_lines]

/-- The edit of a window is the edit of its lines in their place. -/
theorem inWindow?_eq (settings : Settings) (content old new : Text) (n : Nat) :
    inWindow? settings content old new n =
      (replaceIn? old new (window settings content n).inside).map (window settings content n).replace := by
  unfold inWindow?
  simp only [Line.around, window, Text.unlines_lines_around]
  rfl

/-! ## The edit -/

theorem whole_of_scope {settings : Settings} {content old : Text} {line : Value} {scope : Passage}
    (h : Scope settings content old line scope) : scope.whole = content := by
  cases h with
  | window hn _ => exact whole_window settings hn
  | whole _ _ _ => simp [Passage.whole]

/-- The edit of a document in which a scope may be found. -/
theorem atLine?_spec (settings : Settings) {content old new : Text} {line : Value} (ho : old ≠ []) (hne : old ≠ new)
    {w : Option Nat} (hw : ∀ n, w = some n ↔ PointsTo line (Text.lines content).length n) :
    (atLine? settings content old new w = none ∧ ∀ scope, ¬ Scope settings content old line scope) ∨
      ∃ scope r, Scope settings content old line scope ∧ replaceIn? old new scope.inside = some r ∧
        atLine? settings content old new w = some (scope.replace r) := by
  have hgo : atLine? settings content old new w =
      (w.bind (inWindow? settings content old new)).or (inWhole? content old new) := by
    simp [atLine?, ho, hne]
  rw [hgo]
  by_cases hin : ∃ n, PointsTo line (Text.lines content).length n ∧ Enclosed old (window settings content n).inside
  · obtain ⟨n, hn, he⟩ := hin
    obtain ⟨r, hr⟩ : ∃ r, replaceIn? old new (window settings content n).inside = some r := by
      rw [← Option.ne_none_iff_exists']
      exact fun h => (replaceIn?_eq_none_iff hne _).mp h he
    refine .inr ⟨_, r, .window hn he, hr, ?_⟩
    rw [(hw n).mpr hn, Option.bind_some, inWindow?_eq, hr]
    rfl
  · have hnone : w.bind (inWindow? settings content old new) = none := by
      cases hwn : w with
      | none => rfl
      | some n =>
        have he : ¬ Enclosed old (window settings content n).inside := fun he => hin ⟨n, (hw n).mp hwn, he⟩
        rw [Option.bind_some, inWindow?_eq, (replaceIn?_eq_none_iff hne _).mpr he]
        rfl
    rw [hnone, Option.none_or, inWhole?]
    split
    · rename_i hcount
      cases hr : replaceIn? old new content with
      | none =>
        refine .inl ⟨rfl, fun scope hs => ?_⟩
        cases hs with
        | window hn he => exact hin ⟨_, hn, he⟩
        | whole _ _ he => exact (replaceIn?_eq_none_iff hne _).mp hr he
      | some r =>
        have he : Enclosed old content := by
          refine Classical.byContradiction fun he => ?_
          rw [(replaceIn?_eq_none_iff hne _).mpr he] at hr
          cases hr
        exact .inr ⟨_, r, .whole (fun n hn he => hin ⟨n, hn, he⟩) hcount he, hr, by simp [Passage.replace]⟩
    · rename_i hcount
      refine .inl ⟨rfl, fun scope hs => ?_⟩
      cases hs with
      | window hn he => exact hin ⟨_, hn, he⟩
      | whole _ hc _ => exact hcount hc

/-- An edit that succeeds has replaced the occurrences of one kind in one scope. -/
theorem replaced_of_apply {settings : Settings} {content old new r : Text} {line : Value}
    (h : apply settings content old new line = .ok (some r)) :
    old ≠ [] ∧ old ≠ new ∧ ∃ scope kind, Scope settings content old line scope ∧ FirstKind old scope.inside kind ∧
      r = scope.replace (render new (pieces old kind 0 scope.inside)) := by
  by_cases hskip : old = [] ∨ old = new
  · rw [apply, if_pos (by simpa using hskip)] at h
    cases h
  obtain ⟨ho, hne⟩ := not_or.mp hskip
  refine ⟨ho, hne, ?_⟩
  rw [apply, if_neg (by simpa using hskip)] at h
  obtain ⟨w, hw, hedit⟩ := map_eq_ok_iff.mp h
  obtain ⟨usable, hu, -⟩ := bind_eq_ok_iff.mp hw
  obtain ⟨found, hfound, hpoints⟩ := windowLine?_spec content (Line.number?_of_isUsable hu)
  obtain rfl : w = found := Except.ok.inj (hw.symm.trans hfound)
  rcases atLine?_spec settings ho hne hpoints with hnone | hsome
  · rw [hnone.1] at hedit
    cases hedit
  · obtain ⟨scope, inside, hs, hr, hscope⟩ := hsome
    rw [hscope, Option.some.injEq] at hedit
    obtain ⟨kind, hkind, rfl⟩ := firstKind_of_replaceIn? hne hr
    exact ⟨scope, kind, hs, hkind, hedit.symm⟩

theorem replace_ne_whole (scope : Passage) {r : Text} (h : r ≠ scope.inside) : scope.replace r ≠ scope.whole := by
  intro he
  simp only [Passage.replace, Passage.whole, List.append_cancel_right_eq, List.append_cancel_left_eq] at he
  exact h he

/-- A text edit succeeds exactly when there is a scope for it. It puts the new text in the place of the
leftmost matches of the first kind of enclosure that occurs in the scope, and changes nothing else; the
document is never given back as it was. -/
theorem apply_replaces_enclosed (settings : Settings) (content old new : Text) (line : Value)
    (hline : ∃ x, Line.number? line = .ok x) :
    ∃ result, apply settings content old new line = .ok result ∧
      (result.isSome ↔ old ≠ [] ∧ old ≠ new ∧ ∃ scope, Scope settings content old line scope) ∧
      ∀ r, result = some r → r ≠ content ∧
        ∃ scope kind ms, Scope settings content old line scope ∧ scope.whole = content ∧
          FirstKind old scope.inside kind ∧ Leftmost old kind scope.inside 0 ms ∧ ms ≠ [] ∧
          (∀ m ∈ ms, MatchAt old kind scope.inside m.1 m.2 ∧ old <+: scope.inside.drop (occurrence m)) ∧
          (ms.map occurrence).Pairwise (fun p q => p + old.length ≤ q) ∧
          r = scope.replace (substitute old.length new scope.inside 0 (ms.map occurrence)) := by
  by_cases hskip : old = [] ∨ old = new
  · refine ⟨none, ?_, ?_, by simp⟩
    · rw [apply, if_pos (by simpa using hskip)]
    · rcases hskip with h | h <;> simp [h]
  obtain ⟨ho, hne⟩ := not_or.mp hskip
  obtain ⟨w, hw, hpoints⟩ := windowLine?_spec content hline
  have happly : apply settings content old new line = .ok (atLine? settings content old new w) := by
    rw [apply, if_neg (by simpa using hskip), hw]; rfl
  refine ⟨_, happly, ?_⟩
  rcases atLine?_spec settings ho hne hpoints with ⟨hnone, hno⟩ | ⟨scope, inside, hs, hr, hsome⟩
  · rw [hnone]
    exact ⟨by simpa [ho, hne] using hno, by simp⟩
  · rw [hsome]
    refine ⟨by simpa [ho, hne] using ⟨scope, hs⟩, fun r hrr => ?_⟩
    cases hrr
    have hwhole := whole_of_scope hs
    obtain ⟨kind, hkind, rfl⟩ := firstKind_of_replaceIn? hne hr
    have hleft := leftmost_pieces old kind scope.inside 0
    have hms : hitsFrom old 0 (pieces old kind 0 scope.inside) ≠ [] := fun h => hleft.eq_nil_iff.mp h hkind.1
    refine ⟨?_, scope, kind, _, hs, hwhole, hkind, hleft, hms, fun m hm => ?_, hleft.pairwise, ?_⟩
    · rw [← hwhole]
      exact replace_ne_whole scope (render_pieces_ne hne hkind.1)
    · exact ⟨hleft.matchAt m hm, (hleft.matchAt m hm).isPrefix_occurrence⟩
    · exact congrArg _ (render_pieces_eq_substitute old new kind scope.inside 0)

/-- Of a text in a tag and the same text in quotes, the one in the tag is replaced. -/
theorem apply_replaces_enclosed_in_tag :
    (∃ x, Line.number? (.int 1) = .ok x) ∧
      apply {} "<p> Hi </p>'Hi'".toList "Hi".toList "Hey".toList (.int 1) =
        .ok (some "<p> Hey </p>'Hi'".toList) ∧
      ∃ scope kind ms, Scope {} "<p> Hi </p>'Hi'".toList "Hi".toList (.int 1) scope ∧
        FirstKind "Hi".toList scope.inside kind ∧ Leftmost "Hi".toList kind scope.inside 0 ms ∧ ms ≠ [] ∧
        "<p> Hey </p>'Hi'".toList =
          scope.replace (substitute "Hi".toList.length "Hey".toList scope.inside 0 (ms.map occurrence)) := by
  have hline : ∃ x, Line.number? (.int 1) = .ok x := ⟨_, rfl⟩
  have hedit : apply {} "<p> Hi </p>'Hi'".toList "Hi".toList "Hey".toList (.int 1) =
      .ok (some "<p> Hey </p>'Hi'".toList) := by rfl
  obtain ⟨result, hr, -, hall⟩ := apply_replaces_enclosed {} _ _ _ _ hline
  obtain ⟨-, scope, kind, ms, hs, -, hk, hl, hms, -, -, he⟩ := hall _ (Except.ok.inj (hr.symm.trans hedit))
  exact ⟨hline, hedit, scope, kind, ms, hs, hk, hl, hms, he⟩

end LiveEdit.TextEdit
