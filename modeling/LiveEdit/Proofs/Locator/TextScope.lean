/-
  LiveEdit.Proofs.Locator.TextScope — where the fast path has changed a text.

  The strategy of a patch tells which of the two attempts was made. Each of them works in one window, or replaces the
  only occurrence that there is: `ChangesAround` says that only lines within the radius of a line are different,
  `ReplacesOnly` that one occurrence was replaced and every other one overlaps it. So a patch keeps to the line that
  its strategy names, unless the text occurs but once (`locate_keeps_near_line`).
-/

import LiveEdit.Proofs.Derivation.TextLine
import LiveEdit.Proofs.Locator.Ending
import LiveEdit.Proofs.TextEdit.SingleOccurrence

namespace LiveEdit

namespace TextEdit

variable {settings : Settings} {content old new r : Text}

/-! ## Where an edit changes a document -/

/-- The lines that are more than `radius` above line `n` or more than `radius` below it stay as they are. -/
def ChangesAround (radius n : Nat) (content r : Text) : Prop :=
  ∃ middle, Text.lines r = (Text.lines content).take (n - radius - 1) ++ middle ++ (Text.lines content).drop (n + radius)

/-- The text is counted once, one occurrence of it is replaced, and there is no other apart from it. -/
structure ReplacesOnly (content old new r : Text) : Prop where
  count : Text.count old content = 1
  place : ∃ p, old <+: content.drop p ∧ r = content.take p ++ new ++ content.drop (p + old.length) ∧
    ∀ q, old <+: content.drop q → p < q + old.length ∧ q < p + old.length

theorem changesAround_of_inWindow? {n : Nat} (h : inWindow? settings content old new n = some r) :
    ChangesAround settings.textScopeRadius.val n content r := by
  obtain ⟨inside, -, rfl⟩ := Option.map_eq_some_iff.mp h
  refine ⟨Text.lines inside, ?_⟩
  show Text.lines (Text.unlines _) = _
  rw [Text.unlines_lines_around, Text.lines_around]
  rw [List.append_cancel_left_eq]
  show (Text.lines content).drop (min (Text.lines content).length (n + settings.textScopeRadius.val)) = _
  rcases Nat.le_total (Text.lines content).length (n + settings.textScopeRadius.val) with hle | hle
  · rw [Nat.min_eq_left hle, List.drop_eq_nil_of_le (Nat.le_refl _), List.drop_eq_nil_of_le hle]
  · rw [Nat.min_eq_right hle]

theorem replacesOnly_of_inWhole? (hold : old ≠ []) (hne : old ≠ new) (h : inWhole? content old new = some r) :
    ReplacesOnly content old new r := by
  have hcount : Text.count old content = 1 := by
    by_cases hcount : Text.count old content = 1
    · exact hcount
    · rw [inWhole?, if_neg hcount] at h
      cases h
  rw [inWhole?, if_pos hcount] at h
  obtain ⟨kind, hkind, rfl⟩ := firstKind_of_replaceIn? hne h
  obtain ⟨i, hit, hmatch, hrender⟩ := render_of_count_eq_one hold hcount hkind.1 new
  have hoccurs := hmatch.isPrefix_occurrence
  have honce := ((Text.count_eq_one_iff hold).mp hcount).2
  refine ⟨hcount, _, hoccurs, hrender, fun q hq => ?_⟩
  -- An occurrence that ends in front of the other one would be a second one.
  refine ⟨Nat.lt_of_not_le fun hle => honce ⟨q, _, hq, hoccurs, hle⟩, Nat.lt_of_not_le fun hle => ?_⟩
  exact honce ⟨_, q, hoccurs, hq, hle⟩

/-- An edit around a line, if there is one, changes only what is around it or the only occurrence. -/
theorem changed_of_atLine? {line : Option Nat} (h : atLine? settings content old new line = some r) :
    (∃ n, line = some n ∧ ChangesAround settings.textScopeRadius.val n content r) ∨ ReplacesOnly content old new r := by
  unfold atLine? at h
  split at h
  · cases h
  · rename_i hskip
    rw [Bool.or_eq_true, List.isEmpty_iff, decide_eq_true_eq, not_or] at hskip
    rcases Option.or_eq_some_iff.mp h with h | ⟨-, h⟩
    · obtain ⟨n, hn, hwindow⟩ := Option.bind_eq_some_iff.mp h
      exact .inl ⟨n, hn, changesAround_of_inWindow? hwindow⟩
    · exact .inr (replacesOnly_of_inWhole? hskip.1 hskip.2 h)

/-- The line around which an edit looks first is the one that the value points to. -/
theorem pointsTo_of_windowLine? {line : Value} {n : Nat} (h : windowLine? content line = .ok (some n)) :
    PointsTo line (Text.lines content).length n := by
  obtain ⟨usable, husable, hline⟩ := bind_eq_ok_iff.mp h
  cases usable with
  | false => cases hline
  | true =>
    obtain ⟨m, hm, hsome⟩ := map_eq_ok_iff.mp hline
    obtain rfl : m = n := Option.some.inj hsome
    exact pointsTo_iff.mpr ⟨husable, hm⟩

theorem changed_of_apply {line : Value} (h : apply settings content old new line = .ok (some r)) :
    (∃ n, PointsTo line (Text.lines content).length n ∧ ChangesAround settings.textScopeRadius.val n content r) ∨
      ReplacesOnly content old new r := by
  unfold apply at h
  split at h
  · cases h
  · obtain ⟨w, hw, hedit⟩ := map_eq_ok_iff.mp h
    rcases changed_of_atLine? hedit with ⟨n, rfl, hchanges⟩ | hreplaces
    · exact .inl ⟨n, pointsTo_of_windowLine? hw, hchanges⟩
    · exact .inr hreplaces

end TextEdit

open TextEdit LiveEdit.Derivation

/-! ## The fast path -/

variable {settings : Settings} {project : Option Text} {generator : Option Generator} {calls : Nat} {r : Request}
  {old new : Text}

/-- A patch of the fast path is what the fast path has made of the source. -/
theorem Ends.edited_of_patch {outcome : Outcome} (h : Ends settings project generator calls r outcome) {p : Patch}
    (hp : outcome.result = .ok (some p)) (hfast : p.generatedBy = "fast-path".toList) :
    ∃ filePath fast content, fastPath settings r = .ok fast ∧ fast.edited = some content ∧
      p = fastPatch filePath fast content := by
  cases h with
  | blocked hfile hb => cases hp
  | failed hfile hb hfails => cases hp
  | @edited filePath content fast hfile hb hends hedit hne =>
    cases hp
    exact ⟨filePath, fast, content, hends, hedit, rfl⟩
  | alone hg hdeclines => cases hp
  | asked hg hdeclines hs =>
    rw [answered_result] at hp
    obtain ⟨response, snippet, -, -, -, rfl⟩ := patchOfReply_eq_some_iff.mp hp
    have hne : "fallback".toList ≠ "fast-path".toList := by decide
    exact absurd hfast hne

/-- A text was changed around the reported line, or else around its derived line. -/
inductive TextChanged (settings : Settings) (r : Request) (old new : Text) (p : Patch) : Prop
  | reported (hstrategy : p.strategy = "text:reported-line".toList)
      (hchanged : (∃ n, PointsTo (lineValue r.reportedLine) (Text.lines r.sourceText).length n ∧
          ChangesAround settings.textScopeRadius.val n r.sourceText p.content) ∨
        ReplacesOnly r.sourceText old new p.content)
  | derived (hstrategy : p.strategy = "text:derived-line".toList)
      (hunreliable : Line.isReliable settings (lineValue r.reportedLine) = .ok false)
      (hline : FirstShows (Text.lines r.sourceText) old p.line)
      (hchanged : ChangesAround settings.textScopeRadius.val p.line r.sourceText p.content ∨
        ReplacesOnly r.sourceText old new p.content)

theorem textChanged_of_textTried {fast : FastPath} (hchange : r.change = .text old new)
    (h : TextTried settings r old new fast) (filePath : Text) {content : Text} (hedit : fast.edited = some content) :
    TextChanged settings r old new (fastPatch filePath fast content) := by
  have hstrategy : ∀ source, fastStrategy r.change source = "text:".toList ++ source.name := by
    intro source
    rw [hchange]
    rfl
  cases h with
  | reported happly hkeep hread hline =>
    cases hedit
    exact .reported (hstrategy .reported) (changed_of_apply happly)
  | derived happly hunreliable =>
    obtain ⟨n, hn, hat⟩ := Option.bind_eq_some_iff.mp hedit
    have hold : old ≠ [] := by
      intro he
      subst he
      cases hn
    have hfirst := (textLine?_eq_some_iff hold).mp hn
    have hchanged : ChangesAround settings.textScopeRadius.val n r.sourceText content ∨
        ReplacesOnly r.sourceText old new content := by
      rcases changed_of_atLine? hat with ⟨m, hm, hchanges⟩ | hreplaces
      · cases hm
        exact .inl hchanges
      · exact .inr hreplaces
    rw [hn]
    exact .derived (hstrategy .derived) hunreliable hfirst hchanged

theorem textChanged_of_locate (hchange : r.change = .text old new) {p : Patch}
    (hp : (locate settings project generator calls r).result = .ok (some p))
    (hfast : p.generatedBy = "fast-path".toList) : TextChanged settings r old new p := by
  obtain ⟨filePath, fast, content, hends, hedit, rfl⟩ :=
    (locate_ends settings project generator calls r).edited_of_patch hp hfast
  unfold fastPath at hends
  rw [hchange] at hends
  exact textChanged_of_textTried hchange (fastText_eq_ok hends) filePath hedit

/-- A patch of the fast path keeps near the line that its strategy names, unless the text occurs only once: the first
line that shows the text close to markup, for which the reported line must not have been reliable, or the usable
reported line. -/
theorem locate_keeps_near_line (settings : Settings) (project : Option Text) (generator : Option Generator)
    (calls : Nat) {r : Request} {old new : Text} (hchange : r.change = .text old new) {p : Patch}
    (hp : (locate settings project generator calls r).result = .ok (some p))
    (hfast : p.generatedBy = "fast-path".toList) :
    (p.strategy = "text:derived-line".toList ∨ p.strategy = "text:reported-line".toList) ∧
    (p.strategy = "text:derived-line".toList →
      Line.isReliable settings (lineValue r.reportedLine) = .ok false ∧
      FirstShows (Text.lines r.sourceText) old p.line ∧
      (ChangesAround settings.textScopeRadius.val p.line r.sourceText p.content ∨
        ReplacesOnly r.sourceText old new p.content)) ∧
    (p.strategy = "text:reported-line".toList →
      (∃ n, PointsTo (lineValue r.reportedLine) (Text.lines r.sourceText).length n ∧
        ChangesAround settings.textScopeRadius.val n r.sourceText p.content) ∨
      ReplacesOnly r.sourceText old new p.content) := by
  have hnames : "text:reported-line".toList ≠ "text:derived-line".toList := by decide
  cases textChanged_of_locate hchange hp hfast with
  | reported hstrategy hchanged =>
    exact ⟨.inr hstrategy, fun h => absurd (hstrategy.symm.trans h) hnames, fun _ => hchanged⟩
  | derived hstrategy hunreliable hline hchanged =>
    exact ⟨.inl hstrategy, fun _ => ⟨hunreliable, hline, hchanged⟩, fun h => absurd (h.symm.trans hstrategy) hnames⟩

/-- The text stands twice in the source, first far from all markup. It is changed where markup shows, and the window
around that line does not reach the other place. -/
theorem derived_line_changed :
    let settings : Settings := { textScopeRadius := ⟨1, by decide⟩ }
    let r : Request := {
      sourceText := "x = 'Hi'\n\n\n<p>Hi</p>".toList, change := .text "Hi".toList "Hey".toList }
    ∃ p, (locate settings none none 0 r).result = .ok (some p) ∧ p.generatedBy = "fast-path".toList ∧
      p.strategy = "text:derived-line".toList ∧ p.line = 4 ∧ FirstShows (Text.lines r.sourceText) "Hi".toList 4 ∧
      ChangesAround 1 4 r.sourceText p.content := by
  intro settings r
  have hp : (locate settings none none 0 r).result = .ok (some ⟨[], "x = 'Hi'\n\n\n<p>Hey</p>".toList, 4,
      "fast-path".toList, "text:derived-line".toList⟩) := by rfl
  obtain ⟨-, hderived, -⟩ := locate_keeps_near_line settings none none 0 rfl hp rfl
  obtain ⟨-, hfirst, hchanged⟩ := hderived rfl
  refine ⟨_, hp, rfl, rfl, rfl, hfirst, hchanged.resolve_right fun hreplaces => ?_⟩
  exact absurd hreplaces.count (by decide +kernel)

end LiveEdit
