/-
  LiveEdit.Proofs.Locator.Tolerance — which reported lines are tolerated.

  A request may report any number, and no line, as the line of its element. A line that is a number for all purposes
  leads to a line of the document, and the request then ends with nothing worse than an error of the locator's own
  (`Tolerated`). The only other lines are whole numbers beyond all doubles (`Line.TooLarge`): on these every step that
  looks at the line fails, and so does every request that may be tried (`Escapes`, `tolerated_iff`).
-/

import LiveEdit.Proofs.Locator.Log
import LiveEdit.Proofs.Locator.Refusal
import LiveEdit.Proofs.Number.Overflow

namespace LiveEdit

/-! ## Lines that are too large -/

namespace Line

variable {line : Option ReportedLine}

/-- The reported line is a whole number that rounds beyond the largest double. -/
def TooLarge (line : Option ReportedLine) : Prop :=
  ∃ k, line = some (.int k) ∧ (2 ^ 54 - 1) * 2 ^ 970 ≤ k.natAbs

theorem number?_of_tooLarge (h : TooLarge line) : number? (lineValue line) = .error .lineTooLarge := by
  obtain ⟨k, rfl, hk⟩ := h
  show number? (.int k) = _
  simp only [number?, (Double.ofInt?_eq_none_iff k).mpr hk]

theorem readable_of_not_tooLarge (h : ¬ TooLarge line) : Readable line := by
  rcases line with _ | k | x
  · exact ⟨none, rfl⟩
  · obtain ⟨x, hx⟩ := Option.ne_none_iff_exists'.mp fun hk => h ⟨k, rfl, (Double.ofInt?_eq_none_iff k).mp hk⟩
    refine ⟨some x, ?_⟩
    show number? (.int k) = _
    simp only [number?, hx]
  · exact ⟨some x, rfl⟩

theorem isReliable_of_tooLarge (settings : Settings) (h : TooLarge line) :
    isReliable settings (lineValue line) = .error .lineTooLarge :=
  map_eq_error_iff.mpr ((position?_lineValue line).trans (number?_of_tooLarge h))

theorem isUsable_of_tooLarge (h : TooLarge line) : isUsable (lineValue line) = .error .lineTooLarge :=
  map_eq_error_iff.mpr ((position?_lineValue line).trans (number?_of_tooLarge h))

theorem clamp_of_tooLarge (count : Nat) (h : TooLarge line) :
    clamp count (lineValue line) = .error .lineTooLarge :=
  map_eq_error_iff.mpr (number?_of_tooLarge h)

/-- A document without lines is clamped to like one of a single line. -/
theorem clamp_max_one (count : Nat) (v : Value) : clamp (max 1 count) v = clamp count v := by
  unfold clamp clampNumber
  rw [Nat.max_eq_right (Nat.le_max_left 1 count)]

theorem clamp_of_readable_bounds (count : Nat) (h : Readable line) :
    ∃ n, clamp count (lineValue line) = .ok n ∧ 1 ≤ n ∧ n ≤ max 1 count := by
  obtain ⟨n, hn⟩ := clamp_of_readable count h
  exact ⟨n, hn, clamp_bounds (Nat.le_max_left 1 count) ((clamp_max_one count _).trans hn)⟩

end Line

/-! ## The steps that look at the line -/

section

variable {settings : Settings} {line : Option ReportedLine} {r : Request}

theorem Derivation.effectiveLine_of_tooLarge (settings : Settings) (lines : List Text) (element : Element)
    (h : Line.TooLarge line) :
    Derivation.effectiveLine settings lines (lineValue line) element = .error .lineTooLarge := by
  unfold Derivation.effectiveLine
  rw [Line.isReliable_of_tooLarge settings h]
  rfl

theorem Derivation.effectiveLine_of_readable_bounds (settings : Settings) (lines : List Text) (element : Element)
    (h : Line.Readable line) :
    ∃ n, Derivation.effectiveLine settings lines (lineValue line) element = .ok n ∧ 1 ≤ n ∧ n ≤ max 1 lines.length := by
  obtain ⟨reliable, hreliable⟩ := Line.isReliable_of_readable settings h
  unfold Derivation.effectiveLine
  rw [hreliable]
  cases reliable with
  | true => exact Line.clamp_of_readable_bounds lines.length h
  | false =>
    refine ⟨_, rfl, ?_⟩
    split
    · rename_i index hindex
      have := elementIndex?_lt hindex
      omega
    · omega

/-- A text that is looked for at all needs the line. -/
theorem TextEdit.apply_of_tooLarge (settings : Settings) (content : Text) {old new : Text}
    (hskip : ¬ (old.isEmpty || decide (old = new)) = true) (h : Line.TooLarge line) :
    TextEdit.apply settings content old new (lineValue line) = .error .lineTooLarge := by
  unfold TextEdit.apply windowLine?
  rw [if_neg hskip, Line.isUsable_of_tooLarge h]
  rfl

theorem fastText_of_tooLarge (settings : Settings) (old new : Text) (h : Line.TooLarge r.reportedLine) :
    fastText settings r old new = .error .lineTooLarge := by
  show (TextEdit.apply settings r.sourceText old new (lineValue r.reportedLine) >>= _) = _
  by_cases hskip : (old.isEmpty || decide (old = new)) = true
  · -- Nothing is looked for, but the line is asked for its reliability.
    have hnone : TextEdit.apply settings r.sourceText old new (lineValue r.reportedLine) = .ok none := if_pos hskip
    rw [hnone]
    show (Line.isReliable settings (lineValue r.reportedLine) >>= _) = _
    rw [Line.isReliable_of_tooLarge settings h]
    rfl
  · rw [TextEdit.apply_of_tooLarge settings r.sourceText hskip h]
    rfl

theorem fastTag_of_tooLarge (settings : Settings) (edit : Except EditError Nat → Except EditError (Option Text))
    (h : Line.TooLarge r.reportedLine) : fastTag settings r edit = .error .lineTooLarge := by
  show (Derivation.effectiveLine settings (Text.lines r.sourceText) (lineValue r.reportedLine) r.element >>= _) = _
  rw [Derivation.effectiveLine_of_tooLarge settings _ _ h]
  rfl

/-- The fast path looks at the line in every change. -/
theorem fastPath_of_tooLarge (settings : Settings) (h : Line.TooLarge r.reportedLine) :
    fastPath settings r = .error .lineTooLarge := by
  unfold fastPath
  rcases r.change with ⟨old, new⟩ | css | ⟨name, new, old⟩
  · exact fastText_of_tooLarge settings old new h
  · exact fastTag_of_tooLarge settings _ h
  · exact fastTag_of_tooLarge settings _ h

/-- A request whose line is too large ends with that error if it is tried at all. -/
theorem locate_of_tooLarge (settings : Settings) (project : Option Text) (generator : Option Generator) (calls : Nat)
    (h : Line.TooLarge r.reportedLine) :
    (locate settings project generator calls r).result = .error (.edit .lineTooLarge) ↔ Allowed settings project r := by
  rw [(locate_ends settings project generator calls r).result_eq_error_iff, fastPath_of_tooLarge settings h]
  simp

theorem isOwn_of_readable (settings : Settings) (project : Option Text) (generator : Option Generator) (calls : Nat)
    (h : Line.Readable r.reportedLine) {e : LocatorError}
    (he : (locate settings project generator calls r).result = .error e) : e.IsOwn := by
  obtain ⟨-, -, hall⟩ := locate_refuses_iff settings project generator calls r h
  rcases hall e he with rfl | ⟨message, rfl⟩
  · exact nofun
  · exact nofun

end

/-! ## Tolerance -/

/-- Nothing fails because of the reported line, and what is made of it is a line of the document. -/
structure Tolerated (settings : Settings) (line : Option ReportedLine) : Prop where
  reliable : ∃ b, Line.isReliable settings (lineValue line) = .ok b
  usable : ∃ b, Line.isUsable (lineValue line) = .ok b
  clamped : ∀ count, ∃ n, Line.clamp count (lineValue line) = .ok n ∧ 1 ≤ n ∧ n ≤ max 1 count
  derived : ∀ lines element, ∃ n, Derivation.effectiveLine settings lines (lineValue line) element = .ok n ∧
    1 ≤ n ∧ n ≤ max 1 lines.length
  handled : ∀ project generator calls r, r.reportedLine = line →
    ∀ e, (locate settings project generator calls r).result = .error e → e.IsOwn

/-- Everything that looks at the reported line fails, and with it every request whose file is not blocked. -/
structure Escapes (settings : Settings) (line : Option ReportedLine) : Prop where
  reliable : Line.isReliable settings (lineValue line) = .error .lineTooLarge
  usable : Line.isUsable (lineValue line) = .error .lineTooLarge
  clamped : ∀ count, Line.clamp count (lineValue line) = .error .lineTooLarge
  derived : ∀ lines element, Derivation.effectiveLine settings lines (lineValue line) element = .error .lineTooLarge
  handled : ∀ project generator calls r, r.reportedLine = line →
    ((locate settings project generator calls r).result = .error (.edit .lineTooLarge) ↔ Allowed settings project r)

theorem tolerated_of_readable (settings : Settings) {line : Option ReportedLine} (h : Line.Readable line) :
    Tolerated settings line where
  reliable := Line.isReliable_of_readable settings h
  usable := Line.isUsable_of_readable h
  clamped count := Line.clamp_of_readable_bounds count h
  derived lines element := Derivation.effectiveLine_of_readable_bounds settings lines element h
  handled project generator calls _ hr _ he := isOwn_of_readable settings project generator calls (hr ▸ h) he

theorem escapes_of_tooLarge (settings : Settings) {line : Option ReportedLine} (h : Line.TooLarge line) :
    Escapes settings line where
  reliable := Line.isReliable_of_tooLarge settings h
  usable := Line.isUsable_of_tooLarge h
  clamped count := Line.clamp_of_tooLarge count h
  derived lines element := Derivation.effectiveLine_of_tooLarge settings lines element h
  handled project generator calls _ hr := locate_of_tooLarge settings project generator calls (hr ▸ h)

/-- A reported line is tolerated unless it is a whole number beyond all doubles; such a line is not tolerated
anywhere. -/
theorem tolerated_iff (settings : Settings) (line : Option ReportedLine) :
    (Tolerated settings line ↔ ¬ Line.TooLarge line) ∧ (Line.TooLarge line → Escapes settings line) := by
  refine ⟨⟨?_, ?_⟩, escapes_of_tooLarge settings⟩
  · intro h hlarge
    obtain ⟨b, hb⟩ := h.usable
    cases hb.symm.trans (Line.isUsable_of_tooLarge hlarge)
  · intro h
    exact tolerated_of_readable settings (Line.readable_of_not_tooLarge h)

/-- The middle between the largest double and the next place is the least whole number that is not tolerated. -/
theorem middle_above_doubles_escapes :
    Tolerated {} (some (.int ((2 ^ 54 - 1) * 2 ^ 970 - 1))) ∧ Escapes {} (some (.int ((2 ^ 54 - 1) * 2 ^ 970))) := by
  have hlast : ¬ Line.TooLarge (some (.int ((2 ^ 54 - 1) * 2 ^ 970 - 1))) := by
    intro h
    obtain ⟨k, hk, hle⟩ := h
    rw [← ReportedLine.int.inj (Option.some.inj hk)] at hle
    exact absurd hle (by decide +kernel)
  have hlarge : Line.TooLarge (some (.int ((2 ^ 54 - 1) * 2 ^ 970))) := ⟨_, rfl, by decide +kernel⟩
  exact ⟨(tolerated_iff {} _).1.mpr hlast, (tolerated_iff {} _).2 hlarge⟩

/-- In a document of one line there is but one line to clamp to, and this number is not clamped to it. -/
theorem huge_line_not_clamped :
    Line.clamp 1 (lineValue (some (.int (2 ^ 1024)))) = .error .lineTooLarge ∧
      ¬ Tolerated {} (some (.int (2 ^ 1024))) := by
  have hlarge : Line.clamp 1 (lineValue (some (.int (2 ^ 1024)))) = .error .lineTooLarge := by decide +kernel
  refine ⟨hlarge, fun h => ?_⟩
  obtain ⟨n, hn, -⟩ := h.clamped 1
  cases hn.symm.trans hlarge

end LiveEdit
