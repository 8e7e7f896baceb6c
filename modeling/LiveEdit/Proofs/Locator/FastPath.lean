/-
  LiveEdit.Proofs.Locator.FastPath — what the fast path has looked at when it ends without an error.

  A tag is edited at one line (`fastTag_eq_ok`), a text around the reported line or around its first place in markup
  (`fastText_eq_ok`). In each case the reported line could be read as a number (`readable_of_fastPath`), and the line
  that the fast path gives is one of the document (`line_of_fastPath`).
-/

import LiveEdit.Locator
import LiveEdit.Proofs.Line.Clamp
import LiveEdit.Proofs.Text.Lines

namespace LiveEdit

/-! ## Derived lines -/

namespace Derivation

variable {lines : List Text}

theorem elementIndex?_lt {settings : Settings} {element : Element} {index : Nat}
    (h : elementIndex? settings lines element = some index) : index < lines.length := by
  unfold elementIndex? at h
  simp only at h
  split at h
  · cases h
  · exact List.mem_range.mp (List.mem_of_find?_eq_some h)

theorem textLine?_bounds {old : Text} {line : Nat} (h : textLine? lines old = some line) :
    1 ≤ line ∧ line ≤ lines.length := by
  unfold textLine? at h
  split at h
  · cases h
  · obtain ⟨index, hi, rfl⟩ := Option.map_eq_some_iff.mp h
    have hlt := List.mem_range.mp (List.mem_of_find?_eq_some hi)
    omega

theorem effectiveLine_bounds {settings : Settings} {v : Value} {element : Element} {line : Nat}
    (hl : 1 ≤ lines.length) (h : effectiveLine settings lines v element = .ok line) :
    1 ≤ line ∧ line ≤ lines.length := by
  obtain ⟨reliable, -, h⟩ := bind_eq_ok_iff.mp h
  split at h
  · exact Line.clamp_bounds hl h
  · have hline := Except.ok.inj h
    split at hline
    · rename_i index hi
      have := elementIndex?_lt hi
      omega
    · omega

end Derivation

/-! ## The two ways -/

variable {settings : Settings} {r : Request} {fast : FastPath}

/-- What became of a text: it was looked for around the reported line, or that failed for a line that is not
reliable, and it was looked for around its first place in markup, if there is one. -/
inductive TextTried (settings : Settings) (r : Request) (old new : Text) : FastPath → Prop
  | reported {edited : Option Text} {line : Option Nat}
      (happly : TextEdit.apply settings r.sourceText old new (lineValue r.reportedLine) = .ok edited)
      (hkeep : edited.isSome = true ∨ Line.isReliable settings (lineValue r.reportedLine) = .ok true)
      (hread : Line.Readable r.reportedLine)
      (hline : ∀ n, line = some n → Line.clamp (Text.lines r.sourceText).length (lineValue r.reportedLine) = .ok n) :
      TextTried settings r old new ⟨edited, fastStrategy r.change .reported, line⟩
  | derived (happly : TextEdit.apply settings r.sourceText old new (lineValue r.reportedLine) = .ok none)
      (hunreliable : Line.isReliable settings (lineValue r.reportedLine) = .ok false) :
      TextTried settings r old new
        ⟨(Derivation.textLine? (Text.lines r.sourceText) old).bind fun line =>
            TextEdit.atLine? settings r.sourceText old new (some line),
          fastStrategy r.change .derived, Derivation.textLine? (Text.lines r.sourceText) old⟩

/-- A text edit that was made at all had a line to read, or none to speak of. -/
theorem readable_of_apply {old new content : Text}
    (h : TextEdit.apply settings r.sourceText old new (lineValue r.reportedLine) = .ok (some content)) :
    Line.Readable r.reportedLine := by
  unfold TextEdit.apply at h
  split at h
  · cases h
  · obtain ⟨w, hw, -⟩ := map_eq_ok_iff.mp h
    obtain ⟨usable, hu, -⟩ := bind_eq_ok_iff.mp hw
    exact Line.readable_of_isUsable hu

theorem fastText_eq_ok {old new : Text} (h : fastText settings r old new = .ok fast) :
    TextTried settings r old new fast := by
  obtain ⟨edited, ha, hrest⟩ := bind_eq_ok_iff.mp h
  obtain ⟨kept, hk, hend⟩ := bind_eq_ok_iff.mp hrest
  clear h hrest
  cases kept with
  | true =>
    have hkeep : edited.isSome = true ∨ Line.isReliable settings (lineValue r.reportedLine) = .ok true := by
      split at hk
      · exact .inl ‹_›
      · exact .inr hk
    have hread : Line.Readable r.reportedLine := by
      rcases hkeep with hs | hr
      · obtain ⟨content, rfl⟩ := Option.isSome_iff_exists.mp hs
        exact readable_of_apply ha
      · exact Line.readable_of_isReliable hr
    simp only [if_true] at hend
    split at hend
    · obtain ⟨line, hl, hfast⟩ := bind_eq_ok_iff.mp hend
      obtain ⟨n, hn, rfl⟩ := map_eq_ok_iff.mp hl
      cases hfast
      refine .reported ha hkeep hread ?_
      intro m hm
      cases hm
      exact hn
    · cases hend
      exact .reported ha hkeep hread (by simp)
  | false =>
    cases edited with
    | some content => cases hk
    | none =>
      have hd : TextTried settings r old new _ := .derived ha hk
      simp only [Bool.false_eq_true, if_false] at hend
      cases hl : Derivation.textLine? (Text.lines r.sourceText) old with
      | none =>
        rw [hl] at hend hd
        cases hend
        exact hd
      | some line =>
        rw [hl] at hend hd
        cases hend
        exact hd

/-- A tag is edited at its effective line, which is the one that the fast path gives. -/
theorem fastTag_eq_ok {edit : Except EditError Nat → Except EditError (Option Text)}
    (h : fastTag settings r edit = .ok fast) :
    ∃ line reliable edited,
      Derivation.effectiveLine settings (Text.lines r.sourceText) (lineValue r.reportedLine) r.element = .ok line ∧
      Line.isReliable settings (lineValue r.reportedLine) = .ok reliable ∧ edit (.ok line) = .ok edited ∧
      fast = ⟨edited, fastStrategy r.change (if reliable then .reported else .derived), some line⟩ := by
  obtain ⟨line, hl, hread⟩ := bind_eq_ok_iff.mp h
  obtain ⟨reliable, hr, hedit⟩ := bind_eq_ok_iff.mp hread
  obtain ⟨edited, he, hend⟩ := bind_eq_ok_iff.mp hedit
  cases hend
  exact ⟨line, reliable, edited, hl, hr, he, rfl⟩

/-! ## The fast path -/

/-- A fast path that ends without an error has tried a text, or a tag. -/
theorem fastPath_eq_ok (h : fastPath settings r = .ok fast) :
    (∃ old new, r.change = .text old new ∧ TextTried settings r old new fast) ∨
      ∃ edit, fastTag settings r edit = .ok fast := by
  unfold fastPath at h
  rcases hc : r.change with ⟨old, new⟩ | css | ⟨name, value, old⟩
  · rw [hc] at h
    exact .inl ⟨old, new, rfl, fastText_eq_ok h⟩
  · rw [hc] at h
    exact .inr ⟨_, h⟩
  · rw [hc] at h
    exact .inr ⟨_, h⟩

/-- A request whose fast path ends without an error reports no line beyond all numbers. -/
theorem readable_of_fastPath (h : fastPath settings r = .ok fast) : Line.Readable r.reportedLine := by
  rcases fastPath_eq_ok h with ⟨old, new, -, htext⟩ | ⟨edit, htag⟩
  · cases htext with
    | reported _ _ hread _ => exact hread
    | derived _ hunreliable => exact Line.readable_of_isReliable hunreliable
  · obtain ⟨line, reliable, edited, -, hr, -, -⟩ := fastTag_eq_ok htag
    exact Line.readable_of_isReliable hr

theorem line_of_fastPath (h : fastPath settings r = .ok fast) {n : Nat} (hn : fast.line = some n) :
    1 ≤ n ∧ n ≤ (Text.lines r.sourceText).length := by
  have hpos : 1 ≤ (Text.lines r.sourceText).length := List.length_pos_iff.mpr (Text.lines_ne_nil _)
  rcases fastPath_eq_ok h with ⟨old, new, -, htext⟩ | ⟨edit, htag⟩
  · cases htext with
    | reported _ _ _ hline => exact Line.clamp_bounds hpos (hline n hn)
    | derived _ _ => exact Derivation.textLine?_bounds hn
  · obtain ⟨line, reliable, edited, hl, -, -, rfl⟩ := fastTag_eq_ok htag
    obtain rfl : line = n := Option.some.inj hn
    exact Derivation.effectiveLine_bounds hpos hl

end LiveEdit
