/-
  LiveEdit.Proofs.Edit.Locality — which lines of a document the search for an element looks at.

  A block is read from as many lines as it may have (`TagBlock.read_eq_of_agree`), so the search sees the lines of its
  window and those that a block of the last one may reach. In two documents of one length that agree there it comes to
  the same result, and an edit changes the same tag of both in the same way (`locate_eq_of_agree`).
-/

import LiveEdit.Proofs.Edit.UniqueCandidate
import LiveEdit.Edit.TagEdit

namespace LiveEdit

open Markup

/-! ## Lists that agree -/

/-- Two lists hold the same at the places from `start` up to `stop`. -/
def AgreeOn {α : Type} (l l' : List α) (start stop : Nat) : Prop := ∀ i, start ≤ i → i < stop → l[i]? = l'[i]?

namespace AgreeOn

variable {α β : Type} {l l' : List α} {start stop : Nat}

theorem mono (h : AgreeOn l l' start stop) {first last : Nat} (hfirst : start ≤ first) (hlast : last ≤ stop) :
    AgreeOn l l' first last := fun i hi hi' => h i (by omega) (by omega)

theorem map (f : α → β) (h : AgreeOn l l' start stop) : AgreeOn (l.map f) (l'.map f) start stop := by
  intro i hi hi'
  rw [List.getElem?_map, List.getElem?_map, h i hi hi']

/-- Lists of one length hold nothing behind their end. -/
theorem beyond (hlength : l.length = l'.length) (h : AgreeOn l l' start (min l.length stop)) :
    AgreeOn l l' start stop := by
  intro i hi hi'
  by_cases hend : i < l.length
  · exact h i hi (by omega)
  · rw [List.getElem?_eq_none (by omega), List.getElem?_eq_none (by omega)]

theorem take_drop {count : Nat} (h : AgreeOn l l' start (start + count)) :
    (l.drop start).take count = (l'.drop start).take count := by
  refine List.ext_getElem? fun i => ?_
  by_cases hi : i < count
  · rw [List.getElem?_take_of_lt hi, List.getElem?_take_of_lt hi, List.getElem?_drop, List.getElem?_drop]
    exact h (start + i) (by omega) (by omega)
  · rw [List.getElem?_eq_none (by simp; omega), List.getElem?_eq_none (by simp; omega)]

end AgreeOn

/-! ## Blocks -/

namespace Markup

/-- No line is looked at for which there is no room. -/
theorem blockLines_take (room : Nat) (lines : List Text) : blockLines room (lines.take room) = blockLines room lines := by
  induction room generalizing lines with
  | zero => rfl
  | succ room ih =>
    cases lines with
    | nil => rfl
    | cons line lines => rw [List.take_succ_cons, blockLines, blockLines, ih]

theorem TagBlock.read_eq_of_agree (settings : Settings) {lines lines' : List Text} {start : Nat}
    (h : AgreeOn lines lines' start (start + settings.tagBlockMaxLines.val)) :
    read settings lines start = read settings lines' start := by
  unfold read ofLines
  rw [← blockLines_take, h.take_drop, blockLines_take]

end Markup

/-! ## The search -/

namespace Candidate

variable {settings : Settings} {lines lines' : List Text}

theorem ofLine?_eq_of_agree (tag : Text) (attributes : List StableAttribute) {index : Nat}
    (h : AgreeOn lines lines' index (index + settings.tagBlockMaxLines.val)) :
    ofLine? settings lines tag attributes index = ofLine? settings lines' tag attributes index := by
  have hpos := settings.tagBlockMaxLines.property
  have hline : lines[index]? = lines'[index]? := h index (Nat.le_refl _) (by omega)
  unfold ofLine?
  rw [List.getD_eq_getElem?_getD, List.getD_eq_getElem?_getD, hline, TagBlock.read_eq_of_agree settings h]

/-- The search sees the lines of its window, and behind them those that a block which begins there may reach. -/
theorem unique?_eq_of_agree (tag : Text) (attributes : List StableAttribute) {line : Nat}
    (hlength : lines.length = lines'.length)
    (h : AgreeOn lines lines' (line - settings.styleScanRadius.val - 1)
      (min lines.length (line + settings.styleScanRadius.val) + settings.tagBlockMaxLines.val - 1)) :
    unique? settings lines tag attributes line = unique? settings lines' tag attributes line := by
  have hpos := settings.tagBlockMaxLines.property
  have hwindow : inWindow settings lines tag attributes (line - settings.styleScanRadius.val - 1)
      (min lines.length (line + settings.styleScanRadius.val)) =
      inWindow settings lines' tag attributes (line - settings.styleScanRadius.val - 1)
        (min lines.length (line + settings.styleScanRadius.val)) := by
    -- A block that begins on the last line of the window has one line there and the others behind it.
    refine List.filterMap_congr fun index hindex => ?_
    rw [List.mem_range'_1] at hindex
    exact ofLine?_eq_of_agree tag attributes (h.mono (by omega) (by omega))
  unfold unique? Line.around
  simp only
  rw [hwindow, hlength]

end Candidate

/-! ## The edit -/

namespace TagEdit

/-- The candidate and the tag that an edit chooses, and what it makes of the tag. -/
def choice (settings : Settings) (lines : List Text) (line : Except EditError Nat) (element : Element)
    (edit : OpeningTag → Option TagEdit) : Except EditError (Option (Candidate × OpeningTag × TagEdit)) :=
  (Candidate.locate settings lines line element).map fun candidate => do
    let c ← candidate
    let tag ← c.openingTag? settings element
    let result ← edit tag
    return (c, tag, result)

/-- The outcome of a choice in a document. -/
def outcome (content : Text) (chosen : Except EditError (Option (Candidate × OpeningTag × TagEdit))) :
    Except EditError (Option Text) :=
  chosen.map (Option.map fun (c, tag, result) => document content c tag result)

theorem apply_eq_outcome (settings : Settings) (content : Text) (line : Except EditError Nat) (element : Element)
    (edit : OpeningTag → Option TagEdit) : apply settings content line element edit =
      outcome content (choice settings (Text.lines content) line element edit) := by
  unfold apply outcome choice
  cases Candidate.locate settings (Text.lines content) line element with
  | error e => rfl
  | ok found =>
    cases found with
    | none => rfl
    | some c =>
      cases ht : c.openingTag? settings element with
      | none => simp [Except.map, ht]
      | some tag => cases he : edit tag <;> simp [Except.map, ht, he]

end TagEdit

namespace Candidate

/-- Documents of one length that agree on the window around a line, and on as many lines behind it as a block that
begins there may reach, have the same candidate, or none, or the same error. An edit changes the same tag of both in the
same way. -/
theorem locate_eq_of_agree (settings : Settings) {ls ls' : List (Option Text)} (v : Value) (element : Element)
    {line : Nat} (hlength : ls.length = ls'.length) (hline : Line.clamp ls.length v = .ok line)
    (hagree : AgreeOn ls ls' (line - settings.styleScanRadius.val - 1)
      (min ls.length (min ls.length (line + settings.styleScanRadius.val) + settings.tagBlockMaxLines.val - 1))) :
    locate settings (Text.presentLines ls) (Line.clamp ls.length v) element =
      locate settings (Text.presentLines ls') (Line.clamp ls'.length v) element ∧
    ∀ content content' edit, Text.lines content = Text.presentLines ls → Text.lines content' = Text.presentLines ls' →
      let chosen := TagEdit.choice settings (Text.presentLines ls) (Line.clamp ls.length v) element edit
      TagEdit.apply settings content (Line.clamp ls.length v) element edit = TagEdit.outcome content chosen ∧
        TagEdit.apply settings content' (Line.clamp ls'.length v) element edit = TagEdit.outcome content' chosen := by
  have hcount : (Text.presentLines ls).length = ls.length := List.length_map _
  have hcount' : (Text.presentLines ls').length = ls'.length := List.length_map _
  have hsame : ∀ tag attributes, unique? settings (Text.presentLines ls) tag attributes line =
      unique? settings (Text.presentLines ls') tag attributes line := by
    intro tag attributes
    refine unique?_eq_of_agree tag attributes (by rw [hcount, hcount', hlength]) ?_
    rw [hcount]
    exact (hagree.beyond hlength).map (·.getD [])
  have hlocate : locate settings (Text.presentLines ls) (Line.clamp ls.length v) element =
      locate settings (Text.presentLines ls') (Line.clamp ls'.length v) element := by
    rw [← hlength, hline]
    unfold locate
    simp only [Except.map, hsame]
  refine ⟨hlocate, fun content content' edit hcontent hcontent' => ⟨?_, ?_⟩⟩
  · rw [TagEdit.apply_eq_outcome, hcontent]
  · rw [TagEdit.apply_eq_outcome, hcontent', TagEdit.choice, TagEdit.choice, hlocate]

/-- A link wrapped over the last line of the window and the one behind it. That a second such link follows there makes
no difference. -/
theorem link_behind_window_no_rival :
    let settings : Settings := { styleScanRadius := ⟨1, by decide⟩, tagBlockMaxLines := ⟨2, by decide⟩ }
    let seen := [some "<p>".toList, none, some "<a".toList, some " href='/x'>".toList]
    let ls := seen ++ [some "</a>".toList]
    let ls' := seen ++ [some "<a href='/x'>".toList]
    let link : Element := { tagName := "a".toList, attributes := [("href".toList, "/x".toList)] }
    ls.length = ls'.length ∧ Line.clamp ls.length (.int 2) = .ok 2 ∧ AgreeOn ls ls' 0 4 ∧
      ∃ c, locate settings (Text.presentLines ls) (Line.clamp ls.length (.int 2)) link = .ok (some c) ∧
        locate settings (Text.presentLines ls') (Line.clamp ls'.length (.int 2)) link = .ok (some c) := by
  intro settings seen ls ls' link
  have hline : Line.clamp ls.length (.int 2) = .ok 2 := by rfl
  have hagree : AgreeOn ls ls' 0 4 := by
    intro i _ hi
    rw [List.getElem?_append_left hi, List.getElem?_append_left hi]
  let c := atLine settings (Text.presentLines ls) (Evidence.rank settings link.attributes) 2
  have hc : locate settings (Text.presentLines ls) (Line.clamp ls.length (.int 2)) link = .ok (some c) := by
    decide +kernel
  have hlength : ls.length = ls'.length := rfl
  have hsame := (locate_eq_of_agree settings (.int 2) link hlength hline hagree).1
  exact ⟨hlength, hline, hagree, c, hc, hsame.symm.trans hc⟩

/-- The line behind the window counts as long as a block may reach it. -/
example :
    let settings : Settings := { styleScanRadius := ⟨1, by decide⟩, tagBlockMaxLines := ⟨2, by decide⟩ }
    let link : Element := { tagName := "a".toList, attributes := [("href".toList, "/x".toList)] }
    let found (behind : Text) := locate settings ["<p>".toList, [], "<a".toList, behind] (.ok 2) link
    found " href='/x'>".toList ≠ .ok none ∧ found " title='x'>".toList = .ok none := by
  decide +kernel

end Candidate

end LiveEdit
