/-
  LiveEdit.Proofs.Markup.TagBlock — how far a block of lines reaches.

  A block goes on behind lines without a `>` as long as there is room and the document goes on
  (`lt_length_blockLines_iff`). So it ends with the first line that holds a `>`, or with the last one that it has room
  for (`block_ends_at_first_close`), and with more room it begins in the same way (`blockLines_isPrefix_of_le`).
-/

import Mathlib.Data.List.GetD
import Mathlib.Order.Bounds.Defs
import LiveEdit.Markup.TagBlock
import LiveEdit.Proofs.Text.Lines

namespace LiveEdit.Markup

/-! ## The lines of a block -/

theorem blockLines_isPrefix (room : Nat) (lines : List Text) : blockLines room lines <+: lines := by
  induction room generalizing lines with
  | zero => exact List.nil_prefix
  | succ room ih =>
    cases lines with
    | nil => exact List.nil_prefix
    | cons line lines =>
      unfold blockLines
      split
      · exact ⟨lines, rfl⟩
      · exact (List.prefix_cons_inj line).mpr (ih lines)

theorem blockLines_ne_nil {room : Nat} (hr : 0 < room) {lines : List Text} (hl : lines ≠ []) :
    blockLines room lines ≠ [] := by
  obtain ⟨room, rfl⟩ := Nat.exists_eq_succ_of_ne_zero (Nat.ne_of_gt hr)
  obtain ⟨line, lines, rfl⟩ := List.exists_cons_of_ne_nil hl
  unfold blockLines
  split <;> simp

theorem length_blockLines_le (room : Nat) (lines : List Text) : (blockLines room lines).length ≤ room := by
  induction room generalizing lines with
  | zero => exact Nat.le_refl 0
  | succ room ih =>
    cases lines with
    | nil => exact Nat.zero_le _
    | cons line lines =>
      unfold blockLines
      split
      · simp
      · have := ih lines
        rw [List.length_cons]
        omega

/-- A block goes on behind lines that it has room for just when none of them holds a `>`. -/
theorem lt_length_blockLines_iff {room : Nat} {before rest : List Text} (hroom : before.length < room)
    (hrest : rest ≠ []) :
    before.length < (blockLines room (before ++ rest)).length ↔ ∀ line ∈ before, '>' ∉ line := by
  induction before generalizing room with
  | nil =>
    have hne := blockLines_ne_nil hroom hrest
    simpa using List.length_pos_iff.mpr hne
  | cons line before ih =>
    obtain ⟨room, rfl⟩ := Nat.exists_eq_succ_of_ne_zero (Nat.ne_zero_of_lt hroom)
    have ih := ih (Nat.lt_of_succ_lt_succ hroom)
    rw [List.cons_append, blockLines, List.forall_mem_cons, List.length_cons]
    by_cases hline : '>' ∈ line
    · simp [hline]
    · simp [hline, ih]

/-- With more room a block has the same lines, and perhaps others behind them. -/
theorem blockLines_isPrefix_of_le {room room' : Nat} (h : room ≤ room') (lines : List Text) :
    blockLines room lines <+: blockLines room' lines := by
  induction room generalizing room' lines with
  | zero => exact List.nil_prefix
  | succ room ih =>
    obtain ⟨room', rfl⟩ := Nat.exists_eq_succ_of_ne_zero (Nat.ne_of_gt (Nat.lt_of_lt_of_le room.succ_pos h))
    cases lines with
    | nil => exact List.nil_prefix
    | cons line lines =>
      rw [blockLines, blockLines]
      split
      · exact List.prefix_rfl
      · exact (List.prefix_cons_inj line).mpr (ih (Nat.le_of_succ_le_succ h) lines)

/-! ## The block at a line -/

namespace TagBlock

variable (settings : Settings) {lines : List Text} {start : Nat}

/-- A block that begins within the document has at least one line, and ends within it and within the allowed
height. -/
theorem height_read (h : start < lines.length) :
    1 ≤ (read settings lines start).height ∧ (read settings lines start).height ≤ settings.tagBlockMaxLines.val ∧
      start + (read settings lines start).height ≤ lines.length := by
  have hrest : lines.drop start ≠ [] := by simpa using h
  have hne := blockLines_ne_nil settings.tagBlockMaxLines.property hrest
  have hfit := (blockLines_isPrefix settings.tagBlockMaxLines.val (lines.drop start)).length_le
  rw [List.length_drop] at hfit
  refine ⟨List.length_pos_iff.mpr hne, length_blockLines_le _ _, ?_⟩
  show start + (blockLines settings.tagBlockMaxLines.val (lines.drop start)).length ≤ lines.length
  omega

/-- The lines of a block are those of the document from its first line on, as many as it has. -/
theorem lines_read : (read settings lines start).lines =
    (lines.drop start).take (read settings lines start).height :=
  List.prefix_iff_eq_take.mp (blockLines_isPrefix settings.tagBlockMaxLines.val (lines.drop start))

theorem text_read : (read settings lines start).text =
    Text.unlines ((lines.take (start + (read settings lines start).height)).drop start) := by
  rw [List.drop_take, Nat.add_sub_cancel_left]
  exact congrArg Text.unlines (lines_read settings)

/-- With more room allowed a block begins with the text that it has with less. -/
theorem text_isPrefix_of_le {settings settings' : Settings}
    (h : settings.tagBlockMaxLines.val ≤ settings'.tagBlockMaxLines.val) (lines : List Text) (start : Nat) :
    (read settings lines start).text <+: (read settings' lines start).text :=
  Text.unlines_isPrefix (blockLines_isPrefix_of_le h (lines.drop start))

/-- A line that there is room for is in the block just when no line of the block above it holds a `>`. -/
theorem lt_height_iff {i : Nat} (hstart : start ≤ i) (hroom : i < start + settings.tagBlockMaxLines.val)
    (hi : i < lines.length) :
    i < start + (read settings lines start).height ↔ ∀ j, start ≤ j → j < i → '>' ∉ lines.getD j [] := by
  have hsplit : (lines.drop start).take (i - start) ++ lines.drop i = lines.drop start := by
    rw [← Nat.add_sub_cancel' hstart, ← List.drop_drop, Nat.add_sub_cancel_left, List.take_append_drop]
  have hlength : ((lines.drop start).take (i - start)).length = i - start := by
    rw [List.length_take, List.length_drop]
    omega
  have hgetD : ∀ {k} (hk : k < ((lines.drop start).take (i - start)).length),
      ((lines.drop start).take (i - start))[k] = lines.getD (start + k) [] := by
    intro k hk
    rw [List.getElem_take, List.getElem_drop, List.getD_eq_getElem _ _ (by omega)]
  have hroom : ((lines.drop start).take (i - start)).length < settings.tagBlockMaxLines.val := by omega
  have hiff := lt_length_blockLines_iff hroom (show lines.drop i ≠ [] by simpa using hi)
  rw [hsplit, hlength] at hiff
  have hheight : i < start + (read settings lines start).height ↔
      i - start < (blockLines settings.tagBlockMaxLines.val (lines.drop start)).length := by
    show i < start + (blockLines settings.tagBlockMaxLines.val (lines.drop start)).length ↔ _
    omega
  rw [hheight, hiff]
  constructor
  · intro h j hj hji
    have hlt : j - start < ((lines.drop start).take (i - start)).length := by omega
    rw [← Nat.add_sub_cancel' hj, ← hgetD hlt]
    exact h _ (List.getElem_mem hlt)
  · intro h line hline
    obtain ⟨k, hk, rfl⟩ := List.getElem_of_mem hline
    rw [hgetD hk]
    exact h (start + k) (by omega) (by omega)

/-- A block ends with the first line that holds a `>`, if there is room for that one. -/
theorem height_of_first (h : start < lines.length) {i : Nat} (hstart : start ≤ i)
    (hroom : i < min (start + settings.tagBlockMaxLines.val) lines.length) (hclose : '>' ∈ lines.getD i [])
    (hfirst : ∀ j, start ≤ j → j < i → '>' ∉ lines.getD j []) :
    start + (read settings lines start).height = i + 1 := by
  have hreached := (lt_height_iff settings hstart (by omega) (by omega)).mpr hfirst
  have hstop : ¬ i + 1 < start + (read settings lines start).height := by
    intro hlt
    obtain ⟨-, hallowed, hfits⟩ := height_read settings h
    exact (lt_height_iff settings (by omega) (by omega) (by omega)).mp hlt i hstart (Nat.lt_succ_self i) hclose
  omega

/-- A block without a `>` in front of its last line has all the lines that there is room for. -/
theorem height_of_none (h : start < lines.length)
    (hnone : ∀ j, start ≤ j → j < min (start + settings.tagBlockMaxLines.val) lines.length - 1 →
      '>' ∉ lines.getD j []) :
    start + (read settings lines start).height = min (start + settings.tagBlockMaxLines.val) lines.length := by
  obtain ⟨hone, hallowed, hfits⟩ := height_read settings h
  have hpos := settings.tagBlockMaxLines.property
  have hreached := (lt_height_iff settings (by omega) (by omega) (by omega)).mpr hnone
  omega

end TagBlock

/-- A block that begins at a line of the document ends with the first line that holds a `>`, if it has room for that
one, and otherwise with the last line that there is and that it has room for; its text is that of its lines. -/
theorem block_ends_at_first_close (settings : Settings) (ls : List (Option Text)) {start : Nat}
    (h : start < ls.length) :
    let lines := Text.presentLines ls
    let cap := min (start + settings.tagBlockMaxLines.val) ls.length - 1
    ∃ last : Nat, blockAt? settings lines start = some (TagBlock.read settings lines start, (last : Int)) ∧
      start ≤ last ∧
      (∀ i, IsLeast {j | start ≤ j ∧ '>' ∈ lines.getD j []} i → last = min i cap) ∧
      ((∀ i, start ≤ i → '>' ∉ lines.getD i []) → last = cap) ∧
      (TagBlock.read settings lines start).text = Text.unlines ((lines.take (last + 1)).drop start) := by
  intro lines cap
  have hcount : lines.length = ls.length := List.length_map _
  have hcap : cap = min (start + settings.tagBlockMaxLines.val) lines.length - 1 := by rw [hcount]
  have hstart : start < lines.length := by omega
  obtain ⟨hone, -, -⟩ := TagBlock.height_read settings hstart
  obtain ⟨last, hlast⟩ : ∃ last, last + 1 = start + (TagBlock.read settings lines start).height :=
    ⟨start + (TagBlock.read settings lines start).height - 1, by omega⟩
  refine ⟨last, ?_, by omega, ?_, ?_, ?_⟩
  · have hrest : lines.drop start ≠ [] := by simpa using hstart
    have hfrom : linesFrom lines start = lines.drop start := by simp [linesFrom]
    have hend : ((start : Int) + (TagBlock.read settings lines start).height - 1) = (last : Int) := by omega
    simp only [blockAt?, hfrom, List.isEmpty_iff, hrest, if_false]
    exact congrArg (fun n => some (TagBlock.read settings lines start, n)) hend
  · rintro i ⟨⟨hi, hclose⟩, hleast⟩
    have hfirst : ∀ j, start ≤ j → j < i → '>' ∉ lines.getD j [] := by
      intro j hj hji hmem
      exact absurd (hleast ⟨hj, hmem⟩) (Nat.not_le.mpr hji)
    by_cases hroom : i < min (start + settings.tagBlockMaxLines.val) lines.length
    · have hends := TagBlock.height_of_first settings hstart hi hroom hclose hfirst
      omega
    · have hends := TagBlock.height_of_none settings hstart fun j hj hjc => hfirst j hj (by omega)
      omega
  · intro hnone
    have hends := TagBlock.height_of_none settings hstart fun j hj _ => hnone j hj
    omega
  · rw [hlast]
    exact TagBlock.text_read settings

/-- A link that is wrapped over three lines, of which the second is absent. -/
theorem wrapped_link_block_ends_at_close :
    let ls := [some "<a".toList, none, some " href='/x'>".toList, some "</a>".toList]
    let lines := Text.presentLines ls
    0 < ls.length ∧ IsLeast {j | 0 ≤ j ∧ '>' ∈ lines.getD j []} 2 ∧
      blockAt? {} lines 0 = some (TagBlock.read {} lines 0, 2) ∧
      (TagBlock.read {} lines 0).text = "<a\n\n href='/x'>".toList := by
  intro ls lines
  have hstart : 0 < ls.length := by decide
  have hleast : IsLeast {j | 0 ≤ j ∧ '>' ∈ lines.getD j []} 2 := by
    refine ⟨⟨Nat.zero_le _, by decide⟩, ?_⟩
    rintro (_ | _ | j) ⟨-, hclose⟩
    · exact absurd hclose (by decide)
    · exact absurd hclose (by decide)
    · omega
  obtain ⟨last, hblock, -, hfirst, -, htext⟩ := block_ends_at_first_close {} ls hstart
  obtain rfl : last = 2 := hfirst 2 hleast
  exact ⟨hstart, hleast, hblock, htext⟩

end LiveEdit.Markup
