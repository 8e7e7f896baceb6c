/-
  LiveEdit.Proofs.Edit.WholeTag — whether the block of a candidate holds the whole tag that starts on its line.

  The block ends with the first line that holds a `>`, the tag with the first one outside of quotes and braces. So a
  tag that is closed in the lines that a block may have is cut off just when a `>` stands on a line above the one on
  which the tag is closed (`locate_holds_tag_iff`).
-/

import LiveEdit.Proofs.Edit.Gate
import LiveEdit.Proofs.StyleEdit.OneStyle

namespace LiveEdit

open Markup

/-! ## The lines of a block -/

namespace Markup

/-- What begins with the lines above a line and ends in it is in the block just when the block reaches that line. -/
theorem above_isPrefix_unlines_iff {lines before after : List Text} {line last : Text} {c : Char}
    (hlines : lines <+: before ++ line :: after) (hlast : last ++ [c] <+: line) :
    Text.above before ++ (last ++ [c]) <+: Text.unlines lines ↔ before.length < lines.length := by
  constructor
  · intro h
    by_contra hle
    obtain ⟨more, hmore⟩ : lines <+: before :=
      List.prefix_of_prefix_length_le hlines (List.prefix_append before _) (Nat.le_of_not_lt hle)
    have hlength := h.length_le
    have hunlines := Text.length_unlines_le lines
    rw [← hmore, Text.above_append] at hlength
    simp only [List.length_append, List.length_singleton] at hlength
    omega
  · intro hlt
    have hreach : before ++ [line] <+: lines := by
      refine List.prefix_of_prefix_length_le ⟨after, by simp⟩ hlines ?_
      rwa [List.length_append, List.length_singleton]
    obtain ⟨more, rfl⟩ := hreach
    obtain ⟨rest, rfl⟩ := hlast
    rw [Text.unlines_around (List.cons_ne_nil _ [])]
    exact ⟨rest ++ Text.below more, by simp [Text.unlines, Text.joinWith]⟩

end Markup

/-! ## The tag -/

namespace Candidate

/-- The tag of the element that starts at offset `o` of line `index`, read in the lines that a block may have. -/
def wholeTagAt (settings : Settings) (lines : List Text) (element : Element) (index o : Nat) : OpeningTag :=
  OpeningTag.ofOffset (Text.lower element.tagName).length
    (Text.unlines ((lines.drop index).take settings.tagBlockMaxLines.val)) o

/-- A tag that is closed in the lines that a block may have is closed on one of them, and the block holds it just when
no line above that one holds a `>`. -/
theorem holds_closed_iff {room : Nat} {lines : List Text} {tag : OpeningTag}
    (hwhole : tag.whole = Text.unlines (lines.take room)) (hclosed : StyleEdit.Closed tag) :
    ∃ before line after last, lines = before ++ line :: after ∧ before.length < room ∧
      tag.before ++ tag.head = Text.above before ++ (last ++ ['>']) ∧ last ++ ['>'] <+: line ∧
      (tag.before ++ tag.head <+: Text.unlines (blockLines room lines) ↔ ∀ l ∈ before, '>' ∉ l) := by
  obtain ⟨f, hbody, -⟩ := hclosed
  have hend : tag.before ++ tag.head = (tag.before ++ tag.name ++ f) ++ ['>'] := by
    rw [OpeningTag.head, hbody]
    simp
  have hprefix : (tag.before ++ tag.name ++ f) ++ ['>'] <+: Text.unlines (lines.take room) := by
    rw [← hend, ← hwhole]
    exact ⟨tag.after, rfl⟩
  obtain ⟨before, line, after, last, hlines, hbefore, hlast⟩ := Text.exists_line_of_isPrefix (by decide) hprefix
  have hroom : before.length < room := by
    have hlength := congrArg List.length hlines
    simp at hlength
    omega
  have hsplit : lines = before ++ line :: (after ++ lines.drop room) := by
    rw [← List.cons_append, ← List.append_assoc, ← hlines, List.take_append_drop]
  have htag : tag.before ++ tag.head = Text.above before ++ (last ++ ['>']) := by
    rw [hend, hbefore, List.append_assoc]
  refine ⟨before, line, _, last, hsplit, hroom, htag, hlast, ?_⟩
  have hblock : blockLines room lines <+: before ++ line :: (after ++ lines.drop room) :=
    hsplit ▸ blockLines_isPrefix room lines
  rw [htag, above_isPrefix_unlines_iff hblock hlast]
  conv_lhs => rw [hsplit]
  exact lt_length_blockLines_iff hroom (List.cons_ne_nil _ _)

/-- An opening tag of the element starts on the line of a candidate. Each one that does and is closed in the lines that
a block may have is closed on one of them, and the candidate holds it just when no line above that one holds a `>`. -/
theorem locate_holds_tag_iff (settings : Settings) (ls : List (Option Text)) (v : Value) (element : Element)
    {c : Candidate}
    (hc : locate settings (Text.presentLines ls) (Line.clamp ls.length v) element = .ok (some c)) :
    (∃ o, StartsTag (Text.lower element.tagName) (((Text.presentLines ls).getD c.start []).drop o)) ∧
    ∀ o tag, StartsTag (Text.lower element.tagName) (((Text.presentLines ls).getD c.start []).drop o) →
      tag = wholeTagAt settings (Text.presentLines ls) element c.start o → StyleEdit.Closed tag →
      ∃ before line after last, (Text.presentLines ls).drop c.start = before ++ line :: after ∧
        before.length < settings.tagBlockMaxLines.val ∧
        tag.before ++ tag.head = Text.above before ++ (last ++ ['>']) ∧ last ++ ['>'] <+: line ∧
        (tag.before ++ tag.head <+: c.block.text ↔ ∀ l ∈ before, '>' ∉ l) := by
  obtain ⟨n, index, -, -, hstrong, rfl⟩ := locate_eq_some hc
  refine ⟨?_, ?_⟩
  · obtain ⟨front, back, hline, hstarts⟩ := (hasTagStart_iff _ _).mp hstrong.starts
    refine ⟨front.length, ?_⟩
    show StartsTag _ (((Text.presentLines ls).getD index []).drop front.length)
    rwa [hline, List.drop_left]
  · rintro o tag - rfl hclosed
    exact holds_closed_iff (OpeningTag.whole_ofOffset _ _ o) hclosed

/-- A link that is wrapped over two lines, the first without a `>`. -/
theorem wrapped_link_is_whole :
    let ls := [some "<a class={c}".toList, some " href='/x'>".toList]
    let link : Element := { tagName := "a".toList, attributes := [("href".toList, "/x".toList)] }
    let tag := wholeTagAt {} (Text.presentLines ls) link 0 0
    ∃ c, locate {} (Text.presentLines ls) (Line.clamp ls.length (.int 1)) link = .ok (some c) ∧ c.start = 0 ∧
      StartsTag (Text.lower link.tagName) ((Text.presentLines ls).getD 0 []) ∧ StyleEdit.Closed tag ∧
      tag.head <+: c.block.text := by
  intro ls link tag
  let c := atLine {} (Text.presentLines ls) (Evidence.rank {} link.attributes) 0
  have hc : locate {} (Text.presentLines ls) (Line.clamp ls.length (.int 1)) link = .ok (some c) := by rfl
  have hstarts : StartsTag (Text.lower link.tagName) ((Text.presentLines ls).getD 0 []) :=
    ⟨" class={c}".toList, by rfl, by rfl⟩
  have hclosed : StyleEdit.Closed tag := ⟨" class={c}
 href='/x'".toList, by rfl, by rfl⟩
  obtain ⟨before, line, after, last, hlines, -, htag, hlast, hiff⟩ :=
    (locate_holds_tag_iff {} ls (.int 1) link hc).2 0 tag hstarts rfl hclosed
  refine ⟨c, hc, rfl, hstarts, hclosed, hiff.mpr fun l hl => ?_⟩
  cases before with
  | nil => cases hl
  | cons b before =>
    obtain ⟨rfl, hrest⟩ := List.cons.inj hlines
    cases before with
    | nil =>
      cases List.mem_singleton.mp hl
      decide
    | cons b before =>
      cases before <;> cases hrest

/-- The arrow of a handler ends the block, and the tag goes on for another line. -/
theorem link_cut_off_at_arrow :
    let ls := [some "<a href='/x' onClick={() => f()}".toList, some " target='b'>".toList]
    let link : Element := { tagName := "a".toList, attributes := [("href".toList, "/x".toList)] }
    let tag := wholeTagAt {} (Text.presentLines ls) link 0 0
    ∃ c, locate {} (Text.presentLines ls) (Line.clamp ls.length (.int 1)) link = .ok (some c) ∧ c.start = 0 ∧
      StartsTag (Text.lower link.tagName) ((Text.presentLines ls).getD 0 []) ∧ StyleEdit.Closed tag ∧
      ¬ tag.head <:+: c.block.text := by
  intro ls link tag
  refine ⟨atLine {} (Text.presentLines ls) (Evidence.rank {} link.attributes) 0, by rfl, rfl,
    ⟨" href='/x' onClick={() => f()}".toList, by rfl, by rfl⟩,
    ⟨" href='/x' onClick={() => f()}
 target='b'".toList, by rfl, by rfl⟩, fun h => ?_⟩
  exact absurd h.length_le (by decide)

end Candidate

end LiveEdit
