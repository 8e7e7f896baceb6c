/-
  LiveEdit.Proofs.Edit.SecondReading — the edited tag when the edited document is read again.

  An edit may bring in a `>`, so the block and the tag may end earlier when they are read again. What stands in front
  of the edit is read as before, and so is what is written up to the first line feed (`covered`). If the name of the
  tag and the delimiter behind it are still there, the tag that is found is the one that was edited (`same_tag`), and
  it holds all that the scanner does not take for its end (`held_by_head`).
-/

import LiveEdit.Proofs.Edit.Confinement

namespace LiveEdit

open Markup

/-! ## The start of a tag -/

namespace Text

/-- Characters that begin a text are found whatever follows them. -/
theorem afterStartIgnoringCase?_split {pattern t rest : Text} (h : afterStartIgnoringCase? pattern t = some rest) :
    ∃ start, start.length = pattern.length ∧ t = start ++ rest ∧
      ∀ other, afterStartIgnoringCase? pattern (start ++ other) = some other := by
  induction pattern generalizing t with
  | nil =>
    obtain rfl : t = rest := by simpa [afterStartIgnoringCase?] using h
    exact ⟨[], rfl, rfl, fun _ => rfl⟩
  | cons a pattern ih =>
    cases t with
    | nil => simp [afterStartIgnoringCase?] at h
    | cons b t =>
      simp only [afterStartIgnoringCase?, Option.ite_none_right_eq_some] at h
      obtain ⟨hab, hrest⟩ := h
      obtain ⟨start, hlength, rfl, hother⟩ := ih hrest
      refine ⟨b :: start, by rw [List.length_cons, List.length_cons, hlength], rfl, ?_⟩
      intro other
      rw [List.cons_append, afterStartIgnoringCase?, if_pos hab, hother]

end Text

namespace Markup

/-- A tag starts with its name, and it does so in front of any delimiter. -/
theorem StartsTag.split {name t : Text} (h : StartsTag name t) :
    ∃ start rest, start.length = name.length + 1 ∧ t = start ++ rest ∧
      ∀ other, delimited other = true → StartsTag name (start ++ other) := by
  obtain ⟨rest, hrest, -⟩ := h
  obtain ⟨start, hlength, rfl, hother⟩ := Text.afterStartIgnoringCase?_split hrest
  exact ⟨start, rest, hlength, rfl, fun other hd => ⟨other, hother other, hd⟩⟩

/-- Something is so at one place if a trial of all the places where it can be finds one. -/
theorem existsUnique_of_filter {P : Nat → Prop} {holds : Nat → Bool} {n o : Nat} (hholds : ∀ p, holds p = true ↔ P p)
    (hlt : ∀ p, P p → p < n) (h : (List.range n).filter holds = [o]) : ∃! p, P p := by
  have hmem : ∀ p, p ∈ [o] ↔ P p := by
    intro p
    rw [← h, List.mem_filter, List.mem_range, hholds]
    exact ⟨And.right, fun hp => ⟨hlt p hp, hp⟩⟩
  exact ⟨o, (hmem o).mp (List.mem_singleton_self o), fun p hp => List.mem_singleton.mp ((hmem p).mpr hp)⟩

theorem starts_once_of_filter {name t : Text} {o : Nat}
    (h : (List.range t.length).filter (fun o => (tagStart? name (t.drop o)).isSome) = [o]) :
    ∃! o, StartsTag name (t.drop o) := by
  refine existsUnique_of_filter (fun p => tagStart?_isSome_iff name (t.drop p)) (fun p hp => ?_) h
  obtain ⟨start, rest, hlength, hsplit, -⟩ := hp.split
  have hdrop := congrArg List.length hsplit
  rw [List.length_drop, List.length_append] at hdrop
  omega

end Markup

namespace Candidate

variable {settings : Settings} {element : Element} {c : Candidate} {tag : OpeningTag}

/-- The chosen tag is the one that starts behind what stands before it in the block. -/
theorem starts_of_openingTag? (h : c.openingTag? settings element = some tag) :
    StartsTag (Text.strip element.tagName) (c.block.text.drop tag.before.length) ∧
      tag = OpeningTag.ofOffset (Text.strip element.tagName).length c.block.text tag.before.length ∧
      tag.name.length = (Text.strip element.tagName).length + 1 ∧
      ∀ other, delimited other = true → StartsTag (Text.strip element.tagName) (tag.name ++ other) := by
  obtain ⟨o, ho, htag⟩ := mem_openingTags h
  obtain ⟨hlt, hstart⟩ := Text.mem_matchOffsets ho
  have hbefore : tag.before.length = o := by
    rw [htag]
    show (c.block.text.take o).length = o
    rw [List.length_take]
    omega
  have hstarts := (tagStart?_isSome_iff _ _).mp hstart
  obtain ⟨start, rest, hlength, hsplit, hother⟩ := hstarts.split
  have hname : tag.name = start := by
    rw [htag]
    show (c.block.text.drop o).take _ = start
    rw [hsplit, ← hlength, List.take_left]
  rw [hbefore, hname]
  exact ⟨hstarts, htag, hlength, hother⟩

end Candidate

/-! ## The block -/

namespace Markup

/-- A line with a `>`, or one that takes the last room, is all of the block. -/
theorem unlines_blockLines_last {room : Nat} {line : Text} (h : '>' ∈ line ∨ room = 0) (lines : List Text) :
    Text.unlines (blockLines (room + 1) (line :: lines)) = line := by
  rw [blockLines]
  split
  · rfl
  · rename_i hclose
    rcases h with h | rfl
    · exact absurd (List.contains_iff_mem.mpr h) hclose
    · rfl

theorem unlines_blockLines_cons {room : Nat} {line : Text} (hclose : '>' ∉ line) (hroom : 0 < room)
    {lines : List Text} (hlines : lines ≠ []) :
    Text.unlines (blockLines (room + 1) (line :: lines)) =
      line ++ '\n' :: Text.unlines (blockLines room lines) := by
  obtain ⟨next, rest, hnext⟩ := List.exists_cons_of_ne_nil (blockLines_ne_nil hroom hlines)
  rw [blockLines, if_neg (by simpa using hclose), Text.unlines_cons, hnext, Text.below_cons, Text.unlines_cons]
  rfl

theorem isPrefix_unlines_blockLines {room : Nat} (hroom : 0 < room) (line : Text) (lines : List Text) :
    line <+: Text.unlines (blockLines room (line :: lines)) := by
  obtain ⟨room, rfl⟩ := Nat.exists_eq_succ_of_ne_zero (Nat.ne_of_gt hroom)
  rw [blockLines]
  split
  · exact List.prefix_rfl
  · rw [Text.unlines_cons]
    exact List.prefix_append _ _

/-- A text with which a block begins is in the block also when something else follows it, and with it what then
stands on the same line. -/
theorem isPrefix_blockLines {room : Nat} (hroom : 0 < room) {kept more rest : Text}
    (hkept : kept <+: Text.unlines (blockLines room (Text.lines (kept ++ rest)))) (hmore : '\n' ∉ more)
    (rest' : Text) :
    kept ++ more <+: Text.unlines (blockLines room (Text.lines (kept ++ more ++ rest'))) := by
  induction room generalizing kept with
  | zero => exact absurd hroom (Nat.lt_irrefl 0)
  | succ room ih =>
    by_cases hbreak : '\n' ∈ kept
    · obtain ⟨line, kept, rfl, hline⟩ := List.eq_append_cons_of_mem hbreak
      have hfirst : ∀ u t : Text, Text.lines (line ++ '\n' :: u ++ t) = line :: Text.lines (u ++ t) := by
        intro u t
        rw [List.append_assoc, List.cons_append, Text.lines_append_newline hline]
      rw [hfirst] at hkept
      -- The block goes on behind the first line, so the line does not close it.
      have hgoes : '>' ∉ line ∧ 0 < room := by
        by_contra hstop
        have hlast : '>' ∈ line ∨ room = 0 := by
          by_cases hclose : '>' ∈ line
          · exact .inl hclose
          · exact .inr (Nat.eq_zero_of_not_pos fun hpos => hstop ⟨hclose, hpos⟩)
        rw [unlines_blockLines_last hlast] at hkept
        have hlength := hkept.length_le
        rw [List.length_append, List.length_cons] at hlength
        omega
      obtain ⟨hclose, hpos⟩ := hgoes
      rw [unlines_blockLines_cons hclose hpos (Text.lines_ne_nil _), List.prefix_append_right_inj,
        List.cons_prefix_cons] at hkept
      have hsplit : line ++ '\n' :: kept ++ more = line ++ '\n' :: (kept ++ more) := by simp
      rw [hsplit, hfirst, unlines_blockLines_cons hclose hpos (Text.lines_ne_nil _), List.prefix_append_right_inj,
        List.cons_prefix_cons]
      exact ⟨rfl, ih hpos hkept.2⟩
    · have hnone : '\n' ∉ kept ++ more := by simp [hbreak, hmore]
      obtain ⟨first, others, -, hlines⟩ := Text.lines_append hnone rest'
      rw [hlines]
      exact (List.prefix_append _ first).trans (isPrefix_unlines_blockLines hroom _ others)

end Markup

/-! ## The document and its block -/

namespace Candidate

variable {settings : Settings} {element : Element} {c : Candidate} {line : Except EditError Nat}

theorem text_of_locate {lines : List Text} (h : locate settings lines line element = .ok (some c)) :
    c.block.text = Text.unlines (blockLines settings.tagBlockMaxLines.val (lines.drop c.start)) := by
  obtain ⟨n, index, -, -, -, rfl⟩ := locate_eq_some h
  rfl

/-- From the line of the candidate on, the lines are those of the text that follows the lines above. -/
theorem drop_lines_above {content : Text} (h : locate settings (Text.lines content) line element = .ok (some c))
    (t : Text) : (Text.lines (Text.above ((Text.lines content).take c.start) ++ t)).drop c.start = Text.lines t := by
  obtain ⟨n, index, -, hw, -, rfl⟩ := locate_eq_some h
  have hlt : index < (Text.lines content).length := Nat.lt_of_lt_of_le hw.2 (Nat.min_le_left _ _)
  have hlength : ((Text.lines content).take index).length = index := by
    rw [List.length_take]
    omega
  show (Text.lines (Text.above ((Text.lines content).take index) ++ t)).drop index = Text.lines t
  rw [Text.lines_above_append fun l hl => Text.not_mem_of_mem_lines (List.mem_of_mem_take hl)]
  exact List.drop_left' hlength

end Candidate

/-! ## The scanner -/

namespace StyleEdit

theorem isPrefix_take_tagLength {s : Scan} {u t : Text} (hu : u <+: t) (hopen : staysOpen s u = true) :
    u <+: t.take (Scan.tagLength s t) := by
  induction u generalizing s t with
  | nil => exact List.nil_prefix
  | cons c u ih =>
    obtain ⟨rest, rfl⟩ := hu
    simp only [staysOpen, Bool.and_eq_true, Bool.not_eq_true'] at hopen
    rw [List.cons_append, Scan.tagLength, if_neg (by simp [hopen.1]), List.take_succ_cons, List.cons_prefix_cons]
    exact ⟨rfl, ih (List.prefix_append u rest) hopen.2⟩

theorem staysOpen_append (s : Scan) (t u : Text) :
    staysOpen s (t ++ u) = (staysOpen s t && staysOpen (s.after t) u) := by
  induction t generalizing s with
  | nil => rfl
  | cons c t ih =>
    rw [List.cons_append, staysOpen, staysOpen, ih, Bool.and_assoc]
    rfl

/-- What is read within quotes or braces closes no tag. -/
theorem staysOpen_of_staysInside {s : Scan} {t : Text} (h : staysInside s t = true) : staysOpen s t = true := by
  induction t generalizing s with
  | nil => rfl
  | cons c t ih =>
    simp only [staysInside, Bool.and_eq_true, Bool.not_eq_true'] at h
    simp [staysOpen, Scan.closes, h.1, ih h.2]

/-- Without a `>` nothing closes a tag. -/
theorem staysOpen_of_not_mem {t : Text} (h : '>' ∉ t) (s : Scan) : staysOpen s t = true := by
  induction t generalizing s with
  | nil => rfl
  | cons c t ih =>
    obtain ⟨hc, ht⟩ := not_or.mp (mt List.mem_cons.mpr h)
    simp [staysOpen, Scan.closes, Ne.symm hc, ih ht]

end StyleEdit

/-! ## The tag when it is read again -/

namespace TagEdit

/-- A candidate is found in a document, and one that begins on the same line in the edited document, in whose block
the element's tag starts once. -/
structure ReadTwice (settings : Settings) (element : Element) (content r : Text) (line line' : Except EditError Nat)
    (c c' : Candidate) : Prop where
  first : Candidate.locate settings (Text.lines content) line element = .ok (some c)
  second : Candidate.locate settings (Text.lines r) line' element = .ok (some c')
  sameLine : c'.start = c.start
  once : ∃! o, StartsTag (Text.strip element.tagName) (c'.block.text.drop o)

namespace ReadTwice

variable {settings : Settings} {element : Element} {content r t : Text} {line line' : Except EditError Nat}
  {c c' : Candidate} {tag tag' : OpeningTag}

theorem text_first (h : ReadTwice settings element content r line line' c c')
    (ht : c.openingTag? settings element = some tag) :
    c.block.text = Text.unlines (blockLines settings.tagBlockMaxLines.val
      (Text.lines (tag.before ++ (tag.head ++ back content c tag)))) := by
  have hcontent := tag_in_document h.first ht
  have hdrop := Candidate.drop_lines_above h.first (tag.before ++ (tag.head ++ back content c tag))
  simp only [front, List.append_assoc] at hcontent
  rw [hcontent] at hdrop
  rw [Candidate.text_of_locate h.first, hdrop]

/-- The second block begins where the first one does, with the edited tag in it. -/
theorem text_second (h : ReadTwice settings element content r line line' c c')
    (hr : r = front content c tag ++ t ++ back content c tag) :
    c'.block.text = Text.unlines (blockLines settings.tagBlockMaxLines.val
      (Text.lines (tag.before ++ (t ++ back content c tag)))) := by
  simp only [front, List.append_assoc] at hr
  rw [Candidate.text_of_locate h.second, h.sameLine, hr, Candidate.drop_lines_above h.first]

theorem text_second_isPrefix (h : ReadTwice settings element content r line line' c c')
    (hr : r = front content c tag ++ t ++ back content c tag) :
    c'.block.text <+: tag.before ++ (t ++ back content c tag) := by
  rw [h.text_second hr]
  conv_rhs => rw [← Text.unlines_lines (tag.before ++ (t ++ back content c tag))]
  exact Text.unlines_isPrefix (blockLines_isPrefix _ _)

/-- The second block holds the beginning of the tag that is kept, and what now follows it on its line. -/
theorem covered (h : ReadTwice settings element content r line line' c c')
    (ht : c.openingTag? settings element = some tag) (hr : r = front content c tag ++ t ++ back content c tag)
    {kept more : Text} (hkept : kept <+: tag.head) (hmore : '\n' ∉ more) (hwritten : kept ++ more <+: t) :
    tag.before ++ (kept ++ more) <+: c'.block.text := by
  obtain ⟨rest, hrest⟩ := hkept
  obtain ⟨rest', hrest'⟩ := hwritten
  have hfirst : tag.before ++ kept <+: Text.unlines (blockLines settings.tagBlockMaxLines.val
      (Text.lines (tag.before ++ kept ++ (rest ++ back content c tag)))) := by
    have hsplit : tag.before ++ (tag.head ++ back content c tag) =
        tag.before ++ kept ++ (rest ++ back content c tag) := by
      rw [← hrest]
      simp
    rw [← hsplit, ← h.text_first ht, ← Candidate.whole_of_openingTag? ht, OpeningTag.whole, ← hrest]
    exact ⟨rest ++ tag.after, by simp⟩
  have hsecond := isPrefix_blockLines settings.tagBlockMaxLines.property hfirst hmore (rest' ++ back content c tag)
  have hsplit : tag.before ++ (t ++ back content c tag) =
      tag.before ++ kept ++ more ++ (rest' ++ back content c tag) := by
    rw [← hrest']
    simp
  rw [h.text_second hr, hsplit, ← List.append_assoc]
  exact hsecond

/-- If the name of the tag is still there with a delimiter behind it, the tag that is chosen begins where the edited
one does. -/
theorem same_tag (h : ReadTwice settings element content r line line' c c')
    (ht : c.openingTag? settings element = some tag) (ht' : c'.openingTag? settings element = some tag') {d : Char}
    (hd : delimited [d] = true) (hname : tag.before ++ (tag.name ++ [d]) <+: c'.block.text) :
    tag'.before = tag.before := by
  obtain ⟨rest, hrest⟩ := hname
  have hstarts : StartsTag (Text.strip element.tagName) (c'.block.text.drop tag.before.length) := by
    rw [← hrest, List.append_assoc, List.append_assoc, List.drop_left]
    exact (Candidate.starts_of_openingTag? ht).2.2.2 _ hd
  have hlength := h.once.unique (Candidate.starts_of_openingTag? ht').1 hstarts
  have hbefore : tag'.before <+: c'.block.text := by
    rw [← Candidate.whole_of_openingTag? ht', OpeningTag.whole, List.append_assoc]
    exact List.prefix_append _ _
  rw [List.prefix_iff_eq_take.mp hbefore, hlength, ← hrest, List.append_assoc, List.take_left]

/-- So it is if the edited tag and the text in its place have a common beginning that goes on behind the name. -/
theorem same_tag_of_kept (h : ReadTwice settings element content r line line' c c')
    (ht : c.openingTag? settings element = some tag) (hr : r = front content c tag ++ t ++ back content c tag)
    (ht' : c'.openingTag? settings element = some tag') {more : Text} (hne : more ≠ [])
    (hkept : tag.name ++ more <+: tag.head) (hwritten : tag.name ++ more <+: t) : tag'.before = tag.before := by
  obtain ⟨d, more, rfl⟩ := List.exists_cons_of_ne_nil hne
  have hd : delimited [d] = true := by
    obtain ⟨rest, hrest⟩ := (List.prefix_append_right_inj tag.name).mp hkept
    have hdelimited := Candidate.delimited_of_openingTag? ht
    rw [← hrest] at hdelimited
    exact hdelimited
  have hcovered := h.covered ht hr hkept (List.not_mem_nil : '\n' ∉ []) (by rwa [List.append_nil])
  refine h.same_tag ht ht' hd (List.IsPrefix.trans ?_ hcovered)
  exact ⟨more, by simp⟩

/-- The tag that begins there ends within the text that now stands in its place and what follows it. -/
theorem head_isPrefix (h : ReadTwice settings element content r line line' c c')
    (hr : r = front content c tag ++ t ++ back content c tag)
    (ht' : c'.openingTag? settings element = some tag') (hsame : tag'.before = tag.before) :
    tag'.head <+: t ++ back content c tag := by
  have htext := h.text_second_isPrefix hr
  rw [← Candidate.whole_of_openingTag? ht', OpeningTag.whole, hsame, List.append_assoc,
    List.prefix_append_right_inj] at htext
  exact (List.prefix_append _ _).trans htext

/-- The scanner does not come to the end of a tag in a part of it that others follow. -/
theorem staysOpen_drop (ht : c.openingTag? settings element = some tag) {kept rest : Text}
    (hhead : tag.head = kept ++ rest) (hrest : rest ≠ []) :
    StyleEdit.staysOpen {} (kept.drop tag.name.length) = true := by
  by_cases hlt : tag.name.length < kept.length
  · have hbody := congrArg (List.drop tag.name.length) hhead
    rw [OpeningTag.head, List.drop_left, List.drop_append_of_le_length (Nat.le_of_lt hlt)] at hbody
    exact StyleEdit.staysOpen_of_openingTag? ht _ _ hbody hrest
  · rw [List.drop_eq_nil_of_le (Nat.le_of_not_lt hlt)]
    rfl

/-- It holds what the scanner reads without coming to its end. -/
theorem held_by_head (ht : c.openingTag? settings element = some tag)
    (ht' : c'.openingTag? settings element = some tag') (hsame : tag'.before = tag.before) {u : Text}
    (hu : tag.before ++ u <+: c'.block.text) (hopen : StyleEdit.staysOpen {} (u.drop tag.name.length) = true) :
    u <+: tag'.head := by
  obtain ⟨-, htag', hlength', -⟩ := Candidate.starts_of_openingTag? ht'
  obtain ⟨-, -, hlength, -⟩ := Candidate.starts_of_openingTag? ht
  rw [← Candidate.whole_of_openingTag? ht', OpeningTag.whole, hsame, List.append_assoc,
    List.prefix_append_right_inj, OpeningTag.head, List.append_assoc] at hu
  rcases List.prefix_or_prefix_of_prefix hu (List.prefix_append tag'.name _) with hname | ⟨v, rfl⟩
  · exact hname.trans (List.prefix_append _ _)
  · rw [hlength, ← hlength', List.drop_left] at hopen
    rw [List.prefix_append_right_inj] at hu
    have hbody : tag'.body = (tag'.body ++ tag'.after).take (Scan.tagLength {} (tag'.body ++ tag'.after)) := by
      rw [htag']
      simp only [OpeningTag.ofOffset, List.take_append_drop]
    rw [OpeningTag.head, List.prefix_append_right_inj, hbody]
    exact StyleEdit.isPrefix_take_tagLength hu hopen

/-- What is not changed is found again. -/
theorem eq_of_same (h : ReadTwice settings element content content line line' c c') : c' = c := by
  obtain ⟨n, index, -, -, -, hc⟩ := Candidate.locate_eq_some h.first
  obtain ⟨n', index', -, -, -, hc'⟩ := Candidate.locate_eq_some h.second
  have hindex : index' = index := by
    have hstart := h.sameLine
    rwa [hc, hc'] at hstart
  rw [hc, hc', hindex]

theorem tag_of_same (h : ReadTwice settings element content content line line' c c')
    (ht : c.openingTag? settings element = some tag) (ht' : c'.openingTag? settings element = some tag') :
    tag' = tag := by
  rw [h.eq_of_same, ht, Option.some.injEq] at ht'
  exact ht'.symm

/-- The first edit is made in the tag that is chosen in the first candidate. -/
theorem edit_of_apply (h : ReadTwice settings element content r line line' c c')
    (ht : c.openingTag? settings element = some tag) {edit : OpeningTag → Option TagEdit}
    (hedit : apply settings content line element edit = .ok (some r)) :
    ∃ result, edit tag = some result ∧ document content c tag result = r := by
  obtain ⟨c₁, tag₁, result, hc₁, ht₁, he, hr⟩ := apply_eq_some_iff.mp hedit
  obtain rfl : c = c₁ := Option.some.inj (Except.ok.inj (h.first.symm.trans hc₁))
  obtain rfl : tag = tag₁ := Option.some.inj (ht.symm.trans ht₁)
  exact ⟨result, he, hr⟩

end ReadTwice

/-! ## The second edit -/

/-- The result of an edit of `r` is `r` itself, or the edit declines. -/
def LeavesAlone (r : Text) (result : Except EditError (Option Text)) : Prop :=
  result = .ok none ∨ result = .ok (some r)

/-- An edit leaves the document alone unless it puts another text in the place of a passage of the chosen tag. -/
theorem leavesAlone_iff {settings : Settings} {element : Element} {r : Text} {line : Except EditError Nat}
    {c : Candidate} {edit : OpeningTag → Option TagEdit}
    (hc : Candidate.locate settings (Text.lines r) line element = .ok (some c)) (hedit : Within edit) :
    LeavesAlone r (apply settings r line element edit) ↔
      ∀ tag place text, c.openingTag? settings element = some tag → edit tag = some (.replace place text) →
        text = place.inside := by
  constructor
  · intro h tag place text ht he
    have happly := apply_eq_some_iff.mpr ⟨c, tag, _, hc, ht, he, rfl⟩
    rcases h with h | h
    · rw [h] at happly
      cases happly
    · rw [h, document_replace] at happly
      have hr := tag_in_document hc ht
      rw [← hedit tag place text he] at hr
      have hsame := hr.trans (Option.some.inj (Except.ok.inj happly))
      simp only [Text.Passage.whole, Text.Passage.replace, List.append_cancel_right_eq,
        List.append_cancel_left_eq] at hsame
      exact hsame.symm
  · intro h
    cases happly : apply settings r line element edit with
    | error e =>
      unfold apply at happly
      rw [hc] at happly
      cases happly
    | ok result =>
      cases result with
      | none => exact .inl rfl
      | some r' =>
        obtain ⟨c', tag, result, hc', ht, he, rfl⟩ := apply_eq_some_iff.mp happly
        obtain rfl : c = c' := Option.some.inj (Except.ok.inj (hc.symm.trans hc'))
        cases result with
        | unchanged => exact .inr rfl
        | replace place text =>
          obtain rfl := h tag place text ht he
          refine .inr ?_
          rw [document_replace, show place.replace place.inside = place.whole from rfl, hedit tag place _ he,
            tag_in_document hc ht]

end TagEdit

end LiveEdit
