/-
  LiveEdit.Proofs.StyleEdit.Reapplied — a style edit that is made once more.

  What an edit writes begins with an object that is read as the entries meant or not at all, and they hold the new
  ones already (`Writes.ofTag?_again`). So the edit does nothing to a tag that it has written in. It can only write
  again in another tag; and it finds no other one unless it took the beginning of the tag's own name for a style
  (`restyle_leaves_alone_iff`).
-/

import LiveEdit.Proofs.Edit.SecondReading
import LiveEdit.Proofs.Style.Rereading
import LiveEdit.Proofs.StyleEdit.WrittenObject

namespace LiveEdit.StyleEdit

open Markup TagEdit Text.Passage

def BraceFree (t : Text) : Prop := ∀ c ∈ t, c ≠ '\x7b' ∧ c ≠ '\x7d'

instance (t : Text) : Decidable (BraceFree t) := List.decidableBAll _ t

/-- How the text of a written style begins. -/
def objectStart : Text := "style=\x7b\x7b".toList

/-! ## The object when it is read again -/

/-- Of an object without braces inside, the beginning is read as that object if it reaches the closing braces, and as
some expression otherwise. -/
theorem written?_objectStart {between v more : Text} (hfree : BraceFree between)
    (hv : v <+: between ++ '\x7d' :: more) {previous : Option Char} (hp : startsName previous = true) :
    ∃ w rest, written? previous (objectStart ++ v) = some (w, rest) ∧ (w = .object between ∨ w = .other) := by
  have hassign : afterAssignment? "style".toList (objectStart ++ v) = some ('\x7b' :: '\x7b' :: v) :=
    afterAssignment?_append (show ([] : Text).all Text.isBlank = true from rfl) "style".toList ('\x7b' :: '\x7b' :: v)
  rw [written?, if_pos hp, hassign]
  cases ho : object? ('\x7b' :: '\x7b' :: v) with
  | none => exact ⟨.other, _, by rw [Option.map_some, ho]; rfl, .inr rfl⟩
  | some found =>
    obtain ⟨body, rest⟩ := found
    obtain ⟨hbody, he⟩ := object?_eq_some ho
    obtain ⟨left, hleft⟩ := hv
    have hsplit : between ++ '\x7d' :: more = body ++ '\x7d' :: ('\x7d' :: rest ++ left) := by
      rw [← hleft]
      simp only [List.cons_append, List.append_assoc, List.cons.injEq, true_and] at he
      simp [he]
    -- Both texts end in front of the first closing brace.
    have hcut := Text.cut?_singleton_iff.mpr ⟨hsplit, fun hm => (hbody _ hm).2 rfl⟩
    rw [Text.cut?_singleton_iff.mpr ⟨rfl, fun hm => (hfree _ hm).2 rfl⟩] at hcut
    have hsame : between = body := by simpa using congrArg (Option.map Prod.fst) hcut
    exact ⟨.object body, rest, by rw [Option.map_some, ho], .inl (by rw [hsame])⟩

/-! ## The entries that are written -/

/-- Ordinary changes: properties of letters, digits, underscores and hyphens, and values without braces. -/
structure Ordinary (css : Assoc Text) : Prop where
  names : ∀ e ∈ css, e.1.all Style.isWordOrHyphen = true
  values : ∀ e ∈ css, BraceFree e.2

/-- The tag has no style, or a flat object for one. -/
def NoneOrFlat (tag : OpeningTag) : Prop :=
  ∀ place w, first? written? none tag.head = some (place, w) → ∃ body, w = .object body

theorem Ordinary.braceFree {css : Assoc Text} (h : Ordinary css) {e : Text × Text} (he : e ∈ Style.ofChanges css) :
    BraceFree e.1 ∧ BraceFree e.2 := by
  rcases Assoc.mem_putAll he with he | he
  · exact absurd he List.not_mem_nil
  obtain ⟨⟨property, value⟩, hchange, rfl⟩ := List.mem_map.mp he
  have hname : BraceFree property := by
    intro c hc
    have hword := List.all_eq_true.mp (h.names _ hchange) c hc
    constructor
    all_goals
      rintro rfl
      exact absurd hword (by decide)
  have hvalue := h.values _ hchange
  constructor
  · intro c hc
    constructor
    all_goals
      rintro rfl
      rw [Style.mem_key_iff (by decide) (by decide) (by decide) (by decide)] at hc
      have := hname _ hc
      simp at this
  · intro c hc
    constructor
    all_goals
      rintro rfl
      rw [Style.mem_literal_iff (by decide) (by decide) (by decide)] at hc
      have := hvalue _ hc
      simp at this

section

variable {css entries : Assoc Text} {tag : OpeningTag} {place : Text.Passage} {found : Option Written} {text : Text}

/-- Besides the new entries those of a flat object are written, and none others. -/
theorem Writes.mem_entries (h : Writes (Style.ofChanges css) tag place found entries text) (hflat : NoneOrFlat tag)
    {e : Text × Text} (he : e ∈ entries) :
    e ∈ Style.ofChanges css ∨ ∃ body old, BraceFree body ∧ Style.parse? body = some old ∧ e ∈ old := by
  cases h with
  | inserted _ => exact .inl he
  | merged hsome hold =>
    obtain ⟨body, rfl⟩ := hflat _ _ hsome
    obtain ⟨-, assign, value, -, hvalue, -⟩ := written?_eq_some (read_of_first? written?_leaves hsome)
    cases hvalue with
    | object hb => exact (Assoc.mem_putAll he).symm.imp_right fun he => ⟨body, _, hb, hold, he⟩

theorem Writes.braceFree (h : Writes (Style.ofChanges css) tag place found entries text) (hflat : NoneOrFlat tag)
    (hcss : Ordinary css) : BraceFree (Style.inside entries) := by
  intro c hc
  rcases Style.mem_inside hc with hc | ⟨e, he, hc⟩
  · exact (by decide : BraceFree " ,:".toList) c hc
  · have hfree : BraceFree e.1 ∧ BraceFree e.2 := by
      rcases h.mem_entries hflat he with he | ⟨body, old, hbody, hparse, he⟩
      · exact hcss.braceFree he
      · obtain ⟨hkey, hvalue⟩ := Style.subset_of_parse? hparse e he
        exact ⟨fun c hc => hbody c (hkey hc), fun c hc => hbody c (hvalue hc)⟩
    exact hc.elim (hfree.1 c) (hfree.2 c)

/-- Read again, the entries are the same, if they are read at all. -/
theorem Writes.read_again (h : Writes (Style.ofChanges css) tag place found entries text) (hflat : NoneOrFlat tag)
    (hcss : Ordinary css) :
    Style.parse? (Style.inside entries) = none ∨ Style.parse? (Style.inside entries) = some entries := by
  refine Style.parse?_inside_eq h.keyedBy.apart h.keyedBy.values ?_
  intro key hkey
  obtain ⟨e, he, rfl⟩ := List.mem_map.mp hkey
  rcases h.mem_entries hflat he with he | ⟨body, old, -, hparse, he⟩
  · rcases Assoc.mem_putAll he with he | he
    · exact absurd he List.not_mem_nil
    · obtain ⟨change, hchange, rfl⟩ := List.mem_map.mp he
      exact Style.isKey_or_word_key (hcss.names _ hchange)
  · exact .inl ((Style.isEntry_of_parse? hparse).2 e he).key

/-- The entries hold the new ones already. -/
theorem Writes.putAll_again (h : Writes (Style.ofChanges css) tag place found entries text) :
    entries.putAll (Style.ofChanges css) = entries := by
  have hnew := Style.nodup_keys_ofChanges css
  cases h with
  | inserted _ => exact Assoc.putAll_of_forall_mem hnew fun _ he => he
  | merged _ hold => exact Assoc.putAll_putAll (keyedBy_of_entriesOf? hold).apart hnew

/-! ## The place -/

/-- What stands in the tag before the text that is written, with the blank that sets an inserted style off. -/
def lead (place : Text.Passage) (found : Option Written) : Text :=
  place.before ++ if found.isNone then [' '] else []

theorem Writes.replace_eq (h : Writes (Style.ofChanges css) tag place found entries text) :
    place.replace text = lead place found ++ (objectStart ++ (Style.inside entries ++ "\x7d\x7d".toList) ++ place.after) := by
  have hprint : assignment entries = objectStart ++ (Style.inside entries ++ "\x7d\x7d".toList) :=
    (assignment_eq entries).trans (List.append_assoc _ _ _)
  rw [h.assigns, hprint, Text.Passage.replace, lead]
  split
  · simp
  · simp

theorem Writes.startsName_lead (h : Writes (Style.ofChanges css) tag place found entries text) :
    startsName (lastOr none (lead place found)) = true := by
  cases h with
  | inserted _ =>
    rw [lead, lastOr_append]
    rfl
  | merged hsome _ =>
    obtain ⟨hp, -⟩ := assigns_of_replaced hsome
    simpa [lead] using hp

/-- Nothing in front of the text that is written looks like a style. -/
theorem Writes.nothing_in_front (h : Writes (Style.ofChanges css) tag place found entries text) {f g : Text} {d : Char}
    (hlead : lead place found = f ++ d :: g) (hf : startsName (lastOr none f) = true) : assignsStyle (d :: g) = false := by
  cases h with
  | inserted hnone =>
    have hname : tag.name ++ [' '] = f ++ d :: g := hlead
    rcases List.eq_nil_or_concat g with rfl | ⟨g, e, rfl⟩
    · obtain ⟨-, hd⟩ := List.append_inj' hname rfl
      obtain rfl : ' ' = d := (List.cons.inj hd).1
      exact assignsStyle_cons_eq_false (by decide) []
    · rw [List.concat_eq_append, ← List.cons_append, ← List.append_assoc] at hname
      obtain ⟨hfront, he⟩ := List.append_inj' hname rfl
      obtain rfl : ' ' = e := (List.cons.inj he).1
      have hread := first?_eq_none_iff.mp hnone f d (g ++ tag.body) (by rw [OpeningTag.head, hfront]; simp)
      have hnot := written?_eq_none_iff.mp hread hf
      rw [Bool.eq_false_iff, ne_eq, assignsStyle, afterAssignment?_isSome_iff] at hnot ⊢
      rintro ⟨gap, hgap, hprefix⟩
      -- The sign is not the blank, so it stands in the name already.
      rw [List.concat_eq_append, ← List.cons_append, List.prefix_concat_iff] at hprefix
      rcases hprefix with hall | hprefix
      · obtain ⟨-, hsign⟩ := List.append_inj' hall rfl
        exact absurd hsign (by decide)
      · exact hnot ⟨gap, hgap, hprefix.trans (List.prefix_append (d :: g) tag.body)⟩
  | merged hsome _ =>
    obtain ⟨-, t, ht⟩ := assigns_of_replaced hsome
    have hbefore : place.before = f ++ d :: g := by simpa [lead] using hlead
    have hsplit : tag.head = f ++ (d :: g ++ 's' :: (t ++ place.after)) := by
      rw [← whole_first? written?_leaves hsome, Text.Passage.whole, hbefore, ht]
      simp
    have hread := read_eq_none_of_first? hsome hsplit (by rw [hbefore]; simp)
    rw [← assignsStyle_append (d := 's') (by decide) d g (t ++ place.after)]
    exact written?_eq_none_iff.mp hread hf

/-! ## The edit when it is made again -/

/-- An edit does nothing to a tag that begins with what it has written in one. -/
theorem Writes.ofTag?_again (h : Writes (Style.ofChanges css) tag place found entries text) (hflat : NoneOrFlat tag)
    (hcss : Ordinary css) {tag' : OpeningTag} {back : Text} (hlead : lead place found ++ objectStart <+: tag'.head)
    (hhead : tag'.head <+: place.replace text ++ back) :
    ofTag? (Style.ofChanges css) tag' = none ∨ ofTag? (Style.ofChanges css) tag' = some .unchanged := by
  obtain ⟨v, hv⟩ := hlead
  have hrest : v <+: Style.inside entries ++ '\x7d' :: ('\x7d' :: place.after ++ back) := by
    rw [← hv, h.replace_eq] at hhead
    simpa [List.append_assoc, List.prefix_append_right_inj] using hhead
  obtain ⟨w, rest, hread, hw⟩ := written?_objectStart (h.braceFree hflat hcss) hrest h.startsName_lead
  have hstart : objectStart ++ v = 's' :: ("tyle=\x7b\x7b".toList ++ v) := rfl
  rw [hstart] at hread
  have hfirst := first?_of_read hread fun f d g hsplit =>
    written?_eq_none_iff.mpr fun hf => by
      rw [assignsStyle_append (by decide) d g]
      exact h.nothing_in_front hsplit hf
  have hhead' : tag'.head = lead place found ++ 's' :: ("tyle=\x7b\x7b".toList ++ v) := by
    rw [← hv, List.append_assoc, hstart]
  rw [ofTag?, hhead', hfirst]
  rcases hw with rfl | rfl
  · simp only
    rcases h.read_again hflat hcss with hnone | hsome
    · exact .inl (by rw [hnone]; rfl)
    · exact .inr (by rw [hsome, Option.map_some, h.putAll_again, if_pos rfl])
  · exact .inl rfl

variable {settings : Settings} {element : Element} {content r : Text} {line line' : Except EditError Nat}
  {c c' : Candidate} {tag' : OpeningTag}

/-- The block in which the edited document is read again holds the beginning of what was written. -/
theorem Writes.covered (h : Writes (Style.ofChanges css) tag place found entries text)
    (hread : ReadTwice settings element content r line line' c c') (ht : c.openingTag? settings element = some tag)
    (hr : r = front content c tag ++ place.replace text ++ back content c tag) :
    tag.before ++ (lead place found ++ objectStart) <+: c'.block.text := by
  have hkept : place.before <+: tag.head := by
    rw [← h.whole, Text.Passage.whole, List.append_assoc]
    exact List.prefix_append _ _
  have hmore : '\n' ∉ (if found.isNone then [' '] else []) ++ objectStart := by
    split <;> decide
  have hwritten : place.before ++ ((if found.isNone then [' '] else []) ++ objectStart) <+: place.replace text := by
    rw [h.replace_eq, lead, List.append_assoc, List.append_assoc]
    simp
  have hcovered := hread.covered ht hr hkept hmore hwritten
  rwa [← List.append_assoc place.before] at hcovered

/-- If the edited tag is found again, it holds this beginning. -/
theorem Writes.held (h : Writes (Style.ofChanges css) tag place found entries text)
    (hread : ReadTwice settings element content r line line' c c') (ht : c.openingTag? settings element = some tag)
    (hr : r = front content c tag ++ place.replace text ++ back content c tag)
    (ht' : c'.openingTag? settings element = some tag') (hsame : tag'.before = tag.before) :
    lead place found ++ objectStart <+: tag'.head := by
  refine ReadTwice.held_by_head ht ht' hsame (h.covered hread ht hr) ?_
  have hbefore : staysOpen {} (place.before.drop tag.name.length) = true := by
    cases h with
    | inserted _ =>
      rw [List.drop_length]
      rfl
    | merged hsome _ =>
      obtain ⟨-, t, hinside⟩ := assigns_of_replaced hsome
      refine ReadTwice.staysOpen_drop ht ?_ (by simp [hinside] : place.inside ++ place.after ≠ [])
      rw [← whole_first? written?_leaves hsome, Text.Passage.whole, List.append_assoc]
  rw [lead, List.append_assoc, List.drop_append, staysOpen_append, hbefore, Bool.true_and]
  refine staysOpen_of_not_mem (fun hm => ?_) _
  have hnone : '>' ∉ (if found.isNone then [' '] else []) ++ objectStart := by
    split <;> decide
  exact hnone (List.mem_of_mem_drop hm)

/-- It is found again if nothing of its name was taken for a style. -/
theorem Writes.same_tag (h : Writes (Style.ofChanges css) tag place found entries text)
    (hread : ReadTwice settings element content r line line' c c') (ht : c.openingTag? settings element = some tag)
    (hr : r = front content c tag ++ place.replace text ++ back content c tag)
    (ht' : c'.openingTag? settings element = some tag') (hname : tag.name <+: place.before) :
    tag'.before = tag.before := by
  cases h with
  | inserted hnone =>
    have hcovered := (Writes.inserted hnone).covered hread ht hr
    refine hread.same_tag ht ht' (d := ' ') rfl (List.IsPrefix.trans ?_ hcovered)
    exact ⟨objectStart, by simp [lead]⟩
  | merged hsome hold =>
    -- The tag keeps what stands in front of the style, and the first letter of it.
    obtain ⟨-, t, hinside⟩ := assigns_of_replaced hsome
    obtain ⟨more, hmore⟩ := hname
    have hlead : tag.name ++ (more ++ ['s']) = place.before ++ ['s'] := by rw [← hmore, List.append_assoc]
    have hkept : tag.name ++ (more ++ ['s']) <+: tag.head := by
      rw [hlead, ← whole_first? written?_leaves hsome, Text.Passage.whole, hinside]
      exact ⟨t ++ place.after, by simp⟩
    have hwritten : ∀ entries, tag.name ++ (more ++ ['s']) <+: place.replace (assignment entries) := by
      intro entries
      rw [hlead, Text.Passage.replace, List.append_assoc, List.prefix_append_right_inj]
      exact List.prefix_append ['s'] _
    exact hread.same_tag_of_kept ht hr ht' (by simp) hkept (hwritten _)

/-- The tag of the edit is found again, unless a style was found that begins in its name. -/
theorem same_tag_again {result : TagEdit} (hread : ReadTwice settings element content r line line' c c')
    (ht : c.openingTag? settings element = some tag) (he : ofTag? (Style.ofChanges css) tag = some result)
    (hr : document content c tag result = r) (ht' : c'.openingTag? settings element = some tag')
    (hname : ∀ place w, first? written? none tag.head = some (place, w) → tag.name <+: place.before) :
    tag'.before = tag.before := by
  cases result with
  | unchanged =>
    subst hr
    rw [hread.tag_of_same ht ht']
  | replace place text =>
    obtain ⟨found, entries, hw⟩ := writes_of_ofTag? he
    have hbefore : tag.name <+: place.before := by
      cases hw with
      | inserted _ => exact List.prefix_rfl
      | merged hsome _ => exact hname _ _ hsome
    exact hw.same_tag hread ht (hr.symm.trans (document_replace content c tag place text)) ht' hbefore

/-- A tag that is found again where the edit was made is not written in again. -/
theorem not_replaced_again {result : TagEdit} (hread : ReadTwice settings element content r line line' c c')
    (ht : c.openingTag? settings element = some tag) (he : ofTag? (Style.ofChanges css) tag = some result)
    (hr : document content c tag result = r) (hflat : NoneOrFlat tag) (hcss : Ordinary css)
    (ht' : c'.openingTag? settings element = some tag') (hsame : tag'.before = tag.before) {place' : Text.Passage}
    {text' : Text} : ofTag? (Style.ofChanges css) tag' ≠ some (.replace place' text') := by
  intro he'
  cases result with
  | unchanged =>
    subst hr
    rw [hread.tag_of_same ht ht', he] at he'
    cases he'
  | replace place text =>
    obtain ⟨found, entries, hw⟩ := writes_of_ofTag? he
    have hr := hr.symm.trans (document_replace content c tag place text)
    rcases hw.ofTag?_again hflat hcss (hw.held hread ht hr ht' hsame) (hread.head_isPrefix hr ht' hsame) with h | h
    · rw [h] at he'
      cases he'
    · rw [h] at he'
      cases he'

end

/-- A style edit is made in a tag with no style or a flat one, and then once more, and both times the search settles on
the same line. The second edit changes nothing unless it writes in another tag than the first one. It finds no other
tag if what the first edit took for a style stands behind the tag's name. -/
theorem restyle_leaves_alone_iff (settings : Settings) {content r : Text} (v : LiveEdit.Value) (element : Element)
    (css : Assoc Text) {c c' : Candidate} {tag : OpeningTag}
    (hread : ReadTwice settings element content r (Line.clamp (Text.lines content).length v)
      (Line.clamp (Text.lines r).length v) c c')
    (ht : c.openingTag? settings element = some tag)
    (hedit : apply settings content (Line.clamp (Text.lines content).length v) element css = .ok (some r))
    (hflat : NoneOrFlat tag) (hcss : Ordinary css) :
    (LeavesAlone r (apply settings r (Line.clamp (Text.lines r).length v) element css) ↔
      ∀ tag' place' text', c'.openingTag? settings element = some tag' → tag'.before ≠ tag.before →
        ofTag? (Style.ofChanges css) tag' = some (.replace place' text') → text' = place'.inside) ∧
    ((∀ place w, first? written? none tag.head = some (place, w) → tag.name <+: place.before) →
      LeavesAlone r (apply settings r (Line.clamp (Text.lines r).length v) element css)) := by
  have happly : ∀ document line, apply settings document line element css =
      TagEdit.apply settings document line element (ofTag? (Style.ofChanges css)) := by
    intro document line
    cases css with
    | nil => cases hedit
    | cons change css => rfl
  rw [happly] at hedit ⊢
  obtain ⟨result, he, hr⟩ := hread.edit_of_apply ht hedit
  have hiff := leavesAlone_iff hread.second (ofTag?_within (Style.ofChanges css))
  have hagain : ∀ tag', c'.openingTag? settings element = some tag' → tag'.before = tag.before →
      ∀ place' text', ofTag? (Style.ofChanges css) tag' ≠ some (.replace place' text') :=
    fun tag' ht' hsame _ _ => not_replaced_again hread ht he hr hflat hcss ht' hsame
  constructor
  · rw [hiff]
    constructor
    · intro h tag' place' text' ht' _ he'
      exact h tag' place' text' ht' he'
    · intro h tag' place' text' ht' he'
      by_cases hsame : tag'.before = tag.before
      · exact absurd he' (hagain tag' ht' hsame place' text')
      · exact h tag' place' text' ht' hsame he'
  · intro hname
    refine hiff.mpr fun tag' place' text' ht' he' => ?_
    exact absurd he' (hagain tag' ht' (same_tag_again hread ht he hr ht' hname) place' text')

/-- A color is set in a link that has no style, and set again. -/
theorem link_style_set_twice :
    let content := "<a href='/x'>".toList
    let link : Element := { tagName := "a".toList, attributes := [("href".toList, "/x".toList)] }
    let css : Assoc Text := [("color".toList, "red".toList)]
    let r := "<a style=\x7b\x7b color: 'red' \x7d\x7d href='/x'>".toList
    let first := Line.clamp (Text.lines content).length (.int 1)
    let second := Line.clamp (Text.lines r).length (.int 1)
    ∃ c c' tag, ReadTwice {} link content r first second c c' ∧ c.openingTag? {} link = some tag ∧
      apply {} content first link css = .ok (some r) ∧ NoneOrFlat tag ∧ Ordinary css ∧
      LeavesAlone r (apply {} r second link css) := by
  intro content link css r first second
  let c := Candidate.atLine {} (Text.lines content) (Evidence.rank {} link.attributes) 0
  let c' := Candidate.atLine {} (Text.lines r) (Evidence.rank {} link.attributes) 0
  let tag := OpeningTag.ofOffset 1 content 0
  have hread : ReadTwice {} link content r first second c c' :=
    { first := by rfl, second := by rfl, sameLine := show (0 : Nat) = 0 from rfl
      once := starts_once_of_filter (o := 0) (by rfl) }
  have ht : c.openingTag? {} link = some tag := by rfl
  have hnone : first? written? none tag.head = none := by rfl
  have hedit : apply {} content first link css = .ok (some r) := by decide +kernel
  have hflat : NoneOrFlat tag := by
    intro place w h
    cases hnone.symm.trans h
  have hcss : Ordinary css := ⟨by decide, by decide⟩
  refine ⟨c, c', tag, hread, ht, hedit, hflat, hcss, ?_⟩
  refine (restyle_leaves_alone_iff {} (.int 1) link css hread ht hedit hflat hcss).2 ?_
  intro place w h
  cases hnone.symm.trans h

/-- The name of a style element is taken for its style. Behind the new text it is not delimited any more, and the tag
that is found instead stands within the value that was set. -/
theorem style_set_twice_in_own_value :
    let content := "<style =\x7b\x7ba:1\x7d\x7d href='/x'/>".toList
    let sheet : Element := { tagName := "style".toList, attributes := [("href".toList, "/x".toList)] }
    let css : Assoc Text := [("content".toList, "<style href=/x >".toList)]
    let r := "<style=\x7b\x7b a: 1, content: '<style href=/x >' \x7d\x7d href='/x'/>".toList
    let first := Line.clamp (Text.lines content).length (.int 1)
    let second := Line.clamp (Text.lines r).length (.int 1)
    ∃ c c' tag, ReadTwice {} sheet content r first second c c' ∧
      (∃! o, StartsTag (Text.strip sheet.tagName) (c.block.text.drop o)) ∧ c.openingTag? {} sheet = some tag ∧
      apply {} content first sheet css = .ok (some r) ∧ NoneOrFlat tag ∧ Ordinary css ∧
      ¬ LeavesAlone r (apply {} r second sheet css) := by
  intro content sheet css r first second
  let c := Candidate.atLine {} (Text.lines content) (Evidence.rank {} sheet.attributes) 0
  let c' := Candidate.atLine {} (Text.lines r) (Evidence.rank {} sheet.attributes) 0
  let tag := OpeningTag.ofOffset 5 content 0
  let r' := "<style=\x7b\x7b a: 1, content: '".toList ++
    "<style style=\x7b\x7b content: '<style href=/x >' \x7d\x7d href=/x >' \x7d\x7d href='/x'/>".toList
  have hread : ReadTwice {} sheet content r first second c c' := {
    first := by decide +kernel
    second := by decide +kernel
    sameLine := show (0 : Nat) = 0 from rfl
    once := starts_once_of_filter (o := 26) (by decide +kernel) }
  have honce : ∃! o, StartsTag (Text.strip sheet.tagName) (c.block.text.drop o) :=
    starts_once_of_filter (o := 0) (by decide +kernel)
  have hedit : apply {} content first sheet css = .ok (some r) := by decide +kernel
  have hfirst : first? written? none tag.head =
      some (⟨"<".toList, "style =\x7b\x7ba:1\x7d\x7d".toList, " href='/x'/>".toList⟩, .object "a:1".toList) := by rfl
  have hflat : NoneOrFlat tag := by
    intro place w h
    cases hfirst.symm.trans h
    exact ⟨_, rfl⟩
  have ht : c.openingTag? {} sheet = some tag := by decide +kernel
  have hcss : Ordinary css := ⟨by decide, by decide⟩
  refine ⟨c, c', tag, hread, honce, ht, hedit, hflat, hcss, ?_⟩
  have hagain : apply {} r second sheet css = .ok (some r') := by decide +kernel
  rw [hagain]
  intro h
  rcases h with h | h
  · cases h
  · exact absurd (Option.some.inj (Except.ok.inj h)) (by decide +kernel)

end LiveEdit.StyleEdit
