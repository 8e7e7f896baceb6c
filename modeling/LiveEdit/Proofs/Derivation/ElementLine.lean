/-
  LiveEdit.Proofs.Derivation.ElementLine — whether the line derived for an element is one on which its tag starts.

  The derivation looks for `<` and the tag's name in the line in lower case, the search for an element for the start of
  the tag. The derived line is the first one with all of the element's evidence that mentions the name so
  (`FirstLine`). It is the first one on which the tag starts just when the two readings find the same first line, up to
  the first line of the document, which stands for none as well (`effectiveLine_agrees_iff`).
-/

import Mathlib.Data.Nat.Find
import LiveEdit.Derivation
import LiveEdit.Proofs.Derivation.TextLine
import LiveEdit.Proofs.Edit.Gate
import LiveEdit.Proofs.Text.Case

namespace LiveEdit.Derivation

open Markup

/-! ## Two readings of a line -/

section

variable (settings : Settings) (lines : List Text) (element : Element) (index : Nat)

/-- The block that begins with the line holds every stable attribute of the element. -/
def Complete : Prop :=
  ∀ a ∈ Evidence.rank settings element.attributes,
    Evidence.matchesAttribute (TagBlock.read settings lines index).text a.name a.value = true

instance : Decidable (Complete settings lines element index) :=
  inferInstanceAs (Decidable (∀ a ∈ Evidence.rank settings element.attributes,
    Evidence.matchesAttribute (TagBlock.read settings lines index).text a.name a.value = true))

/-- In lower case the line holds `<` and the tag's name, whatever follows, and its block is complete. -/
def Mentions : Prop :=
  (∃ line, lines[index]? = some line ∧ '<' :: Text.lower element.tagName <:+: Text.lower line) ∧
    Complete settings lines element index

/-- The element's tag starts on the line, with a delimiter behind the name, and its block is complete. -/
def Opens : Prop :=
  (∃ line front back, lines[index]? = some line ∧ line = front ++ back ∧
    StartsTag (Text.lower element.tagName) back) ∧ Complete settings lines element index

end

variable {settings : Settings} {lines : List Text} {element : Element} {P Q : Nat → Prop} {n index : Nat}

theorem bears_iff (hlt : index < lines.length) :
    bears settings lines (Text.lower element.tagName) (Evidence.rank settings element.attributes) index = true ↔
      Mentions settings lines element index := by
  rw [bears, Bool.and_eq_true, Text.occurs_iff_isInfix, List.all_eq_true, Mentions, List.getD_eq_getElem?_getD,
    List.getElem?_eq_getElem hlt]
  simp [Complete]

theorem Mentions.lt_length (h : Mentions settings lines element index) : index < lines.length := by
  obtain ⟨⟨line, hline, -⟩, -⟩ := h
  exact (List.getElem?_eq_some_iff.mp hline).1

/-! ## The first line -/

/-- Line `n`, counted from one, is the first with a property; line 1 if there is none. -/
def FirstLine (P : Nat → Prop) (n : Nat) : Prop :=
  (∃ index, n = index + 1 ∧ P index ∧ ∀ j < index, ¬ P j) ∨ (n = 1 ∧ ∀ j, ¬ P j)

theorem FirstLine.eq (h : FirstLine P n) (hindex : P index) (hfirst : ∀ j < index, ¬ P j) : n = index + 1 := by
  rcases h with ⟨i, rfl, hi, hbefore⟩ | ⟨-, hnone⟩
  · rcases Nat.lt_trichotomy i index with hlt | rfl | hlt
    · exact absurd hi (hfirst i hlt)
    · rfl
    · exact absurd hindex (hbefore index hlt)
  · exact absurd hindex (hnone index)

theorem FirstLine.eq_one (h : FirstLine P n) (hnone : ∀ j, ¬ P j) : n = 1 := by
  rcases h with ⟨i, -, hi, -⟩ | ⟨rfl, -⟩
  · exact absurd hi (hnone i)
  · rfl

/-- Two properties with one first line: where one shows first the other shows as well, or it shows nowhere. -/
theorem FirstLine.shows_too (h : FirstLine P n) (hq : FirstLine Q n) (hindex : P index) (hfirst : ∀ j < index, ¬ P j) :
    Q index ∨ (index = 0 ∧ ∀ j, ¬ Q j) := by
  obtain rfl := h.eq hindex hfirst
  rcases hq with ⟨i, hi, hshows, -⟩ | ⟨hone, hnone⟩
  · cases hi
    exact .inl hshows
  · exact .inr ⟨Nat.succ.inj hone, hnone⟩

/-- Where one property shows first, both do, or it is line 1 and the other one shows nowhere. -/
def Agree (P Q : Nat → Prop) : Prop :=
  ∀ index, P index ∨ Q index → (∀ j < index, ¬ P j ∧ ¬ Q j) →
    (P index ∧ Q index) ∨ (index = 0 ∧ ((∀ j, ¬ P j) ∨ ∀ j, ¬ Q j))

theorem FirstLine.agrees (h : FirstLine P n) (hq : FirstLine Q n) : Agree P Q := by
  intro index hsome hfirst
  rcases hsome with hp | hp
  · rcases h.shows_too hq hp fun j hj => (hfirst j hj).1 with hboth | ⟨rfl, hnone⟩
    · exact .inl ⟨hp, hboth⟩
    · exact .inr ⟨rfl, .inr hnone⟩
  · rcases hq.shows_too h hp fun j hj => (hfirst j hj).2 with hboth | ⟨rfl, hnone⟩
    · exact .inl ⟨hboth, hp⟩
    · exact .inr ⟨rfl, .inl hnone⟩

/-- Two properties have the same first line just when they agree where one of them shows first. -/
theorem FirstLine.iff_agree (h : FirstLine P n) : FirstLine Q n ↔ Agree P Q := by
  refine ⟨h.agrees, fun hagree => ?_⟩
  by_cases hsome : ∃ index, P index ∨ Q index
  · classical
    have hfirst : ∀ j < Nat.find hsome, ¬ P j ∧ ¬ Q j := fun j hj => not_or.mp (Nat.find_min hsome hj)
    rcases hagree _ (Nat.find_spec hsome) hfirst with ⟨hp, hq⟩ | ⟨hzero, hnone | hnone⟩
    · exact .inl ⟨_, h.eq hp fun j hj => (hfirst j hj).1, hq, fun j hj => (hfirst j hj).2⟩
    · have hq := (Nat.find_spec hsome).resolve_left (hnone _)
      rw [hzero] at hq
      exact .inl ⟨0, h.eq_one hnone, hq, fun j hj => absurd hj (Nat.not_lt_zero j)⟩
    · have hp := (Nat.find_spec hsome).resolve_right (hnone _)
      rw [hzero] at hp
      exact .inr ⟨h.eq hp fun j hj => absurd hj (Nat.not_lt_zero j), hnone⟩
  · have hnone : ∀ j, ¬ P j ∧ ¬ Q j := fun j => not_or.mp fun hj => hsome ⟨j, hj⟩
    exact .inr ⟨h.eq_one fun j => (hnone j).1, fun j => (hnone j).2⟩

/-- If the second property shows nowhere but where the first one does, they agree when it shows where the first one
shows first. -/
theorem agree_iff_of_imp (h : ∀ j, Q j → P j) :
    Agree P Q ↔ ∀ index, P index → (∀ j < index, ¬ P j) → Q index ∨ (index = 0 ∧ ∀ j, ¬ Q j) := by
  constructor
  · intro hagree index hp hfirst
    rcases hagree index (.inl hp) fun j hj => ⟨hfirst j hj, fun hq => hfirst j hj (h j hq)⟩ with ⟨-, hq⟩ | ⟨rfl, hnone⟩
    · exact .inl hq
    · exact .inr ⟨rfl, hnone.resolve_left fun hp' => hp' 0 hp⟩
  · intro hshows index hsome hfirst
    have hp : P index := hsome.elim id (h index)
    rcases hshows index hp fun j hj => (hfirst j hj).1 with hq | ⟨rfl, hnone⟩
    · exact .inl ⟨hp, hq⟩
    · exact .inr ⟨rfl, .inr hnone⟩

/-! ## The derived line -/

/-- In an ASCII document a tag that starts is mentioned. -/
theorem Opens.mentions (htag : Text.IsAscii element.tagName) (hlines : ∀ line ∈ lines, Text.IsAscii line)
    (h : Opens settings lines element index) : Mentions settings lines element index := by
  obtain ⟨⟨line, front, back, hline, rfl, rest, hstart, -⟩, hcomplete⟩ := h
  have hascii := hlines _ (List.mem_of_getElem? hline)
  obtain ⟨hfront, hback⟩ := List.forall_mem_append.mp hascii
  have hname : Text.IsAscii ('<' :: Text.lower element.tagName) :=
    List.forall_mem_cons.mpr ⟨by decide, Text.isAscii_lower htag⟩
  obtain ⟨part, rfl, hpart⟩ := (Text.afterStartIgnoringCase?_of_isAscii hname hback).mp hstart
  refine ⟨⟨_, hline, front.map Char.toLower, rest.map Char.toLower, ?_⟩, hcomplete⟩
  have hlower : (Text.lower element.tagName).map Char.toLower = Text.lower element.tagName := by
    rw [← Text.lower_of_isAscii (Text.isAscii_lower htag), Text.lower_lower htag]
  rw [Text.lower_of_isAscii hascii, List.map_append, List.map_append, hpart, List.map_cons, hlower, List.append_assoc]
  rfl

theorem Opens.hasTagStart (h : Opens settings lines element index) :
    hasTagStart (Text.lower element.tagName) (lines.getD index []) = true := by
  obtain ⟨⟨line, front, back, hline, hsplit, hstarts⟩, -⟩ := h
  rw [List.getD_eq_getElem?_getD, hline]
  exact (hasTagStart_iff _ _).mpr ⟨front, back, hsplit, hstarts⟩

/-- What is derived is the first line that mentions the tag and is complete. -/
theorem firstLine_elementIndex? (settings : Settings) (lines : List Text) (htag : element.tagName ≠ [])
    (hstable : Evidence.rank settings element.attributes ≠ []) :
    FirstLine (Mentions settings lines element)
      (match elementIndex? settings lines element with
        | some index => index + 1
        | none => 1) := by
  have hlower : Text.lower element.tagName ≠ [] := fun h => htag ((Candidate.lower_eq_nil_iff _).mp h)
  have hfind : elementIndex? settings lines element = (List.range lines.length).find?
      (bears settings lines (Text.lower element.tagName) (Evidence.rank settings element.attributes)) := by
    simp [elementIndex?, hlower, hstable]
  rw [hfind]
  split
  · rename_i index hindex
    obtain ⟨-, hmentions, hfirst⟩ := (find?_range_eq_some_iff fun _ => bears_iff).mp hindex
    exact .inl ⟨index, rfl, hmentions, hfirst⟩
  · rename_i hindex
    refine .inr ⟨rfl, fun j h => ?_⟩
    have hfails := List.find?_eq_none.mp hindex j (List.mem_range.mpr h.lt_length)
    exact hfails ((bears_iff h.lt_length).mpr h)

/-- For an element with a tag name and stable attributes and a line that is not reliable, the derived line is the first
one that mentions the tag and is complete. It is the first one on which the tag starts just when the two readings agree
where one of them finds something first; in an ASCII document, just when the tag starts on the first line that mentions
it, or this is line 1 and the tag starts nowhere. -/
theorem effectiveLine_agrees_iff (settings : Settings) (ls : List (Option Text)) (v : Value) (element : Element)
    (hline : Line.isReliable settings v = .ok false) (htag : element.tagName ≠ [])
    (hstable : Evidence.rank settings element.attributes ≠ []) :
    ∃ n, effectiveLine settings (Text.presentLines ls) v element = .ok n ∧
      FirstLine (Mentions settings (Text.presentLines ls) element) n ∧
      (FirstLine (Opens settings (Text.presentLines ls) element) n ↔
        Agree (Mentions settings (Text.presentLines ls) element) (Opens settings (Text.presentLines ls) element)) ∧
      (Text.IsAscii element.tagName → (∀ line ∈ Text.presentLines ls, Text.IsAscii line) →
        (FirstLine (Opens settings (Text.presentLines ls) element) n ↔
          ∀ index, Mentions settings (Text.presentLines ls) element index →
            (∀ j < index, ¬ Mentions settings (Text.presentLines ls) element j) →
            Opens settings (Text.presentLines ls) element index ∨
              (index = 0 ∧ ∀ j, ¬ Opens settings (Text.presentLines ls) element j))) := by
  have hfirst := firstLine_elementIndex? settings (Text.presentLines ls) htag hstable
  refine ⟨_, ?_, hfirst, hfirst.iff_agree, fun hname hlines => ?_⟩
  · rw [effectiveLine, hline]
    rfl
  · rw [hfirst.iff_agree, agree_iff_of_imp fun j => Opens.mentions hname hlines]

/-- A link below a paragraph. -/
theorem line_of_link_derived :
    let ls := [some "<p>".toList, some "<a href='/x'>".toList]
    let link : Element := { tagName := "a".toList, attributes := [("href".toList, "/x".toList)] }
    Line.isReliable {} .null = .ok false ∧ link.tagName ≠ [] ∧ Evidence.rank {} link.attributes ≠ [] ∧
      effectiveLine {} (Text.presentLines ls) .null link = .ok 2 ∧
      FirstLine (Opens {} (Text.presentLines ls) link) 2 := by
  intro ls link
  have hline : Line.isReliable {} .null = .ok false := by rfl
  have htag : link.tagName ≠ [] := by decide
  have hstable : Evidence.rank {} link.attributes ≠ [] := by decide
  obtain ⟨n, hn, -, -, hiff⟩ := effectiveLine_agrees_iff {} ls .null link hline htag hstable
  have htwo : effectiveLine {} (Text.presentLines ls) .null link = .ok 2 := by rfl
  obtain rfl : n = 2 := Except.ok.inj (hn.symm.trans htwo)
  refine ⟨hline, htag, hstable, htwo, (hiff (by decide) (by decide)).mpr fun index hmentions _ => .inl ?_⟩
  have hlt : index < 2 := hmentions.lt_length
  match index with
  | 0 =>
    have hbears := (bears_iff (by decide)).mpr hmentions
    exact absurd hbears (by decide)
  | 1 =>
    exact ⟨⟨"<a href='/x'>".toList, [], "<a href='/x'>".toList, by rfl, by rfl, " href='/x'>".toList, by rfl, by rfl⟩,
      by decide⟩

/-- The abbreviation on the first line counts as a link, since its name begins with the one of a link. -/
theorem abbreviation_taken_for_link :
    let ls := [some "<abbr href='/x'>".toList, some "<p>".toList, some "<a href='/x'>".toList]
    let link : Element := { tagName := "a".toList, attributes := [("href".toList, "/x".toList)] }
    Line.isReliable {} .null = .ok false ∧ link.tagName ≠ [] ∧ Evidence.rank {} link.attributes ≠ [] ∧
      effectiveLine {} (Text.presentLines ls) .null link = .ok 1 ∧
      FirstLine (Opens {} (Text.presentLines ls) link) 3 ∧ ¬ FirstLine (Opens {} (Text.presentLines ls) link) 1 := by
  intro ls link
  have hopens : Opens {} (Text.presentLines ls) link 2 := by
    exact ⟨⟨"<a href='/x'>".toList, [], "<a href='/x'>".toList, by rfl, by rfl, " href='/x'>".toList, by rfl, by rfl⟩,
      by decide⟩
  have hbefore : ∀ j < 2, ¬ Opens {} (Text.presentLines ls) link j := by
    intro j hj h
    have hstart := h.hasTagStart
    match j with
    | 0 => exact absurd hstart (by decide)
    | 1 => exact absurd hstart (by decide)
  exact ⟨by rfl, by decide, by decide, by rfl, .inl ⟨2, rfl, hopens, hbefore⟩,
    fun h => absurd (h.eq hopens hbefore) (by decide)⟩

end LiveEdit.Derivation
