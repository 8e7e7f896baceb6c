/-
  LiveEdit.Proofs.Evidence.Monotone — more markup is never less evidence.

  An attribute that a piece of markup holds is held by whatever contains the piece (`matchesAttribute_mono`).
  The attributes that `rank` chooses have positive weights (`rank_weight`), so the score can only grow
  (`score_mono`), with the text around a piece as with the lines that a block may have (`more_markup_bears_no_less`).
-/

import Mathlib.Data.List.Basic
import LiveEdit.Evidence
import LiveEdit.Proofs.Markup.TagBlock
import LiveEdit.Proofs.Text.Occurrence

namespace LiveEdit.Evidence

/-! ## The ranking -/

theorem insertRanked_perm (a : StableAttribute) (l : List StableAttribute) : (insertRanked a l).Perm (a :: l) := by
  induction l with
  | nil => exact .refl _
  | cons b l ih =>
    unfold insertRanked
    split
    · exact .refl _
    · exact (ih.cons b).trans (.swap a b l)

theorem sortRanked_perm (l : List StableAttribute) : (sortRanked l).Perm l := by
  induction l with
  | nil => exact .refl _
  | cons a l ih => exact (insertRanked_perm a (sortRanked l)).trans (ih.cons a)

theorem weight_ge (name value : Text) : 10 ≤ weight name value := by
  unfold weight
  cases h : fixedWeights.get? name with
  | none =>
    rw [Option.getD_none]
    omega
  | some w =>
    obtain ⟨entry, hf, rfl⟩ := Option.map_eq_some_iff.mp h
    have all : ∀ entry ∈ fixedWeights, (10 : Int) ≤ entry.2 := by decide
    exact all entry (List.mem_of_find?_eq_some hf)

theorem isEligible_iff (settings : Settings) (name value : Text) : isEligible settings name value = true ↔
    name ≠ [] ∧ value ≠ [] ∧ name ∉ volatileAttributes ∧ name ∉ settings.instrumentationAttributes := by
  simp [isEligible, and_assoc]

theorem stable?_eq_some_iff {settings : Settings} {item : Text × Text} {a : StableAttribute} :
    stable? settings item = some a ↔ isEligible settings a.name a.value = true ∧
      a.name = Text.strip item.1 ∧ a.value = Text.strip item.2 ∧ a.weight = weight a.name a.value := by
  unfold stable?
  constructor
  · intro h
    obtain ⟨he, ha⟩ := Option.ite_none_right_eq_some.mp h
    cases ha
    exact ⟨he, rfl, rfl, rfl⟩
  · rintro ⟨he, hname, hvalue, hweight⟩
    rw [hname, hvalue] at he
    have ha : (⟨Text.strip item.1, Text.strip item.2, weight (Text.strip item.1) (Text.strip item.2)⟩ :
        StableAttribute) = a := by
      rw [← hname, ← hvalue, ← hweight]
    simp only [he, if_true, ha]

/-- A ranked attribute is the stable form of one of the element's. -/
theorem mem_rank {settings : Settings} {attributes : Assoc Text} {a : StableAttribute}
    (h : a ∈ rank settings attributes) : ∃ item ∈ attributes, stable? settings item = some a := by
  have hm : a ∈ sortRanked (attributes.filterMap (stable? settings)) := List.mem_of_mem_take h
  exact List.mem_filterMap.mp ((sortRanked_perm _).mem_iff.mp hm)

theorem rank_weight {settings : Settings} {attributes : Assoc Text} {a : StableAttribute}
    (h : a ∈ rank settings attributes) : 10 ≤ a.weight := by
  obtain ⟨item, -, hi⟩ := mem_rank h
  obtain ⟨-, -, -, hweight⟩ := stable?_eq_some_iff.mp hi
  rw [hweight]
  exact weight_ge _ _

/-! ## The score -/

/-- The beginning of a value that may be found up to the kind of blanks. -/
def collapsedStart (value : Text) : Text := (Text.strip (Text.collapse value)).take (prefixLength value)

theorem matchesAttribute_iff (markup name value : Text) :
    matchesAttribute markup name value = true ↔
      markup ≠ [] ∧ name ≠ [] ∧ value ≠ [] ∧ Text.occurs (name ++ ['=']) markup = true ∧
        (Text.occurs value markup = true ∨ Text.occurs (value.take (prefixLength value)) markup = true ∨
          collapsedStart value ≠ [] ∧ Text.occurs (collapsedStart value) (Text.collapse markup) = true) := by
  unfold matchesAttribute collapsedStart
  by_cases hm : markup = []
  · simp [hm]
  by_cases hn : name = []
  · simp [hn]
  by_cases hv : value = []
  · simp [hv]
  by_cases ha : Text.occurs (name ++ ['=']) markup = true
  · simp [hm, hn, hv, ha, or_assoc, List.isEmpty_iff]
  · simp [hm, hn, hv, ha]

variable {t whole : Text}

theorem matchesAttribute_mono (h : t <:+: whole) {name value : Text} (hm : matchesAttribute t name value = true) :
    matchesAttribute whole name value = true := by
  rw [matchesAttribute_iff] at hm ⊢
  obtain ⟨ht, hn, hv, ha, hfound⟩ := hm
  have hwhole : whole ≠ [] := by
    rintro rfl
    exact ht (List.eq_nil_of_infix_nil h)
  refine ⟨hwhole, hn, hv, Text.occurs_mono h ha, ?_⟩
  rcases hfound with hf | hf | ⟨hs, hf⟩
  · exact .inl (Text.occurs_mono h hf)
  · exact .inr (.inl (Text.occurs_mono h hf))
  · exact .inr (.inr ⟨hs, Text.occurs_mono (Text.collapse_isInfix h) hf⟩)

theorem found_sublist (h : t <:+: whole) (attributes : List StableAttribute) :
    (found t attributes).Sublist (found whole attributes) :=
  List.monotone_filter_right attributes fun _ => matchesAttribute_mono h

theorem totalWeight_le {l m : List StableAttribute} (h : l.Sublist m) (hw : ∀ a ∈ m, 0 ≤ a.weight) :
    totalWeight l ≤ totalWeight m := by
  induction h with
  | slnil => exact Int.le_refl _
  | cons a _ ih =>
    have ha := hw a List.mem_cons_self
    have hl := ih fun b hb => hw b (List.mem_cons_of_mem a hb)
    show totalWeight _ ≤ a.weight + totalWeight _
    omega
  | cons_cons a _ ih =>
    have hl := ih fun b hb => hw b (List.mem_cons_of_mem a hb)
    show a.weight + totalWeight _ ≤ a.weight + totalWeight _
    omega

theorem score_mono (h : t <:+: whole) {attributes : List StableAttribute} (hw : ∀ a ∈ attributes, 0 ≤ a.weight) :
    (score t attributes).1 ≤ (score whole attributes).1 :=
  totalWeight_le (found_sublist h attributes) fun a ha => hw a (List.mem_of_mem_filter ha)

theorem score_ne_nil (h : t <:+: whole) {attributes : List StableAttribute} (hm : (score t attributes).2 ≠ []) :
    (score whole attributes).2 ≠ [] := by
  intro he
  have hsub := found_sublist h attributes
  have hnil : found whole attributes = [] := List.map_eq_nil_iff.mp he
  rw [hnil, List.sublist_nil] at hsub
  exact hm (by simp [score, hsub])

/-! ## Larger pieces and larger blocks -/

/-- Of the attributes, `whole` bears all that `t` bears, and no lower score. -/
structure BearsNoLess (attributes : List StableAttribute) (t whole : Text) : Prop where
  names : (score t attributes).2.Sublist (score whole attributes).2
  score : (∀ a ∈ attributes, 0 ≤ a.weight) → (score t attributes).1 ≤ (score whole attributes).1

theorem bearsNoLess_of_isInfix (h : t <:+: whole) (attributes : List StableAttribute) :
    BearsNoLess attributes t whole where
  names := (found_sublist h attributes).map StableAttribute.name
  score := score_mono h

open Markup

/-- Whatever text is put around a piece of markup, it bears no less than before; nor does the block at a line when it
may have more lines. The weights that attributes are given are not negative. -/
theorem more_markup_bears_no_less (t before after : Text) (attributes : List StableAttribute) :
    BearsNoLess attributes t (before ++ t ++ after) ∧ (∀ name value, 0 ≤ weight name value) ∧
      ∀ (settings settings' : Settings) (ls : List (Option Text)) (start : Nat),
        settings.tagBlockMaxLines.val ≤ settings'.tagBlockMaxLines.val →
        BearsNoLess attributes (TagBlock.read settings (Text.presentLines ls) start).text
          (TagBlock.read settings' (Text.presentLines ls) start).text := by
  refine ⟨bearsNoLess_of_isInfix ⟨before, after, rfl⟩ attributes, ?_, ?_⟩
  · intro name value
    have := weight_ge name value
    omega
  · intro settings settings' ls start h
    exact bearsNoLess_of_isInfix (TagBlock.text_isPrefix_of_le h _ start).isInfix attributes

/-- Path data that is found up to the kind of blanks, between blanks with which those at its ends become one; and a
link whose target is on the third line. -/
theorem path_and_wrapped_link_bear_no_less :
    let path : StableAttribute := ⟨"d".toList, "M1 2 L3 4 M5 6".toList, 100⟩
    let t := "\n<path d='M1\n2 L3  4 M5\t6 ".toList
    let link : StableAttribute := ⟨"href".toList, "/x".toList, 80⟩
    let ls := [some "<a".toList, none, some " href='/x'>".toList]
    let narrow : Settings := { tagBlockMaxLines := ⟨2, by decide⟩ }
    narrow.tagBlockMaxLines.val ≤ ({} : Settings).tagBlockMaxLines.val ∧ 0 ≤ path.weight ∧ 0 ≤ link.weight ∧
      score t [path] = (100, ["d".toList]) ∧ 100 ≤ (score (" ".toList ++ t ++ " '>".toList) [path]).1 ∧
      (score (TagBlock.read narrow (Text.presentLines ls) 0).text [link]).1 ≤
        (score (TagBlock.read {} (Text.presentLines ls) 0).text [link]).1 := by
  intro path t link ls narrow
  have hcap : narrow.tagBlockMaxLines.val ≤ ({} : Settings).tagBlockMaxLines.val := by decide
  have hfound : score t [path] = (100, ["d".toList]) := by decide +kernel
  have hpath : ∀ a ∈ [path], 0 ≤ a.weight := by decide
  have hlink : ∀ a ∈ [link], 0 ≤ a.weight := by decide
  have hmore := (more_markup_bears_no_less t " ".toList " '>".toList [path]).1.score hpath
  have hblock := (more_markup_bears_no_less [] [] [] [link]).2.2 narrow {} ls 0 hcap
  rw [hfound] at hmore
  exact ⟨hcap, hpath _ List.mem_cons_self, hlink _ List.mem_cons_self, hfound, hmore, hblock.score hlink⟩

end LiveEdit.Evidence
