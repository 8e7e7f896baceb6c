/-
  LiveEdit.Proofs.Evidence.Ranking — the ranking of a mapping keeps the best of its attributes.

  An attribute outranks those that are lighter, and of those as heavy as itself the later ones. Insertion puts what
  outranks in front (`exists_inserted`, `exists_sorted`), so that what is cut off at the end is outranked by all that
  is kept (`exists_topRanked`). No other choice of attributes has this property (`TopRanked.unique`), which makes it a
  complete description of the ranking. There is a ranking iff each value has a text (`rankValues_eq_ok_iff`): one with
  too long an integer in it has none, and what counts as nothing has an empty one, so that zero is no evidence.
-/

import Mathlib.Data.List.Perm.Subperm
import Mathlib.Data.List.Nodup
import LiveEdit.Proofs.Evidence.Monotone
import LiveEdit.Proofs.Line.Clamp
import LiveEdit.Proofs.Value

namespace LiveEdit.Evidence

/-- An attribute and the place of its item in the mapping, counted from zero. -/
structure Placed where
  place : Nat
  stable : StableAttribute

/-! ## Rank -/

namespace Placed

/-- Heavier, or as heavy and earlier in the mapping. -/
def Outranks (p q : Placed) : Prop :=
  q.stable.weight < p.stable.weight ∨ q.stable.weight = p.stable.weight ∧ p.place < q.place

theorem Outranks.trans {p q r : Placed} (hpq : p.Outranks q) (hqr : q.Outranks r) : p.Outranks r := by
  unfold Outranks at *
  omega

theorem Outranks.asymm {p q : Placed} (hpq : p.Outranks q) : ¬ q.Outranks p := by
  unfold Outranks at *
  omega

/-- The item at the place may serve as evidence, and the attribute is what it gives: its name and the text of its value
without blanks around them, with their weight. -/
structure Eligible (settings : Settings) (attributes : Assoc Value) (p : Placed) : Prop where
  stands : ∃ name v t, attributes[p.place]? = some (name, v) ∧ valueText v = .ok t ∧
    p.stable.name = Text.strip name ∧ p.stable.value = Text.strip t
  named : p.stable.name ≠ []
  valued : p.stable.value ≠ []
  lasting : p.stable.name ∉ volatileAttributes
  foreign : p.stable.name ∉ settings.instrumentationAttributes
  weighed : p.stable.weight = weight p.stable.name p.stable.value

end Placed

open Placed

/-! ## Sorting -/

/-- The new attribute, which stands before all others, is inserted where its rank is. -/
theorem exists_inserted (p : Placed) {sorted : List Placed} (hsorted : sorted.Pairwise Outranks)
    (hfirst : ∀ q ∈ sorted, p.place < q.place) :
    ∃ inserted : List Placed, inserted.Perm (p :: sorted) ∧ inserted.Pairwise Outranks ∧
      inserted.map (·.stable) = insertRanked p.stable (sorted.map (·.stable)) := by
  induction sorted with
  | nil => exact ⟨[p], .refl _, List.pairwise_singleton _ _, rfl⟩
  | cons q sorted ih =>
    obtain ⟨hq, hrest⟩ := List.pairwise_cons.mp hsorted
    by_cases hle : q.stable.weight ≤ p.stable.weight
    · -- It is heavier than the first one, or as heavy and earlier.
      have hpq : p.Outranks q := by
        have := hfirst q List.mem_cons_self
        unfold Outranks
        omega
      refine ⟨p :: q :: sorted, .refl _, ?_, by simp [insertRanked, hle]⟩
      rw [List.pairwise_cons, List.forall_mem_cons]
      exact ⟨⟨hpq, fun r hr => hpq.trans (hq r hr)⟩, hsorted⟩
    · obtain ⟨inserted, hperm, hordered, hmap⟩ := ih hrest fun r hr => hfirst r (List.mem_cons_of_mem q hr)
      refine ⟨q :: inserted, (hperm.cons q).trans (.swap p q sorted), ?_, by simp [insertRanked, hle, hmap]⟩
      have hqp : q.Outranks p := .inl (Int.not_le.mp hle)
      refine List.pairwise_cons.mpr ⟨fun r hr => ?_, hordered⟩
      rcases List.mem_cons.mp (hperm.mem_iff.mp hr) with rfl | hr
      · exact hqp
      · exact hq r hr

/-- Attributes in the order of their places are sorted by rank. -/
theorem exists_sorted {placed : List Placed} (hplaced : placed.Pairwise (·.place < ·.place)) :
    ∃ sorted : List Placed, sorted.Perm placed ∧ sorted.Pairwise Outranks ∧
      sorted.map (·.stable) = sortRanked (placed.map (·.stable)) := by
  induction placed with
  | nil => exact ⟨[], .refl _, .nil, rfl⟩
  | cons p placed ih =>
    obtain ⟨hp, hrest⟩ := List.pairwise_cons.mp hplaced
    obtain ⟨sorted, hperm, hordered, hmap⟩ := ih hrest
    obtain ⟨inserted, hinserted, hranked, hinsert⟩ :=
      exists_inserted p hordered fun q hq => hp q (hperm.mem_iff.mp hq)
    refine ⟨inserted, hinserted.trans (hperm.cons p), hranked, ?_⟩
    rw [hinsert, hmap]
    rfl

/-! ## Texts of the values -/

theorem exists_valueText_iff (v : Value) :
    (∃ t, valueText v = .ok t) ↔ v.isNothing = true ∨ v.isWritable = true := by
  by_cases h : v.isNothing = true
  · simp [valueText, h]
  · simp [valueText, h, Value.text_eq_ok_iff]

theorem textsOf_cons (name : Text) (v : Value) (attributes : Assoc Value) :
    textsOf ((name, v) :: attributes) = do
      let t ← valueText v
      let texts ← textsOf attributes
      return (name, t) :: texts := by
  simp only [textsOf, List.mapM_cons, bind_assoc, pure_bind]

theorem textsOf_cons_eq_ok_iff {item : Text × Value} {attributes : Assoc Value} {texts : Assoc Text} :
    textsOf (item :: attributes) = .ok texts ↔
      ∃ t rest, valueText item.2 = .ok t ∧ textsOf attributes = .ok rest ∧ texts = (item.1, t) :: rest := by
  rw [textsOf_cons]
  constructor
  · intro h
    obtain ⟨t, ht, h⟩ := bind_eq_ok_iff.mp h
    obtain ⟨rest, hrest, h⟩ := bind_eq_ok_iff.mp h
    exact ⟨t, rest, ht, hrest, (Except.ok.inj h).symm⟩
  · intro h
    obtain ⟨t, rest, ht, hrest, rfl⟩ := h
    exact bind_eq_ok_iff.mpr ⟨t, ht, bind_eq_ok_iff.mpr ⟨rest, hrest, rfl⟩⟩

/-- The attributes have texts iff each value has one. -/
theorem exists_textsOf_iff (attributes : Assoc Value) :
    (∃ texts, textsOf attributes = .ok texts) ↔
      ∀ item ∈ attributes, item.2.isNothing = true ∨ item.2.isWritable = true := by
  induction attributes with
  | nil => exact ⟨fun _ => nofun, fun _ => ⟨[], rfl⟩⟩
  | cons item attributes ih =>
    rw [List.forall_mem_cons, ← exists_valueText_iff, ← ih]
    constructor
    · intro h
      obtain ⟨texts, htexts⟩ := h
      obtain ⟨t, rest, ht, hrest, -⟩ := textsOf_cons_eq_ok_iff.mp htexts
      exact ⟨⟨t, ht⟩, rest, hrest⟩
    · intro h
      obtain ⟨⟨t, ht⟩, rest, hrest⟩ := h
      exact ⟨(item.1, t) :: rest, textsOf_cons_eq_ok_iff.mpr ⟨t, rest, ht, hrest, rfl⟩⟩

/-- The texts stand where their values stand. -/
theorem getElem?_textsOf {attributes : Assoc Value} {texts : Assoc Text} (h : textsOf attributes = .ok texts)
    (place : Nat) (name t : Text) :
    texts[place]? = some (name, t) ↔ ∃ v, attributes[place]? = some (name, v) ∧ valueText v = .ok t := by
  induction attributes generalizing texts place with
  | nil =>
    cases h
    simp
  | cons item attributes ih =>
    obtain ⟨first, rest, hfirst, hrest, rfl⟩ := textsOf_cons_eq_ok_iff.mp h
    cases place with
    | zero =>
      simp only [List.getElem?_cons_zero, Option.some.injEq, Prod.mk.injEq]
      constructor
      · rintro ⟨rfl, rfl⟩
        exact ⟨item.2, rfl, hfirst⟩
      · rintro ⟨v, rfl, ht⟩
        exact ⟨rfl, Except.ok.inj (hfirst.symm.trans ht)⟩
    | succ place =>
      simp only [List.getElem?_cons_succ]
      exact ih hrest place

/-! ## The choice -/

section

variable (settings : Settings) (texts : Assoc Text)

/-- The eligible attributes of a mapping, in its order. -/
def eligible : List Placed :=
  texts.zipIdx.filterMap fun entry => (stable? settings entry.1).map (⟨entry.2, ·⟩)

theorem eligible_stable : (eligible settings texts).map (·.stable) = texts.filterMap (stable? settings) := by
  rw [eligible, List.map_filterMap]
  conv_rhs => rw [← List.zipIdx_map_fst 0 texts, List.filterMap_map]
  simp [Function.comp_def]

theorem eligible_ordered : (eligible settings texts).Pairwise (·.place < ·.place) := by
  have hplaces : texts.zipIdx.Pairwise fun x y => x.2 < y.2 := by
    have h := List.pairwise_lt_range' (s := 0) (n := texts.length)
    rw [← List.zipIdx_map_snd 0 texts, List.pairwise_map] at h
    exact h
  refine List.Pairwise.filterMap _ (fun x y hxy p hp q hq => ?_) hplaces
  obtain ⟨a, -, rfl⟩ := Option.map_eq_some_iff.mp hp
  obtain ⟨b, -, rfl⟩ := Option.map_eq_some_iff.mp hq
  exact hxy

variable {texts} {attributes : Assoc Value}

theorem mem_eligible (htexts : textsOf attributes = .ok texts) {p : Placed} :
    p ∈ eligible settings texts ↔ p.Eligible settings attributes := by
  constructor
  · intro h
    obtain ⟨⟨⟨name, t⟩, place⟩, hitem, hp⟩ := List.mem_filterMap.mp h
    obtain ⟨a, ha, rfl⟩ := Option.map_eq_some_iff.mp hp
    obtain ⟨he, hname, hvalue, hweight⟩ := stable?_eq_some_iff.mp ha
    obtain ⟨hn, hv, hvolatile, htools⟩ := (isEligible_iff _ _ _).mp he
    obtain ⟨v, hstands, ht⟩ := (getElem?_textsOf htexts place name t).mp (List.mem_zipIdx_iff_getElem?.mp hitem)
    exact ⟨⟨name, v, t, hstands, ht, hname, hvalue⟩, hn, hv, hvolatile, htools, hweight⟩
  · rintro ⟨⟨name, v, t, hstands, ht, hname, hvalue⟩, hn, hv, hvolatile, htools, hweight⟩
    have hitem := (getElem?_textsOf htexts p.place name t).mpr ⟨v, hstands, ht⟩
    refine List.mem_filterMap.mpr ⟨((name, t), p.place), List.mem_zipIdx_iff_getElem?.mpr hitem, ?_⟩
    have he := (isEligible_iff settings _ _).mpr ⟨hn, hv, hvolatile, htools⟩
    rw [stable?_eq_some_iff.mpr ⟨he, hname, hvalue, hweight⟩]
    rfl

end

/-- Attributes as a ranking keeps them: they come from items of their own, there are no more than allowed, what
outranks stands in front, and an eligible attribute is left out only where the room is used up by others that all
outrank it. -/
structure TopRanked (settings : Settings) (attributes : Assoc Value) (kept : List Placed) : Prop where
  eligible : ∀ p ∈ kept, p.Eligible settings attributes
  apart : (kept.map (·.place)).Nodup
  fits : kept.length ≤ settings.maxStableAttributes.val
  ordered : kept.Pairwise Outranks
  best : ∀ p : Placed, p.Eligible settings attributes → p ∉ kept →
    kept.length = settings.maxStableAttributes.val ∧ ∀ q ∈ kept, q.Outranks p

theorem exists_topRanked (settings : Settings) {attributes : Assoc Value} {texts : Assoc Text}
    (htexts : textsOf attributes = .ok texts) :
    ∃ kept, TopRanked settings attributes kept ∧ kept.map (·.stable) = rank settings texts := by
  have hplaces := eligible_ordered settings texts
  obtain ⟨sorted, hperm, hordered, hmap⟩ := exists_sorted hplaces
  have hmem : ∀ p, p ∈ sorted ↔ p.Eligible settings attributes :=
    fun p => hperm.mem_iff.trans (mem_eligible settings htexts)
  have hapart : (sorted.map (·.place)).Nodup := by
    rw [(hperm.map _).nodup_iff]
    exact List.pairwise_map.mpr (hplaces.imp Nat.ne_of_lt)
  let room := settings.maxStableAttributes.val
  have hsplit : sorted.take room ++ sorted.drop room = sorted := List.take_append_drop room sorted
  refine ⟨sorted.take room, ?_, ?_⟩
  · refine {
      eligible := fun p hp => (hmem p).mp (List.mem_of_mem_take hp)
      apart := hapart.sublist ((List.take_sublist room sorted).map _)
      fits := List.length_take_le room sorted
      ordered := hordered.sublist (List.take_sublist room sorted)
      best := fun p hp hout => ?_ }
    -- What is eligible and not kept is cut off at the end.
    have hcut : p ∈ sorted.drop room := by
      rw [← hmem, ← hsplit, List.mem_append] at hp
      exact hp.resolve_left hout
    rw [← hsplit, List.pairwise_append] at hordered
    refine ⟨?_, fun q hq => hordered.2.2 q hq p hcut⟩
    have hlong := List.length_pos_of_mem hcut
    rw [List.length_drop] at hlong
    rw [List.length_take]
    omega
  · rw [List.map_take, hmap, eligible_stable]
    rfl

namespace TopRanked

variable {settings : Settings} {attributes : Assoc Value} {kept other : List Placed}

theorem nodup (h : TopRanked settings attributes kept) : kept.Nodup := .of_map _ h.apart

theorem subset (h : TopRanked settings attributes kept) (ho : TopRanked settings attributes other) : kept ⊆ other := by
  intro p hp
  by_contra hout
  obtain ⟨hfull, hover⟩ := ho.best p (h.eligible p hp) hout
  -- The other choice is full, so it holds something in the place of `p`.
  obtain ⟨q, hq, hqout⟩ : ∃ q ∈ other, q ∉ kept := by
    by_contra hall
    have hsub : other ⊆ kept := fun q hq => Classical.byContradiction fun hqout => hall ⟨q, hq, hqout⟩
    have hperm := (ho.nodup.subperm hsub).perm_of_length_le (hfull ▸ h.fits)
    exact hout (hperm.mem_iff.mpr hp)
  exact (hover q hq).asymm ((h.best q (ho.eligible q hq) hqout).2 p hp)

theorem unique (h : TopRanked settings attributes kept) (ho : TopRanked settings attributes other) : kept = other := by
  have hperm : kept.Perm other := (h.nodup.subperm (h.subset ho)).antisymm (ho.nodup.subperm (ho.subset h))
  exact hperm.eq_of_pairwise (fun _ _ _ _ hpq hqp => absurd hqp hpq.asymm) h.ordered ho.ordered

end TopRanked

/-- A mapping has a ranking iff each of its values counts as nothing or can be written. It is the list of attributes
that is kept of the mapping, and no other list is. -/
theorem rankValues_eq_ok_iff (settings : Settings) (attributes : Assoc Value) (ranked : List StableAttribute) :
    rankValues settings attributes = .ok ranked ↔
      (∀ item ∈ attributes, item.2.isNothing = true ∨ item.2.isWritable = true) ∧
        ∃ kept, TopRanked settings attributes kept ∧ kept.map (·.stable) = ranked := by
  rw [← exists_textsOf_iff, rankValues, bind_eq_ok_iff]
  constructor
  · rintro ⟨texts, htexts, h⟩
    cases h
    exact ⟨⟨texts, htexts⟩, exists_topRanked settings htexts⟩
  · rintro ⟨⟨texts, htexts⟩, other, hother, rfl⟩
    obtain ⟨kept, hkept, hmap⟩ := exists_topRanked settings htexts
    refine ⟨texts, htexts, ?_⟩
    rw [← hmap, hkept.unique hother]
    rfl

/-- A number that is too long fails, and zero, whose text is not empty, is left out although there is room for it. -/
theorem numbers_left_out :
    rankValues {} [("href".toList, .int Value.tooLong)] = .error .tooMany ∧
      rankValues {} [("tabindex".toList, .int 0)] = .ok [] ∧ (Value.int 0).text = .ok "0".toList := by
  refine ⟨?_, rfl, by decide +kernel⟩
  have hnothing : (Value.int Value.tooLong).isNothing = false := by decide +kernel
  have htext : valueText (.int Value.tooLong) = .error .tooMany := by
    simp [valueText, Value.text, hnothing, Value.isWritable_tooLong]
  rw [rankValues, textsOf_cons, htext]
  rfl

/-- The two titles weigh the same and keep their order; the shortest text has no room any more, and an `id` has no
say. -/
example : (rankValues {} [("id".toList, .str "main".toList), ("title ".toList, .int 7), ("alt".toList, .null),
    ("title".toList, .str " b".toList), ("lang".toList, .str "en".toList), ("href".toList, .str "/x".toList)]) =
    .ok [⟨"href".toList, "/x".toList, 80⟩, ⟨"title".toList, "7".toList, 10⟩, ⟨"title".toList, "b".toList, 10⟩] := by
  decide +kernel

end LiveEdit.Evidence
