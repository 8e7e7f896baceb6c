/-
  LiveEdit.Proofs.Style.PropertyName — which property a key of a style object names.

  A key in quotes names what is between them (`propertyOf`), so one property may have several keys. Entries are written
  by key: an object in which no property has two keys keeps this when entries are written into it just when the new ones
  have no two keys for a property either, and no other key for a property that is there (`apart_putAll_iff`). The keys
  that are made of property names without quotes are one for each property (`key_eq_of_propertyOf_eq`).
-/

import Mathlib.Data.List.Nodup
import LiveEdit.Proofs.Assoc
import LiveEdit.Proofs.Style.Key

namespace LiveEdit.Style

/-! ## Keys in quotes -/

/-- The property that a key names: what stands between its quotes, if it has any. -/
def propertyOf : Text → Text
  | [] => []
  | quote :: t => if (quote = '\'' || quote = '"') && t.getLast? = some quote then t.dropLast else quote :: t

theorem propertyOf_quoted {quote : Char} (hq : quote = '\'' ∨ quote = '"') (t : Text) :
    propertyOf (quote :: t ++ [quote]) = t := by
  simp [propertyOf, hq]

theorem propertyOf_of_no_quotes {key : Text} (hsingle : '\'' ∉ key) (hdouble : '"' ∉ key) : propertyOf key = key := by
  cases key with
  | nil => rfl
  | cons c t =>
    have h1 : c ≠ '\'' := fun h => hsingle (h ▸ List.mem_cons_self)
    have h2 : c ≠ '"' := fun h => hdouble (h ▸ List.mem_cons_self)
    simp [propertyOf, h1, h2]

/-! ## Keys of properties -/

/-- Two hyphens in front are not made by a change to camel case. -/
theorem hyphens_of_camelCase {t : Text} (h : ['-', '-'] <+: camelCase t) : ['-', '-'] <+: t := by
  cases t using camelCase.induct with
  | case1 => exact h
  | case2 c t hc =>
    rw [camelCase, if_pos hc] at h
    have hupper := isUpper_toUpper hc
    rw [← (List.cons_prefix_cons.mp h).1] at hupper
    cases hupper
  | case3 c t hc =>
    rw [camelCase, if_neg hc] at h
    by_cases hhyphen : c = '-'
    · rw [hhyphen]
      exact List.prefix_append ['-', '-'] t
    · have hrest := (List.cons_prefix_cons.mp h).2
      rw [camelCase_cons_of_ne hhyphen] at hrest
      exact absurd (List.cons_prefix_cons.mp hrest).1.symm hhyphen
  | case4 c t hne =>
    rw [camelCase.eq_3 _ _ hne] at h
    obtain ⟨rfl, hrest⟩ := List.cons_prefix_cons.mp h
    cases t with
    | nil => exact absurd hrest (by decide)
    | cons d t => exact (hne d t rfl rfl).elim

theorem propertyOf_key {property : Text} (hsingle : '\'' ∉ property) (hdouble : '"' ∉ property) :
    propertyOf (key property) =
      if ['-', '-'].isPrefixOf (Text.strip property) then Text.strip property
      else camelCase (Text.strip property) := by
  have hstrip : ∀ {c}, c ∉ property → c ∉ Text.strip property := fun h hc => h ((Text.strip_isInfix _).subset hc)
  unfold key
  simp only
  split
  · exact propertyOf_quoted (.inl rfl) _
  · refine propertyOf_of_no_quotes ?_ ?_
    · rw [mem_camelCase_iff (by decide) (by decide)]
      exact hstrip hsingle
    · rw [mem_camelCase_iff (by decide) (by decide)]
      exact hstrip hdouble

/-- Of property names without quotes one key is made for each property. -/
theorem key_eq_of_propertyOf_eq {property other : Text} (hp : '\'' ∉ property ∧ '"' ∉ property)
    (ho : '\'' ∉ other ∧ '"' ∉ other) (h : propertyOf (key property) = propertyOf (key other)) :
    key property = key other := by
  rw [propertyOf_key hp.1 hp.2, propertyOf_key ho.1 ho.2] at h
  unfold key
  simp only
  split_ifs at h ⊢ with h1 h2 h2
  · rw [h]
  · rw [List.isPrefixOf_iff_prefix] at h1 h2
    rw [h] at h1
    exact absurd (hyphens_of_camelCase h1) h2
  · rw [List.isPrefixOf_iff_prefix] at h1 h2
    rw [← h] at h2
    exact absurd (hyphens_of_camelCase h2) h1
  · exact h

/-! ## Entries -/

/-- No two keys of the entries name the same property. -/
def Apart (entries : Assoc Text) : Prop := ((Assoc.keys entries).map propertyOf).Nodup

instance (entries : Assoc Text) : Decidable (Apart entries) := inferInstanceAs (Decidable (List.Nodup _))

variable {entries old new : Assoc Text}

theorem Apart.nodup (h : Apart entries) : (Assoc.keys entries).Nodup := List.Nodup.of_map _ h

theorem apart_iff (hkeys : (Assoc.keys entries).Nodup) :
    Apart entries ↔ ∀ k ∈ Assoc.keys entries, ∀ k' ∈ Assoc.keys entries, propertyOf k = propertyOf k' → k = k' :=
  List.nodup_map_iff_inj_on hkeys

theorem apart_putAll_iff (ho : (Assoc.keys old).Nodup) (hn : (Assoc.keys new).Nodup) :
    Apart (old.putAll new) ↔ Apart old ∧ Apart new ∧
      ∀ k ∈ Assoc.keys old, ∀ k' ∈ Assoc.keys new, propertyOf k = propertyOf k' → k = k' := by
  rw [apart_iff (Assoc.nodup_putAll ho new), apart_iff ho, apart_iff hn]
  simp only [Assoc.mem_keys_putAll]
  constructor
  · intro h
    exact ⟨fun k hk k' hk' => h k (.inl hk) k' (.inl hk'), fun k hk k' hk' => h k (.inr hk) k' (.inr hk'),
      fun k hk k' hk' => h k (.inl hk) k' (.inr hk')⟩
  · rintro ⟨hold, hnew, hboth⟩ k (hk | hk) k' (hk' | hk') he
    · exact hold k hk k' hk' he
    · exact hboth k hk k' hk' he
    · exact (hboth k' hk' k hk he.symm).symm
    · exact hnew k hk k' hk' he

theorem apart_ofChanges {css : Assoc Text} (h : ∀ property ∈ Assoc.keys css, '\'' ∉ property ∧ '"' ∉ property) :
    Apart (ofChanges css) := by
  refine (apart_iff (nodup_keys_ofChanges css)).mpr fun k hk k' hk' he => ?_
  obtain ⟨property, hp, rfl⟩ := mem_keys_ofChanges.mp hk
  obtain ⟨other, ho, rfl⟩ := mem_keys_ofChanges.mp hk'
  exact key_eq_of_propertyOf_eq (h property hp) (h other ho) he

end LiveEdit.Style
