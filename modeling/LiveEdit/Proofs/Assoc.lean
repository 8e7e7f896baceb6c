/-
  LiveEdit.Proofs.Assoc — which keys a mapping has after entries have been written into it.

  Writing keeps the keys apart (`nodup_putAll`), and the keys afterwards are the old and the new ones
  (`mem_keys_putAll`): an old entry keeps its place, with the new value if its key is written, and the other new ones
  follow (`putAll_eq`). Of entries with one key the last counts, at the place of the first (`ofPairs_eq_iff`). Entries
  whose keys are apart are the mapping that they write (`ofPairs_of_nodup`), and to write them once more changes nothing
  (`putAll_putAll`).
-/

import Mathlib.Data.List.Induction
import Mathlib.Data.List.Nodup
import LiveEdit.Assoc

namespace LiveEdit.Assoc

variable {α : Type} {m new : Assoc α} {key : Text} {value : α}

/-- The keys in their order. -/
def keys (m : Assoc α) : List Text := m.map (·.1)

theorem mem_keys_of_mem {e : Text × α} (h : e ∈ m) : e.1 ∈ keys m := List.mem_map_of_mem h

theorem nodup_keys_cons {e : Text × α} : (keys (e :: m)).Nodup ↔ e.1 ∉ keys m ∧ (keys m).Nodup := List.nodup_cons

/-! ## One entry -/

theorem mem_put {e : Text × α} (h : e ∈ m.put key value) : e = (key, value) ∨ e ∈ m := by
  induction m with
  | nil => exact .inl (by simpa [put] using h)
  | cons d m ih =>
    unfold put at h
    split at h
    · exact (List.mem_cons.mp h).imp_right (List.mem_cons_of_mem d)
    · rcases List.mem_cons.mp h with rfl | h
      · exact .inr List.mem_cons_self
      · exact (ih h).imp_right (List.mem_cons_of_mem d)

theorem put_of_not_mem (h : key ∉ keys m) : m.put key value = m ++ [(key, value)] := by
  induction m with
  | nil => rfl
  | cons e m ih =>
    obtain ⟨hne, hm⟩ := not_or.mp (mt List.mem_cons.mpr h)
    rw [put, if_neg (Ne.symm hne), ih hm]
    rfl

/-- A key that is there already keeps its place. -/
theorem keys_put_of_mem (h : key ∈ keys m) : keys (m.put key value) = keys m := by
  induction m with
  | nil => exact absurd h List.not_mem_nil
  | cons e m ih =>
    rw [put]
    split
    · rename_i he
      rw [keys, List.map_cons, ← he]
      rfl
    · rename_i he
      have hm : key ∈ keys m := (List.mem_cons.mp h).resolve_left (Ne.symm he)
      exact congrArg (e.1 :: ·) (ih hm)

theorem keys_put_of_not_mem (h : key ∉ keys m) : keys (m.put key value) = keys m ++ [key] := by
  rw [put_of_not_mem h, keys, List.map_append]
  rfl

theorem nodup_put (h : (keys m).Nodup) : (keys (m.put key value)).Nodup := by
  by_cases hk : key ∈ keys m
  · rw [keys_put_of_mem hk]
    exact h
  · rw [keys_put_of_not_mem hk, ← List.concat_eq_append]
    exact h.concat hk

theorem mem_keys_put {k : Text} : k ∈ keys (m.put key value) ↔ k ∈ keys m ∨ k = key := by
  by_cases hk : key ∈ keys m
  · rw [keys_put_of_mem hk]
    refine ⟨.inl, ?_⟩
    rintro (h | rfl)
    · exact h
    · exact hk
  · rw [keys_put_of_not_mem hk, List.mem_append, List.mem_singleton]

theorem mem_put_iff (h : (keys m).Nodup) {k : Text} {v : α} :
    (k, v) ∈ m.put key value ↔ (key = k ∧ value = v) ∨ (key ≠ k ∧ (k, v) ∈ m) := by
  induction m with
  | nil => simp [put, eq_comm]
  | cons e m ih =>
    obtain ⟨he, hm⟩ := nodup_keys_cons.mp h
    rw [put]
    split
    · rename_i hkey
      -- The entry with the key is overwritten, and no other one has it.
      have hout : ∀ v, (e.1, v) ∉ m := fun v hv => he (mem_keys_of_mem (e := (e.1, v)) hv)
      subst hkey
      by_cases hk : e.1 = k
      · subst hk
        simp [hout, eq_comm]
      · simp [hk, Prod.ext_iff, Ne.symm hk]
    · rename_i hkey
      by_cases hk : key = k
      · subst hk
        simp [ih hm, Prod.ext_iff, Ne.symm hkey]
      · simp [ih hm, hk]

/-- To write what is there already changes nothing. -/
theorem put_of_mem (h : (keys m).Nodup) (hmem : (key, value) ∈ m) : m.put key value = m := by
  induction m with
  | nil => exact absurd hmem List.not_mem_nil
  | cons e m ih =>
    obtain ⟨he, hm⟩ := nodup_keys_cons.mp h
    rw [put]
    rcases List.mem_cons.mp hmem with rfl | hmem
    · rw [if_pos rfl]
    · have hne : e.1 ≠ key := by
        rintro rfl
        exact he (mem_keys_of_mem (e := (e.1, value)) hmem)
      rw [if_neg hne, ih hm hmem]

/-! ## Entries one after the other -/

theorem mem_putAll {e : Text × α} (h : e ∈ m.putAll new) : e ∈ m ∨ e ∈ new := by
  unfold putAll at h
  induction new generalizing m with
  | nil => exact .inl h
  | cons d new ih =>
    rcases ih h with h | h
    · rcases mem_put h with rfl | h
      · exact .inr List.mem_cons_self
      · exact .inl h
    · exact .inr (List.mem_cons_of_mem d h)

theorem nodup_putAll (h : (keys m).Nodup) (new : Assoc α) : (keys (m.putAll new)).Nodup := by
  induction new generalizing m with
  | nil => exact h
  | cons e new ih => exact ih (nodup_put h)

theorem mem_keys_putAll {k : Text} : k ∈ keys (m.putAll new) ↔ k ∈ keys m ∨ k ∈ keys new := by
  induction new generalizing m with
  | nil => simp [putAll, keys]
  | cons e new ih =>
    show k ∈ keys ((m.put e.1 e.2).putAll new) ↔ _
    rw [ih, mem_keys_put, or_assoc]
    exact or_congr_right List.mem_cons.symm

theorem putAll_of_nodup (h : (keys (m ++ new)).Nodup) : m.putAll new = m ++ new := by
  induction new generalizing m with
  | nil => exact (List.append_nil m).symm
  | cons e new ih =>
    have hparts : (keys m ++ e.1 :: keys new).Nodup := by simpa [keys] using h
    have he : e.1 ∉ keys m := fun hm => (List.nodup_append.mp hparts).2.2 _ hm _ List.mem_cons_self rfl
    show (m.put e.1 e.2).putAll new = _
    rw [put_of_not_mem he, ih (by simpa using h), List.append_assoc]
    rfl

theorem nodup_ofPairs (entries : List (Text × α)) : (keys (ofPairs entries)).Nodup :=
  nodup_putAll (m := []) List.nodup_nil entries

theorem ofPairs_concat (entries : List (Text × α)) (e : Text × α) :
    ofPairs (entries ++ [e]) = (ofPairs entries).put e.1 e.2 := by
  simp [ofPairs, putAll, List.foldl_append]

theorem ofPairs_of_nodup {entries : List (Text × α)} (h : (keys entries).Nodup) : ofPairs entries = entries :=
  putAll_of_nodup h

/-! ## Repeated keys -/

/-- What a sequence of entries leaves: the keys in the order in which they occur first, each with the value that it has
last. -/
structure LastWins (entries : List (Text × α)) (m : Assoc α) : Prop where
  keys_eq : keys m = (keys entries).eraseDups
  mem_iff : ∀ k v, (k, v) ∈ m ↔ ∃ front back, entries = front ++ (k, v) :: back ∧ k ∉ keys back

theorem keys_ofPairs (entries : List (Text × α)) : keys (ofPairs entries) = (keys entries).eraseDups := by
  induction entries using List.reverseRecOn with
  | nil => rfl
  | append_singleton entries e ih =>
    have hconcat : keys (entries ++ [e]) = keys entries ++ [e.1] := List.map_append
    have hmem : e.1 ∈ keys (ofPairs entries) ↔ e.1 ∈ keys entries := by rw [ih, List.mem_eraseDups]
    rw [ofPairs_concat, hconcat, List.eraseDups_append, ← ih]
    by_cases he : e.1 ∈ keys entries
    · rw [keys_put_of_mem (hmem.mpr he)]
      simp [List.removeAll, he]
    · rw [keys_put_of_not_mem (mt hmem.mp he)]
      simp [List.removeAll, he, List.eraseDups_cons]

/-- An entry stays iff none behind it has its key. -/
theorem mem_ofPairs_iff (entries : List (Text × α)) (k : Text) (v : α) :
    (k, v) ∈ ofPairs entries ↔ ∃ front back, entries = front ++ (k, v) :: back ∧ k ∉ keys back := by
  induction entries using List.reverseRecOn with
  | nil => simp [ofPairs, putAll]
  | append_singleton entries e ih =>
    rw [ofPairs_concat, mem_put_iff (nodup_ofPairs entries), ih]
    constructor
    · rintro (⟨rfl, rfl⟩ | ⟨hne, front, back, rfl, hback⟩)
      · exact ⟨entries, [], rfl, List.not_mem_nil⟩
      · refine ⟨front, back ++ [e], by simp, ?_⟩
        simpa [keys, Ne.symm hne] using hback
    · rintro ⟨front, back, he, hback⟩
      rcases back.eq_nil_or_concat' with rfl | ⟨back, d, rfl⟩
      · cases (List.append_inj' he rfl).2
        exact .inl ⟨rfl, rfl⟩
      · obtain ⟨rfl, hd⟩ := List.append_inj' (he.trans (by simp : _ = (front ++ (k, v) :: back) ++ [d])) rfl
        cases hd
        have hne : e.1 ≠ k ∧ k ∉ keys back := by simpa [keys, eq_comm, and_comm] using hback
        exact .inr ⟨hne.1, front, back, rfl, hne.2⟩

/-- Mappings with the same keys in the same order are the same if the entries of one are entries of the other. -/
theorem eq_of_keys_eq {m' : Assoc α} (hm : (keys m).Nodup) (hkeys : keys m = keys m') (h : ∀ e ∈ m, e ∈ m') :
    m = m' := by
  induction m generalizing m' with
  | nil => exact (List.map_eq_nil_iff.mp hkeys.symm).symm
  | cons e m ih =>
    cases m' with
    | nil => cases hkeys
    | cons e' m' =>
      obtain ⟨he, hrest⟩ := List.cons.inj hkeys
      obtain ⟨hout, hm⟩ := nodup_keys_cons.mp hm
      obtain ⟨hfirst, hlater⟩ := List.forall_mem_cons.mp h
      have heq : e = e' := by
        refine (List.mem_cons.mp hfirst).resolve_right fun hmem => hout ?_
        show e.1 ∈ m.map (·.1)
        rw [hrest]
        exact mem_keys_of_mem hmem
      subst heq
      refine congrArg (e :: ·) (ih hm hrest fun d hd => ?_)
      refine (List.mem_cons.mp (hlater d hd)).resolve_left ?_
      rintro rfl
      exact hout (mem_keys_of_mem hd)

theorem ofPairs_eq_iff {entries : List (Text × α)} : ofPairs entries = m ↔ LastWins entries m := by
  constructor
  · rintro rfl
    exact ⟨keys_ofPairs entries, mem_ofPairs_iff entries⟩
  · rintro ⟨hkeys, hmem⟩
    refine eq_of_keys_eq (nodup_ofPairs entries) ((keys_ofPairs entries).trans hkeys.symm) fun e he => ?_
    exact (hmem e.1 e.2).mpr ((mem_ofPairs_iff entries e.1 e.2).mp he)

/-! ## Places of the entries -/

theorem get?_cons (k : Text) (e : Text × α) (m : Assoc α) :
    get? k (e :: m) = if e.1 = k then some e.2 else get? k m := by
  unfold get?
  by_cases he : e.1 = k <;> simp [he]

theorem get?_of_not_mem {k : Text} (h : k ∉ keys m) : get? k m = none := by
  induction m with
  | nil => rfl
  | cons e m ih =>
    obtain ⟨hne, hm⟩ := not_or.mp (mt List.mem_cons.mpr h)
    rw [get?_cons, if_neg (Ne.symm hne), ih hm]

/-- The entries in their places, each with the value that `new` has for its key, if it has one. -/
def updated (m new : Assoc α) : Assoc α := m.map fun e => (e.1, (new.get? e.1).getD e.2)

theorem put_eq_updated (h : (keys m).Nodup) (hk : key ∈ keys m) : m.put key value = m.updated [(key, value)] := by
  have hget : ∀ e : Text × α, get? e.1 [(key, value)] = if key = e.1 then some value else none := fun e => get?_cons _ _ _
  induction m with
  | nil => cases hk
  | cons e m ih =>
    obtain ⟨he, hm⟩ := nodup_keys_cons.mp h
    rw [put, updated, List.map_cons, hget]
    by_cases hkey : e.1 = key
    · subst hkey
      have hrest : ∀ d ∈ m, (d.1, (get? d.1 [(e.1, value)]).getD d.2) = d := by
        intro d hd
        have hne : e.1 ≠ d.1 := fun heq => he (heq ▸ mem_keys_of_mem hd)
        rw [hget, if_neg hne]
        rfl
      rw [if_pos rfl, if_pos rfl, List.map_congr_left hrest, List.map_id']
      rfl
    · have hmem : key ∈ keys m := (List.mem_cons.mp hk).resolve_left (Ne.symm hkey)
      rw [if_neg hkey, if_neg (Ne.symm hkey), ih hm hmem]
      rfl

/-- To overwrite an entry first changes nothing about what is overwritten afterwards. -/
theorem updated_put {d : Text × α} (hm : (keys m).Nodup) (hk : d.1 ∈ keys m) (hd : d.1 ∉ keys new) :
    (m.put d.1 d.2).updated new = m.updated (d :: new) := by
  rw [put_eq_updated hm hk, updated, updated, updated, List.map_map]
  refine List.map_congr_left fun e _ => ?_
  by_cases he : d.1 = e.1
  · simp [get?_cons, ← he, get?_of_not_mem hd]
  · simp [he, get?]

theorem updated_concat {d : Text × α} (hk : d.1 ∉ keys m) (hd : d.1 ∉ keys new) :
    (m ++ [d]).updated new = m.updated (d :: new) ++ [d] := by
  have hkept : ∀ e ∈ m, (e.1, (get? e.1 new).getD e.2) = (e.1, (get? e.1 (d :: new)).getD e.2) := by
    intro e he
    have hne : d.1 ≠ e.1 := fun heq => hk (heq ▸ mem_keys_of_mem he)
    rw [get?_cons, if_neg hne]
  rw [updated, updated, List.map_append, List.map_congr_left hkept]
  simp [get?_of_not_mem hd]

/-- Entries that are written keep the places of those with their keys, and the others follow in their order. -/
theorem putAll_eq (hm : (keys m).Nodup) (hnew : (keys new).Nodup) :
    m.putAll new = m.updated new ++ new.filter fun e => e.1 ∉ keys m := by
  induction new generalizing m with
  | nil => simp [putAll, updated, get?]
  | cons d new ih =>
    obtain ⟨hd, hnew⟩ := nodup_keys_cons.mp hnew
    show (m.put d.1 d.2).putAll new = _
    rw [ih (nodup_put hm) hnew]
    -- The first new entry overwrites one, and is then no longer among those that follow, or is the first of them.
    by_cases hk : d.1 ∈ keys m
    · rw [keys_put_of_mem hk, updated_put hm hk hd, List.filter_cons_of_neg (by simpa using hk)]
    · have hlater : ∀ e ∈ new, decide (e.1 ∉ keys (m.put d.1 d.2)) = decide (e.1 ∉ keys m) := by
        intro e he
        have hne : e.1 ≠ d.1 := fun heq => hd (heq ▸ mem_keys_of_mem he)
        simp [mem_keys_put, hne]
      rw [List.filter_congr hlater, List.filter_cons_of_pos (by simpa using hk), put_of_not_mem hk,
        updated_concat hk hd, List.append_assoc]
      rfl

/-! ## The same entries once more -/

theorem mem_putAll_of_not_mem (h : (keys m).Nodup) {k : Text} {v : α} (hmem : (k, v) ∈ m) (hk : k ∉ keys new) :
    (k, v) ∈ m.putAll new := by
  induction new generalizing m with
  | nil => exact hmem
  | cons e new ih =>
    obtain ⟨hne, hrest⟩ := not_or.mp (mt List.mem_cons.mpr hk)
    exact ih (nodup_put h) ((mem_put_iff h).mpr (.inr ⟨Ne.symm hne, hmem⟩)) hrest

/-- New entries whose keys are apart are all there afterwards. -/
theorem mem_putAll_of_mem (h : (keys m).Nodup) (hnew : (keys new).Nodup) {e : Text × α} (he : e ∈ new) :
    e ∈ m.putAll new := by
  induction new generalizing m with
  | nil => exact absurd he List.not_mem_nil
  | cons d new ih =>
    obtain ⟨hd, hrest⟩ := nodup_keys_cons.mp hnew
    rcases List.mem_cons.mp he with rfl | he
    · exact mem_putAll_of_not_mem (nodup_put h) ((mem_put_iff h).mpr (.inl ⟨rfl, rfl⟩)) hd
    · exact ih (nodup_put h) hrest he

theorem putAll_of_forall_mem (h : (keys m).Nodup) (hnew : ∀ e ∈ new, e ∈ m) : m.putAll new = m := by
  induction new with
  | nil => rfl
  | cons e new ih =>
    obtain ⟨he, hrest⟩ := List.forall_mem_cons.mp hnew
    show (m.put e.1 e.2).putAll new = m
    rw [put_of_mem h he, ih hrest]

/-- Entries whose keys are apart may be written twice. -/
theorem putAll_putAll (h : (keys m).Nodup) (hnew : (keys new).Nodup) : (m.putAll new).putAll new = m.putAll new :=
  putAll_of_forall_mem (nodup_putAll h new) fun _ he => mem_putAll_of_mem h hnew he

end LiveEdit.Assoc
