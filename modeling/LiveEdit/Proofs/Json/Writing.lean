/-
  LiveEdit.Proofs.Json.Writing — what is written is read back.

  A value without fractions whose keys are apart (`Plain`) is spelled by its line (`spells_line`) and by its
  indented form (`spells_indented`), so either is read as the value that was written. Sorting entries rearranges
  them and nothing else (`sorted_sameData`).
-/

import LiveEdit.Proofs.Json.Reading

namespace LiveEdit

/-! ## Values -/

/-- A value whose numbers are whole, infinite or not a number, and in which no mapping has a key twice. -/
inductive Value.Plain : Value → Prop
  | null : Plain .null
  | bool (b : Bool) : Plain (.bool b)
  | int (n : Int) : Plain (.int n)
  | special {x : Double} (h : x.isFinite = false) : Plain (.float x)
  | str (t : Text) : Plain (.str t)
  | list {items : List Value} (h : ∀ v ∈ items, Plain v) : Plain (.list items)
  | map {entries : List (Text × Value)} (h : ∀ e ∈ entries, Plain e.2) (hkeys : (Assoc.keys entries).Nodup) :
      Plain (.map entries)

/-- Two values are the same but for the order of the entries of their mappings. -/
inductive Value.SameData : Value → Value → Prop
  | refl (v : Value) : SameData v v
  | list {pairs : List (Value × Value)} (h : ∀ p ∈ pairs, SameData p.1 p.2) :
      SameData (.list (pairs.map (·.1))) (.list (pairs.map (·.2)))
  | map {pairs : List (Text × Value × Value)} (h : ∀ p ∈ pairs, SameData p.2.1 p.2.2) {entries : List (Text × Value)}
      (hperm : entries.Perm (pairs.map fun p => (p.1, p.2.1))) :
      SameData (.map entries) (.map (pairs.map fun p => (p.1, p.2.2)))

namespace Json

variable {v : Value} {items : List Value} {entries : List (Text × Value)}

/-! ## The line -/

theorem lineItems_eq_map (items : List Value) : lineItems items = items.map line := by
  induction items with
  | nil => rfl
  | cons v items ih => rw [lineItems, ih, List.map_cons]

theorem lineEntries_eq_map (entries : List (Text × Value)) :
    lineEntries entries = entries.map fun e => entryText e.1 (line e.2) := by
  induction entries with
  | nil => rfl
  | cons e entries ih => rw [lineEntries, ih, List.map_cons, entryText]

theorem Spells.list_of (g : Gaps) {write : Value → Text} (h : ∀ v ∈ items, Spells v (write v)) :
    Spells (.list items) (g.enclose '[' ']' (items.map write)) := by
  have hmembers : ∀ m ∈ items.map fun v => (v, write v), Spells m.1 m.2 := by
    intro m hm
    obtain ⟨v, hv, rfl⟩ := List.mem_map.mp hm
    exact h v hv
  simpa [Function.comp_def] using Spells.list g hmembers

theorem Spells.map_of (g : Gaps) {write : Value → Text} (h : ∀ e ∈ entries, Spells e.2 (write e.2))
    (hkeys : (Assoc.keys entries).Nodup) :
    Spells (.map entries) (g.enclose '\x7b' '\x7d' (entries.map fun e => entryText e.1 (write e.2))) := by
  have hmembers : ∀ m ∈ entries.map fun e => (e.1, e.2, write e.2), Spells m.2.1 m.2.2 := by
    intro m hm
    obtain ⟨e, he, rfl⟩ := List.mem_map.mp hm
    exact h e he
  have hapart : (Assoc.keys (entries.map fun e => (e.1, e.2, write e.2))).Nodup := by
    simpa [Assoc.keys, Function.comp_def] using hkeys
  simpa [Function.comp_def] using Spells.map g hmembers hapart

/-- One blank behind each comma. -/
def Gaps.spaced : Gaps := ⟨[], [' '], [], by simp [Blank, isJsonSpace]⟩

theorem enclose_spaced (opening closing : Char) (members : List Text) :
    Gaps.spaced.enclose opening closing members = opening :: Text.joinWith ", ".toList members ++ [closing] := by
  simp [Gaps.enclose, Gaps.spaced]

theorem spells_line (h : v.Plain) : Spells v (line v) := by
  induction h with
  | null => exact .null
  | bool b => exact .bool b
  | int n => exact .int n
  | special h => exact .special h
  | str t => exact .str t
  | list _ ih =>
    rw [line, lineItems_eq_map, ← enclose_spaced]
    exact .list_of .spaced ih
  | map _ hkeys ih =>
    rw [line, lineEntries_eq_map, ← enclose_spaced]
    exact .map_of .spaced ih hkeys

theorem read_line (h : v.Plain) : read (line v) = .ok v := (spells_line h).read_eq

/-! ## The indented form -/

theorem indentedItems_eq_map (depth : Nat) (items : List Value) :
    indentedItems depth items = items.map (indented depth) := by
  induction items with
  | nil => rfl
  | cons v items ih => rw [indentedItems, ih, List.map_cons]

theorem indentedEntries_eq_map (depth : Nat) (entries : List (Text × Value)) :
    indentedEntries depth entries = entries.map fun e => entryText e.1 (indented depth e.2) := by
  induction entries with
  | nil => rfl
  | cons e entries ih => rw [indentedEntries, ih, List.map_cons, entryText]

theorem blank_newline (depth : Nat) : Blank (newline depth) := by
  intro c hc
  rcases List.mem_cons.mp hc with rfl | hc
  · rfl
  · rw [List.eq_of_mem_replicate hc]
    rfl

def Gaps.empty : Gaps := ⟨[], [], [], by simp [Blank]⟩

/-- Each member on a line of its own, one step to the right of the brackets. -/
def Gaps.indented (depth : Nat) : Gaps :=
  ⟨newline (depth + 1), newline (depth + 1), newline depth,
    blank_newline (depth + 1), blank_newline (depth + 1), blank_newline depth⟩

theorem exists_block_eq_enclose (depth : Nat) (members : List Text) :
    ∃ g : Gaps, ∀ opening closing, block opening closing depth members = g.enclose opening closing members := by
  cases members with
  | nil => exact ⟨.empty, fun _ _ => rfl⟩
  | cons m members => exact ⟨.indented depth, fun _ _ => by simp [block, Gaps.enclose, Gaps.indented]⟩

theorem spells_indented (h : v.Plain) (depth : Nat) : Spells v (indented depth v) := by
  induction h generalizing depth with
  | null => exact .null
  | bool b => exact .bool b
  | int n => exact .int n
  | special h => exact .special h
  | str t => exact .str t
  | @list items _ ih =>
    obtain ⟨g, hg⟩ := exists_block_eq_enclose depth (items.map (indented (depth + 1)))
    rw [indented, indentedItems_eq_map, hg]
    exact .list_of g fun v hv => ih v hv (depth + 1)
  | @map entries _ hkeys ih =>
    obtain ⟨g, hg⟩ := exists_block_eq_enclose depth (entries.map fun e => entryText e.1 (indented (depth + 1) e.2))
    rw [indented, indentedEntries_eq_map, hg]
    exact .map_of g (fun e he => ih e he (depth + 1)) hkeys

/-! ## Sorting -/

theorem sortedItems_eq_map (items : List Value) : sortedItems items = items.map sorted := by
  induction items with
  | nil => rfl
  | cons v items ih => rw [sortedItems, ih, List.map_cons]

theorem insertByKey_perm (key : Text) (v : Value) (entries : List (Text × Value)) :
    (insertByKey key v entries).Perm ((key, v) :: entries) := by
  induction entries with
  | nil => exact .refl _
  | cons e entries ih =>
    unfold insertByKey
    split
    · exact (ih.cons e).trans (.swap (key, v) e entries)
    · exact .refl _

theorem sortedEntries_perm (entries : List (Text × Value)) :
    (sortedEntries entries).Perm (entries.map fun e => (e.1, sorted e.2)) := by
  induction entries with
  | nil => exact .refl _
  | cons e entries ih => exact (insertByKey_perm e.1 (sorted e.2) (sortedEntries entries)).trans (ih.cons _)

theorem sorted_sameData (h : v.Plain) : (sorted v).SameData v := by
  induction h with
  | null => exact .refl _
  | bool => exact .refl _
  | int => exact .refl _
  | special => exact .refl _
  | str => exact .refl _
  | @list items _ ih =>
    have hpairs : ∀ p ∈ items.map fun v => (sorted v, v), Value.SameData p.1 p.2 := by
      intro p hp
      obtain ⟨v, hv, rfl⟩ := List.mem_map.mp hp
      exact ih v hv
    simpa [sorted, sortedItems_eq_map, Function.comp_def] using Value.SameData.list hpairs
  | @map entries _ _ ih =>
    have hpairs : ∀ p ∈ entries.map fun e => (e.1, sorted e.2, e.2), Value.SameData p.2.1 p.2.2 := by
      intro p hp
      obtain ⟨e, he, rfl⟩ := List.mem_map.mp hp
      exact ih e he
    have hperm : (sortedEntries entries).Perm
        ((entries.map fun e => (e.1, sorted e.2, e.2)).map fun p => (p.1, p.2.1)) := by
      simpa [Function.comp_def] using sortedEntries_perm entries
    simpa [sorted, Function.comp_def] using Value.SameData.map hpairs hperm

theorem plain_sorted (h : v.Plain) : (sorted v).Plain := by
  induction h with
  | null => exact .null
  | bool b => exact .bool b
  | int n => exact .int n
  | special h => exact .special h
  | str t => exact .str t
  | @list items _ ih =>
    rw [sorted, sortedItems_eq_map]
    refine .list fun v hv => ?_
    obtain ⟨w, hw, rfl⟩ := List.mem_map.mp hv
    exact ih w hw
  | @map entries _ hkeys ih =>
    have hperm := sortedEntries_perm entries
    refine .map (fun e he => ?_) ?_
    · obtain ⟨d, hd, rfl⟩ := List.mem_map.mp (hperm.mem_iff.mp he)
      exact ih d hd
    · have hsame : (Assoc.keys (sortedEntries entries)).Perm (Assoc.keys entries) := by
        simpa [Assoc.keys, Function.comp_def] using hperm.map (·.1)
      exact hsame.nodup_iff.mpr hkeys

/-- The indented form is read as the data that was written, with its entries in the order of their keys. -/
theorem read_pretty (h : v.Plain) : read (pretty v) = .ok (sorted v) := (spells_indented (plain_sorted h) 0).read_eq

end Json

end LiveEdit
