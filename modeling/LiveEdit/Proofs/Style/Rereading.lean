/-
  LiveEdit.Proofs.Style.Rereading — printed entries whose keys may be no keys of the grammar.

  A property of letters, digits, underscores and hyphens gives a key of the grammar or a text of such characters
  (`isKey_or_word_key`). An entry with a text of that kind for a key is not read (`entry?_of_word`). So printed entries
  are read back as they are or not at all (`parse?_inside_eq`).
-/

import LiveEdit.Proofs.Style.Key
import LiveEdit.Proofs.Style.RoundTrip
import LiveEdit.Proofs.Text.Lines

namespace LiveEdit.Style

/-- A character of an ordinary property, custom or not. -/
def isWordOrHyphen (c : Char) : Bool := c.isAlphanum || c = '_' || c = '-'

theorem ascii_of_isWordOrHyphen {c : Char} (h : isWordOrHyphen c = true) : c.toNat < 128 := by
  simp only [isWordOrHyphen, Char.isAlphanum, Bool.or_eq_true, decide_eq_true_eq] at h
  rcases h with ((h | h) | rfl) | rfl
  · exact Text.ascii_of_isAlpha h
  · have hnine : '9'.toNat = 57 := rfl
    have hdigit := Char.isDigit_iff_toNat.mp h
    omega
  · decide
  · decide

/-- Such a character is no blank, no colon, and no quotation mark. -/
theorem not_special_of_isWordOrHyphen {c : Char} (h : isWordOrHyphen c = true) :
    Text.isBlank c = false ∧ c ≠ ':' ∧ c ≠ '\'' ∧ c ≠ '"' :=
  Text.ascii_forall (P := fun c => isWordOrHyphen c = true → Text.isBlank c = false ∧ c ≠ ':' ∧ c ≠ '\'' ∧ c ≠ '"')
    (by decide) (ascii_of_isWordOrHyphen h) h

/-! ## Keys of properties -/

theorem isWordOrHyphen_toUpper {c : Char} (h : c.isLower = true) : isWordOrHyphen c.toUpper = true :=
  Text.ascii_forall (P := fun c => c.isLower = true → isWordOrHyphen c.toUpper = true) (by decide)
    (Text.ascii_of_isLower h) h

theorem isKey_or_word_key {property : Text} (h : property.all isWordOrHyphen = true) :
    IsKey (key property) ∨ (key property).all isWordOrHyphen = true := by
  have hstrip : (Text.strip property).all isWordOrHyphen = true :=
    List.all_eq_true.mpr fun c hc => List.all_eq_true.mp h c ((Text.strip_isInfix _).subset hc)
  unfold key
  simp only
  split
  · refine .inl (.quoted (.inl rfl) fun hm => ?_)
    exact (not_special_of_isWordOrHyphen (List.all_eq_true.mp hstrip _ hm)).2.2.1 rfl
  · exact .inr (camelCase_all (fun _ => isWordOrHyphen_toUpper) hstrip)

/-! ## Entries -/

/-- A key that is such a text begins the entry, so no blanks are skipped but the one in front. -/
theorem skipBlanks_entryText {e : Text × Text} (hword : e.1.all isWordOrHyphen = true) (tail : Text) :
    skipBlanks (' ' :: entryText e ++ tail) = e.1 ++ ':' :: (' ' :: e.2 ++ tail) := by
  obtain ⟨name, value⟩ := e
  have hhead : ∀ c ∈ (name ++ ':' :: (' ' :: value ++ tail)).head?, Text.isBlank c = false := by
    intro c hc
    cases name with
    | nil =>
      obtain rfl : ':' = c := Option.some.inj hc
      decide
    | cons d name =>
      obtain rfl : d = c := Option.some.inj hc
      exact (not_special_of_isWordOrHyphen (List.all_eq_true.mp hword d List.mem_cons_self)).1
  have hskip : skipBlanks ([' '] ++ (name ++ ':' :: (' ' :: value ++ tail))) = name ++ ':' :: (' ' :: value ++ tail) :=
    skipBlanks_append (by decide) hhead
  simpa [entryText] using hskip

/-- An entry is not read if its key is a text of such characters, but no key of the grammar. -/
theorem entry?_of_word {e : Text × Text} (hword : e.1.all isWordOrHyphen = true) (hkey : ¬ IsKey e.1) (tail : Text) :
    entry? (' ' :: entryText e ++ tail) = none := by
  rw [ entry?, skipBlanks_entryText hword]
  obtain ⟨name, value⟩ := e
  cases name with
  | nil => rfl
  | cons c name =>
    obtain ⟨hc, hname⟩ := Bool.and_eq_true_iff.mp hword
    obtain ⟨-, -, hquote, hquotes⟩ := not_special_of_isWordOrHyphen hc
    by_cases hstart : startsIdentifier c = true
    · -- The identifier that is read ends in front of a character that is no colon.
      have hrest : ¬ name.all continuesIdentifier = true := fun h => hkey (.identifier hstart h)
      have hne : name.dropWhile continuesIdentifier ≠ [] := fun h => hrest (by simpa using h)
      obtain ⟨d, u, hd⟩ := List.exists_cons_of_ne_nil hne
      have hmem : d ∈ name := (List.dropWhile_suffix continuesIdentifier).subset (by rw [hd]; exact List.mem_cons_self)
      obtain ⟨hblank, hcolon, -, -⟩ := not_special_of_isWordOrHyphen (List.all_eq_true.mp hname d hmem)
      have hleft : skipBlanks ((name ++ ':' :: (' ' :: value ++ tail)).dropWhile continuesIdentifier) =
          d :: (u ++ ':' :: (' ' :: value ++ tail)) := by
        rw [List.dropWhile_append, hd]
        exact List.dropWhile_cons_of_neg (by simp [hblank])
      rw [List.cons_append, key?, if_pos hstart]
      simp only [Option.bind_eq_bind, Option.bind_some, hleft]
      split
      · rename_i he
        exact absurd (List.cons.inj he).1 hcolon
      · rfl
    · rw [List.cons_append, key?, if_neg hstart, if_neg (by simp [hquote, hquotes])]
      rfl

/-- If printed entries are read, their keys are of the grammar. -/
theorem isKey_of_entries?_inside {entries : Assoc Text} (hvalues : ∀ e ∈ entries, IsValue e.2)
    (hkeys : ∀ key ∈ Assoc.keys entries, IsKey key ∨ key.all isWordOrHyphen = true) {fuel : Nat}
    {read : List (Text × Text)} (h : entries? fuel (inside entries) = some read) :
    ∀ key ∈ Assoc.keys entries, IsKey key := by
  induction entries generalizing fuel read with
  | nil => exact fun _ hkey => absurd hkey List.not_mem_nil
  | cons e entries ih =>
    obtain ⟨hvalue, hvalues⟩ := List.forall_mem_cons.mp hvalues
    obtain ⟨hkey, hkeys⟩ := List.forall_mem_cons.mp hkeys
    obtain ⟨tail, rest, hinside, hfollows, hrest⟩ := inside_cons e entries
    rw [hinside] at h
    have hblank := not_allBlank_entryText e tail
    cases fuel with
    | zero =>
      rw [entries?, if_neg (Bool.eq_false_iff.mp hblank)] at h
      cases h
    | succ fuel =>
      rw [entries?, if_neg (Bool.eq_false_iff.mp hblank)] at h
      by_cases hfirst : IsKey e.1
      · rw [entry?_of_isEntry ⟨hfirst, hvalue⟩ hfollows] at h
        obtain ⟨found, hfound, h⟩ := Option.bind_eq_some_iff.mp h
        cases hfound
        obtain ⟨others, hothers, -⟩ := Option.bind_eq_some_iff.mp h
        refine List.forall_mem_cons.mpr ⟨hfirst, ?_⟩
        rcases hrest with ⟨rfl, -⟩ | ⟨-, rfl⟩
        · exact fun _ hk => absurd hk List.not_mem_nil
        · exact ih hvalues hkeys hothers
      · rw [entry?_of_word (hkey.resolve_left hfirst) hfirst] at h
        cases h

/-- Printed entries with such keys, all apart, are read back as they are or not at all. -/
theorem parse?_inside_eq {entries : Assoc Text} (hapart : (Assoc.keys entries).Nodup)
    (hvalues : ∀ e ∈ entries, IsValue e.2)
    (hkeys : ∀ key ∈ Assoc.keys entries, IsKey key ∨ key.all isWordOrHyphen = true) :
    parse? (inside entries) = none ∨ parse? (inside entries) = some entries := by
  cases h : entries? (inside entries).length (inside entries) with
  | none => exact .inl (by rw [parse?, h, Option.map_none])
  | some read =>
    exact .inr ((parse?_inside_iff hapart hvalues).mpr (isKey_of_entries?_inside hvalues hkeys h))

/-! ## Characters -/

theorem Padded.subset {t text : Text} (h : Padded t text) : t ⊆ text := by
  cases h with
  | around => exact fun c hc => List.mem_append_left _ (List.mem_append_right _ hc)

theorem Entry.subset {e : Text × Text} {t : Text} (h : Entry e t) : e.1 ⊆ t ∧ e.2 ⊆ t := by
  cases h with
  | @pair name written key value _ hkey _ hvalue =>
    refine ⟨fun c hc => List.mem_append_left _ (hkey.subset hc), fun c hc => ?_⟩
    have hwritten : c ∈ written := (Text.strip_isInfix _).subset hc
    exact List.mem_append_right _ (List.mem_cons_of_mem _ (hvalue.subset hwritten))

theorem Body.subset {entries : List (Text × Text)} {t : Text} (h : Body entries t) :
    ∀ e ∈ entries, e.1 ⊆ t ∧ e.2 ⊆ t := by
  induction h with
  | blank => exact fun _ he => absurd he List.not_mem_nil
  | last h => simpa using h.subset
  | @more e entries t rest h _ ih =>
    have hfront : t ⊆ t ++ ',' :: rest := List.subset_append_left _ _
    have hback : rest ⊆ t ++ ',' :: rest := List.subset_append_of_subset_right _ (List.subset_cons_self _ _)
    obtain ⟨hkey, hvalue⟩ := h.subset
    refine List.forall_mem_cons.mpr ⟨⟨List.Subset.trans hkey hfront, List.Subset.trans hvalue hfront⟩, fun d hd => ?_⟩
    obtain ⟨hkey, hvalue⟩ := ih d hd
    exact ⟨List.Subset.trans hkey hback, List.Subset.trans hvalue hback⟩

/-- Keys and values that are read are made of characters of the text. -/
theorem subset_of_parse? {t : Text} {m : Assoc Text} (h : parse? t = some m) : ∀ e ∈ m, e.1 ⊆ t ∧ e.2 ⊆ t := by
  obtain ⟨entries, hentries, rfl⟩ := Option.map_eq_some_iff.mp h
  intro e he
  rcases Assoc.mem_putAll he with he | he
  · exact absurd he List.not_mem_nil
  · exact (body_of_entries? hentries).subset e he

/-- A character between the braces of a printed object is one of a key or a value, or stands between them. -/
theorem mem_inside {entries : Assoc Text} {c : Char} (hc : c ∈ inside entries) :
    c ∈ " ,:".toList ∨ ∃ e ∈ entries, c ∈ e.1 ∨ c ∈ e.2 := by
  have hbody : c ∈ body entries → c ∈ " ,:".toList ∨ ∃ e ∈ entries, c ∈ e.1 ∨ c ∈ e.2 := by
    intro h
    rcases Text.mem_joinWith h with h | ⟨t, ht, h⟩
    · exact .inl ((by decide : ", ".toList ⊆ " ,:".toList) h)
    · obtain ⟨e, he, rfl⟩ := List.mem_map.mp ht
      rcases List.mem_append.mp h with h | h
      · exact .inr ⟨e, he, .inl h⟩
      · simp only [List.mem_cons] at h
        rcases h with rfl | rfl | h
        · exact .inl (by decide)
        · exact .inl (by decide)
        · exact .inr ⟨e, he, .inr h⟩
  rcases List.mem_append.mp hc with hc | hc
  · rcases List.mem_cons.mp hc with rfl | hc
    · exact .inl (by decide)
    · exact hbody hc
  · rw [List.mem_singleton.mp hc]
    exact .inl (by decide)

end LiveEdit.Style
