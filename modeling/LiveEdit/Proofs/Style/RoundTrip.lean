/-
  LiveEdit.Proofs.Style.RoundTrip — style objects that are printed and read again.

  `IsValue` says what a value of an object is once it is read, as `IsKey` does for keys. All that is read is of this form
  (`isEntry_of_parse?`), and entries of this form are printed as a text of the grammar (`body_inside`), so that those with
  keys that are apart are read back from it (`parse?_inside`). So reading, printing and reading again is reading
  (`parse?_print`), and printed entries with values of this form are read back iff their keys are keys
  (`parse?_inside_iff`).
-/

import LiveEdit.Proofs.Style.Grammar
import LiveEdit.Style.Literal

namespace LiveEdit.Style

/-! ## Keys and values -/

/-- A whole string literal, or a run without commas and quotes, and without blanks at its ends. -/
inductive IsValue : Text → Prop
  | literal {quote : Char} {t : Text} (hq : quote = '\'' ∨ quote = '"') (ht : LiteralBody quote t) :
      IsValue (quote :: t ++ [quote])
  | run {t : Text} (ht : t.all isPlain = true) (hs : Text.strip t = t) : IsValue t

structure IsEntry (e : Text × Text) : Prop where
  key : IsKey e.1
  value : IsValue e.2

theorem literalBody_flatMap (t : Text) : LiteralBody '\'' (t.flatMap literalChar) := by
  induction t with
  | nil => exact .nil
  | cons c t ih =>
    rw [List.flatMap_cons, literalChar]
    by_cases hc : c = '\\' ∨ c = '\''
    · rw [if_pos (by simpa using hc)]
      exact .escape ih
    · rw [if_neg (by simpa using hc)]
      obtain ⟨hb, hq⟩ := not_or.mp hc
      exact .char hb hq ih

theorem isValue_literal (t : Text) : IsValue (literal t) := .literal (.inl rfl) (literalBody_flatMap _)

/-! ## What is read -/

theorem IsWritten.isValue {written : Text} (h : IsWritten written) : IsValue (Text.strip written) := by
  cases h with
  | literal hq ht =>
    rw [strip_quoted hq]
    exact .literal hq ht
  | run _ ht =>
    refine .run (List.all_eq_true.mpr fun c hc => ?_) (Text.strip_strip _)
    exact List.all_eq_true.mp ht c ((Text.strip_isInfix _).subset hc)

theorem Entry.isEntry {e : Text × Text} {t : Text} (h : Entry e t) : IsEntry e := by
  cases h with
  | pair hname _ hwritten _ => exact ⟨hname, hwritten.isValue⟩

theorem Body.isEntry {entries : List (Text × Text)} {t : Text} (h : Body entries t) : ∀ e ∈ entries, IsEntry e := by
  induction h with
  | blank => exact fun _ he => absurd he List.not_mem_nil
  | last h => simpa using h.isEntry
  | more h _ ih => exact List.forall_mem_cons.mpr ⟨h.isEntry, ih⟩

theorem isEntry_of_entries? {fuel : Nat} {t : Text} {entries : List (Text × Text)}
    (h : entries? fuel t = some entries) : ∀ e ∈ entries, IsEntry e :=
  (body_of_entries? h).isEntry

/-- An object that is read has keys that are apart, and each of its entries is of the form. -/
theorem isEntry_of_parse? {t : Text} {m : Assoc Text} (h : parse? t = some m) :
    (Assoc.keys m).Nodup ∧ ∀ e ∈ m, IsEntry e := by
  obtain ⟨entries, hentries, rfl⟩ := Option.map_eq_some_iff.mp h
  refine ⟨Assoc.nodup_ofPairs entries, ?_⟩
  intro e he
  rcases Assoc.mem_putAll he with he | he
  · exact absurd he List.not_mem_nil
  · exact isEntry_of_entries? hentries e he

/-! ## What is printed -/

/-- An entry as it is printed. -/
def entryText (e : Text × Text) : Text := e.1 ++ ':' :: ' ' :: e.2

/-- An empty value is written as the blank behind the colon. -/
theorem IsEntry.entry {e : Text × Text} (he : IsEntry e) (back : Text) (hback : Text.allBlank back = true) :
    Entry e (' ' :: entryText e ++ back) := by
  obtain ⟨name, value⟩ := e
  have hname : Padded name (' ' :: name) := by
    simpa using Padded.around (t := name) [' '] [] (by decide) rfl
  have hvalue : ∃ written, IsWritten written ∧ Padded written (' ' :: value ++ back) ∧ Text.strip written = value := by
    have hafter : Padded value (' ' :: value ++ back) := .around [' '] back (by decide) hback
    cases he.value with
    | literal hq ht => exact ⟨_, .literal hq ht, hafter, strip_quoted hq _⟩
    | run ht hs =>
      by_cases hne : value = []
      · subst hne
        exact ⟨[' '], .run (by decide) (by decide), .around [] back rfl hback, by decide⟩
      · exact ⟨value, .run hne ht, hafter, hs⟩
  obtain ⟨written, hwritten, hpadded, rfl⟩ := hvalue
  simpa [entryText] using Entry.pair he.key hname hwritten hpadded

/-- What follows a value in a printed object, and what is left behind it: a comma and the next entries, or the blank
before the closing braces. -/
inductive Follows : Text → Text → Prop
  | comma (rest : Text) : Follows (',' :: rest) rest
  | last : Follows [' '] []

theorem not_allBlank_entryText (e : Text × Text) (tail : Text) :
    Text.allBlank (' ' :: entryText e ++ tail) = false := by
  have hcolon : ':' ∈ ' ' :: entryText e ++ tail := by simp [entryText]
  rw [Text.allBlank, List.all_eq_false]
  exact ⟨':', hcolon, by decide⟩

theorem entry?_of_isEntry {e : Text × Text} (he : IsEntry e) {tail rest : Text} (h : Follows tail rest) :
    entry? (' ' :: entryText e ++ tail) = some (e, rest) := by
  cases h with
  | comma => simpa using entry?_of_entry (he.entry [] rfl) (.comma rest)
  | last => simpa using entry?_of_entry (he.entry [' '] (by decide)) .last

/-! ## Objects -/

/-- What stands between the double braces of a printed object. -/
def inside (entries : Assoc Text) : Text := ' ' :: body entries ++ [' ']

theorem print_eq (entries : Assoc Text) :
    print entries = '\x7b' :: '\x7b' :: inside entries ++ ['\x7d', '\x7d'] := by
  simp [print, inside]

theorem inside_singleton (e : Text × Text) : inside [e] = ' ' :: entryText e ++ [' '] := rfl

theorem inside_cons_cons (e next : Text × Text) (entries : Assoc Text) :
    inside (e :: next :: entries) = ' ' :: entryText e ++ ',' :: inside (next :: entries) := by
  have hbody : body (e :: next :: entries) = entryText e ++ ", ".toList ++ body (next :: entries) := rfl
  rw [inside, inside, hbody]
  simp

/-- Each printed entry is followed by the others, printed, or by the end. -/
theorem inside_cons (e : Text × Text) (entries : Assoc Text) :
    ∃ tail rest, inside (e :: entries) = ' ' :: entryText e ++ tail ∧ Follows tail rest ∧
      (entries = [] ∧ rest = [] ∨ entries ≠ [] ∧ rest = inside entries) := by
  cases entries with
  | nil => exact ⟨[' '], [], inside_singleton e, .last, .inl ⟨rfl, rfl⟩⟩
  | cons next entries =>
    exact ⟨_, _, inside_cons_cons e next entries, .comma _, .inr ⟨List.cons_ne_nil _ _, rfl⟩⟩

theorem body_inside {entries : Assoc Text} (h : ∀ e ∈ entries, IsEntry e) : Body entries (inside entries) := by
  induction entries with
  | nil => exact .blank (by decide)
  | cons e entries ih =>
    obtain ⟨he, hrest⟩ := List.forall_mem_cons.mp h
    cases entries with
    | nil => exact .last (he.entry [' '] (by decide))
    | cons next entries =>
      rw [inside_cons_cons]
      exact .more (by simpa using he.entry [] rfl) (ih hrest)

theorem entries?_inside {entries : Assoc Text} (h : ∀ e ∈ entries, IsEntry e) :
    entries? (inside entries).length (inside entries) = some entries :=
  entries?_of_body (body_inside h) (Nat.le_refl _)

/-- Entries of the form are read back from the object that they are printed as. -/
theorem parse?_inside {entries : Assoc Text} (hkeys : (Assoc.keys entries).Nodup) (h : ∀ e ∈ entries, IsEntry e) :
    parse? (inside entries) = some entries := by
  rw [parse?, entries?_inside h, Option.map_some, Assoc.ofPairs_of_nodup hkeys]

/-- Printed entries with keys that are apart and values of the form are read back iff the keys are of the form too. -/
theorem parse?_inside_iff {entries : Assoc Text} (hkeys : (Assoc.keys entries).Nodup)
    (hvalues : ∀ e ∈ entries, IsValue e.2) :
    parse? (inside entries) = some entries ↔ ∀ key ∈ Assoc.keys entries, IsKey key := by
  constructor
  · intro h key hkey
    obtain ⟨e, he, rfl⟩ := List.mem_map.mp hkey
    exact ((isEntry_of_parse? h).2 e he).key
  · intro h
    refine parse?_inside hkeys ?_
    intro e he
    exact ⟨h e.1 (List.mem_map_of_mem he), hvalues e he⟩

/-! ## Round trip -/

/-- Values that an object may be given: the literal of any value, and what has been read from some object. -/
inductive IsGiven : Text → Prop
  | literal (v : Value) : IsGiven (valueLiteral v)
  | read {t key value : Text} {m : Assoc Text} (h : parse? t = some m) (he : (key, value) ∈ m) : IsGiven value

theorem IsGiven.isValue {value : Text} (h : IsGiven value) : IsValue value := by
  cases h with
  | literal v => exact isValue_literal _
  | read h he => exact ((isEntry_of_parse? h).2 _ he).value

/-- Entries with keys of the grammar, no two of them the same, and with such values come back from the object that they
are printed as, in their order. What has been read from any object at all comes back too. -/
theorem parse?_print {entries : Assoc Text} (hkeys : (entries.map (·.1)).Nodup)
    (hentries : ∀ e ∈ entries, IsKey e.1 ∧ IsGiven e.2) :
    (∃ between, print entries = '\x7b' :: '\x7b' :: between ++ ['\x7d', '\x7d'] ∧ parse? between = some entries) ∧
      ∀ t m, parse? t = some m →
        ∃ between, print m = '\x7b' :: '\x7b' :: between ++ ['\x7d', '\x7d'] ∧ parse? between = some m := by
  refine ⟨⟨_, print_eq entries, parse?_inside hkeys ?_⟩, ?_⟩
  · intro e he
    obtain ⟨hkey, hvalue⟩ := hentries e he
    exact ⟨hkey, hvalue.isValue⟩
  · intro t m h
    obtain ⟨hapart, hform⟩ := isEntry_of_parse? h
    exact ⟨_, print_eq m, parse?_inside hapart hform⟩

/-- A text that looks like another entry, an empty value and an expression, under keys of each kind. -/
theorem parse?_print_of_mixed_entries :
    let entries : Assoc Text := [("color".toList, valueLiteral (.str " it's, b: '\\\n".toList)),
      ("'--a, b:'".toList, []), ("$é1".toList, "x > 0 ? y : (z)".toList)]
    (entries.map (·.1)).Nodup ∧ (∀ e ∈ entries, IsKey e.1 ∧ IsGiven e.2) ∧
      ∃ between, print entries = '\x7b' :: '\x7b' :: between ++ ['\x7d', '\x7d'] ∧ parse? between = some entries := by
  intro entries
  have hkeys : (entries.map (·.1)).Nodup := by decide
  have hentries : ∀ e ∈ entries, IsKey e.1 ∧ IsGiven e.2 := by
    have hempty : parse? "a: ,".toList = some [("a".toList, [])] := by decide
    have hrun : parse? " a:x > 0 ? y : (z) ".toList = some [("a".toList, "x > 0 ? y : (z)".toList)] := by decide
    intro e he
    simp only [entries, List.mem_cons, List.not_mem_nil, or_false] at he
    rcases he with rfl | rfl | rfl
    · exact ⟨.identifier (by decide) (by decide), .literal _⟩
    · exact ⟨.quoted (.inl rfl) (by decide : '\'' ∉ "--a, b:".toList), .read hempty List.mem_cons_self⟩
    · exact ⟨.identifier (by decide) (by decide), .read hrun List.mem_cons_self⟩
  exact ⟨hkeys, hentries, (parse?_print hkeys hentries).1⟩

end LiveEdit.Style
