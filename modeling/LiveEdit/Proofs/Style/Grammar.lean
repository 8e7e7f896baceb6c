/-
  LiveEdit.Proofs.Style.Grammar — the grammar of flat style objects.

  `Body` says what stands between the braces of an object, apart from the functions that read it: blanks, or entries
  with a comma between them and perhaps one behind the last. Each reader takes a text of its form and leaves what is
  behind it (`IsKey`, `IsWritten`, `Entry`, and `Ends` for what may follow), and takes every such text. So the entries
  that are read are those of the grammar (`entries?_eq_some_iff`), which gives no text two readings (`Body.unique`), and
  an object is read iff it is of the grammar (`parse?_iff_body`).
-/

import LiveEdit.Proofs.Assoc
import LiveEdit.Proofs.Style.StringLiteral
import LiveEdit.Proofs.Text.Case
import LiveEdit.Proofs.Text.Strip

namespace LiveEdit.Style

/-! ## The grammar -/

/-- An identifier, or a text between quotation marks that is free of them. -/
inductive IsKey : Text → Prop
  | identifier {c : Char} {t : Text} (hc : startsIdentifier c = true) (ht : t.all continuesIdentifier = true) :
      IsKey (c :: t)
  | quoted {quote : Char} {t : Text} (hq : quote = '\'' ∨ quote = '"') (ht : quote ∉ t) : IsKey (quote :: t ++ [quote])

/-- A value as it is written: a whole string literal, or a run without commas and quotes that may be blank, but is not
empty. -/
inductive IsWritten : Text → Prop
  | literal {quote : Char} {t : Text} (hq : quote = '\'' ∨ quote = '"') (ht : LiteralBody quote t) :
      IsWritten (quote :: t ++ [quote])
  | run {t : Text} (hne : t ≠ []) (ht : t.all isPlain = true) : IsWritten t

/-- The text with blanks around it. -/
inductive Padded (t : Text) : Text → Prop
  | around (front back : Text) (hfront : Text.allBlank front = true) (hback : Text.allBlank back = true) :
      Padded t (front ++ t ++ back)

/-- An entry as it is written: a key, a colon and a value, with blanks wherever they may stand. -/
inductive Entry : Text × Text → Text → Prop
  | pair {name written key value : Text} (hname : IsKey name) (hkey : Padded name key) (hwritten : IsWritten written)
      (hvalue : Padded written value) : Entry (name, Text.strip written) (key ++ ':' :: value)

/-- The entries of a text, in their order. Behind the last one there may be a comma, and then nothing but blanks. -/
inductive Body : List (Text × Text) → Text → Prop
  | blank {t : Text} (h : Text.allBlank t = true) : Body [] t
  | last {e : Text × Text} {t : Text} (h : Entry e t) : Body [e] t
  | more {e : Text × Text} {entries : List (Text × Text)} {t rest : Text} (h : Entry e t) (hrest : Body entries rest) :
      Body (e :: entries) (t ++ ',' :: rest)

/-- What stands behind an entry, and the text that it leaves to the entries that follow. -/
inductive Ends : Text → Text → Prop
  | last : Ends [] []
  | comma (rest : Text) : Ends (',' :: rest) rest

variable {t tail rest : Text}

theorem Padded.refl (t : Text) : Padded t t := by simpa using Padded.around (t := t) [] [] rfl rfl

theorem entryEnd?_eq_some_iff : entryEnd? tail = some rest ↔ Ends tail rest := by
  constructor
  · intro h
    cases tail with
    | nil =>
      cases h
      exact .last
    | cons c tail =>
      simp only [entryEnd?, Option.ite_none_right_eq_some, Option.some.injEq] at h
      obtain ⟨rfl, rfl⟩ := h
      exact .comma _
  · rintro (_ | _) <;> rfl

theorem Ends.head (h : Ends tail rest) : ∀ c ∈ tail.head?, c = ',' := by
  cases h <;> simp

/-! ## Characters -/

theorem startsIdentifier_not_blank {c : Char} (h : startsIdentifier c = true) : Text.isBlank c = false := by
  have hc : c.toNat < 128 := by
    simp only [startsIdentifier, Bool.or_eq_true, decide_eq_true_eq] at h
    rcases h with (h | rfl) | rfl
    · exact Text.ascii_of_isAlpha h
    · decide
    · decide
  exact Text.ascii_forall (P := fun c => startsIdentifier c = true → Text.isBlank c = false) (by decide) hc h

/-- The code points of the blanks. -/
def blankCodes : List Nat :=
  [9, 10, 11, 12, 13, 28, 29, 30, 31, 32, 0x85, 0xa0, 0x1680, 0x2000, 0x2001, 0x2002, 0x2003, 0x2004, 0x2005, 0x2006,
    0x2007, 0x2008, 0x2009, 0x200a, 0x2028, 0x2029, 0x202f, 0x205f, 0x3000]

theorem toNat_mem_blankCodes {c : Char} (h : Text.isBlank c = true) : c.toNat ∈ blankCodes := by
  simp only [Text.isBlank, Text.isSpace, Bool.or_eq_true, Bool.and_eq_true, decide_eq_true_eq] at h
  simp only [blankCodes, List.mem_cons, List.not_mem_nil, or_false]
  split at h <;> simp only [Bool.or_eq_true, Bool.and_eq_true, decide_eq_true_eq] at h <;> omega

/-- A blank ends an identifier, and belongs to a run. -/
theorem blank_ends_identifier {c : Char} (h : Text.isBlank c = true) :
    continuesIdentifier c = false ∧ isPlain c = true := by
  have hall : ∀ n ∈ blankCodes, continuesIdentifier (Char.ofNat n) = false ∧ isPlain (Char.ofNat n) = true := by
    decide +kernel
  simpa only [Char.ofNat_toNat] using hall c.toNat (toNat_mem_blankCodes h)

theorem quote_not_blank {quote : Char} (hq : quote = '\'' ∨ quote = '"') : Text.isBlank quote = false := by
  rcases hq with rfl | rfl <;> decide

theorem IsKey.starts {key : Text} (h : IsKey key) : ∃ c t, key = c :: t ∧ Text.isBlank c = false := by
  cases h with
  | identifier hc ht => exact ⟨_, _, rfl, startsIdentifier_not_blank hc⟩
  | quoted hq ht => exact ⟨_, _, rfl, quote_not_blank hq⟩

/-- A literal is a value without blanks at its ends. -/
theorem strip_quoted {quote : Char} (hq : quote = '\'' ∨ quote = '"') (t : Text) :
    Text.strip (quote :: t ++ [quote]) = quote :: t ++ [quote] := by
  refine (Text.strip_eq_self_iff _).mpr ⟨fun c hc => ?_, fun c hc => ?_⟩
  · obtain rfl : quote = c := Option.some.inj hc
    exact quote_not_blank hq
  · obtain rfl : quote = c := Option.some.inj (List.getLast?_concat.symm.trans hc)
    exact quote_not_blank hq

/-! ## What is read is of the grammar -/

theorem exists_skipped (t : Text) : ∃ front, Text.allBlank front = true ∧ t = front ++ skipBlanks t :=
  ⟨t.takeWhile Text.isBlank, List.all_takeWhile, List.takeWhile_append_dropWhile.symm⟩

theorem isKey_of_untilQuote? {quote : Char} (hq : quote = '\'' ∨ quote = '"') {key : Text}
    (h : untilQuote? quote t = some (key, rest)) : IsKey key ∧ quote :: t = key ++ rest := by
  unfold untilQuote? at h
  split at h
  · cases h
  · rename_i c left hleft
    cases h
    have hc := List.head?_dropWhile_not (fun c => decide (c ≠ quote)) t
    rw [hleft] at hc
    obtain rfl : c = quote := by simpa using hc
    refine ⟨.quoted hq fun hm => ?_, ?_⟩
    · simpa using List.mem_takeWhile_imp hm
    · have ht := List.takeWhile_append_dropWhile (p := fun d => decide (d ≠ c)) (l := t)
      rw [hleft] at ht
      simpa using ht.symm

theorem isKey_of_key? {key : Text} (h : key? t = some (key, rest)) : IsKey key ∧ t = key ++ rest := by
  unfold key? at h
  split at h
  · cases h
  · rename_i c u
    split at h
    · rename_i hc
      cases h
      exact ⟨.identifier hc List.all_takeWhile, congrArg (c :: ·) List.takeWhile_append_dropWhile.symm⟩
    · simp only [Option.ite_none_right_eq_some, Bool.or_eq_true, decide_eq_true_eq] at h
      exact isKey_of_untilQuote? h.1 h.2

/-- A value and what it leaves: the text is the value with blanks around it, and the end of an entry. -/
def Valued (t value rest : Text) : Prop :=
  ∃ written text tail, t = text ++ tail ∧ IsWritten written ∧ Padded written text ∧ value = Text.strip written ∧
    Ends tail rest

theorem valued_of_run? {value : Text} (h : run? t = some (value, rest)) : Valued t value rest := by
  unfold run? at h
  split at h
  · cases h
  · rename_i hne
    obtain ⟨left, hleft, he⟩ := Option.map_eq_some_iff.mp h
    cases he
    exact ⟨t.takeWhile isPlain, t.takeWhile isPlain, t.dropWhile isPlain, List.takeWhile_append_dropWhile.symm,
      .run (by simpa using hne) List.all_takeWhile, .refl _, rfl, entryEnd?_eq_some_iff.mp hleft⟩

theorem valued_of_value? {value : Text} (h : value? t = some (value, rest)) : Valued t value rest := by
  unfold value? at h
  split at h
  · exact valued_of_run? h
  · rename_i c u hskip
    split at h
    · rename_i hc
      obtain ⟨⟨inside, left⟩, hread, h⟩ := Option.bind_eq_some_iff.mp h
      obtain ⟨left', hend, h⟩ := Option.bind_eq_some_iff.mp h
      cases h
      have hq : c = '\'' ∨ c = '"' := by simpa using hc
      have hb : c ≠ '\\' := by
        rintro rfl
        exact absurd hc (by decide)
      obtain ⟨body, hbody, rfl, rfl⟩ := body_of_literalRest? hb hread
      obtain ⟨front, hfront, ht⟩ := exists_skipped t
      obtain ⟨back, hback, hleft⟩ := exists_skipped left
      refine ⟨c :: body ++ [c], _, skipBlanks left, ?_, .literal hq hbody, .around _ _ hfront hback, ?_,
        entryEnd?_eq_some_iff.mp hend⟩
      · rw [hskip, hleft] at ht
        simpa using ht
      · exact (strip_quoted hq body).symm
    · exact valued_of_run? h

theorem entry_of_entry? {e : Text × Text} (h : entry? t = some (e, rest)) :
    ∃ piece tail, t = piece ++ tail ∧ Entry e piece ∧ Ends tail rest := by
  obtain ⟨⟨key, left⟩, hkey, h⟩ := Option.bind_eq_some_iff.mp h
  simp only at h
  split at h
  · rename_i u hu
    obtain ⟨⟨value, left'⟩, hvalue, h⟩ := Option.bind_eq_some_iff.mp h
    cases h
    obtain ⟨hname, hcut⟩ := isKey_of_key? hkey
    obtain ⟨written, text, tail, rfl, hwritten, hpadded, rfl, hend⟩ := valued_of_value? hvalue
    obtain ⟨front, hfront, ht⟩ := exists_skipped t
    obtain ⟨back, hback, hleft⟩ := exists_skipped left
    refine ⟨_, tail, ?_, .pair hname (.around _ _ hfront hback) hwritten hpadded, hend⟩
    rw [hcut, hleft, hu] at ht
    simpa using ht
  · cases h

theorem entries?_of_allBlank (h : Text.allBlank t = true) (fuel : Nat) : entries? fuel t = some [] := by
  cases fuel <;> exact if_pos h

theorem body_of_entries? {fuel : Nat} {entries : List (Text × Text)} (h : entries? fuel t = some entries) :
    Body entries t := by
  induction fuel generalizing t entries with
  | zero =>
    unfold entries? at h
    split at h
    · rename_i hblank
      cases h
      exact .blank hblank
    · cases h
  | succ fuel ih =>
    unfold entries? at h
    split at h
    · rename_i hblank
      cases h
      exact .blank hblank
    · obtain ⟨⟨first, rest⟩, hfirst, h⟩ := Option.bind_eq_some_iff.mp h
      obtain ⟨others, hothers, h⟩ := Option.bind_eq_some_iff.mp h
      cases h
      obtain ⟨piece, tail, rfl, hpiece, hend⟩ := entry_of_entry? hfirst
      cases hend with
      | comma => exact .more hpiece (ih hothers)
      | last =>
        -- Behind the end of the text there is no entry.
        obtain rfl : [] = others := Option.some.inj ((entries?_of_allBlank List.all_nil fuel).symm.trans hothers)
        rw [List.append_nil]
        exact .last hpiece

/-! ## What is of the grammar is read -/

theorem skipBlanks_append {front : Text} (hfront : Text.allBlank front = true)
    (htail : ∀ c ∈ tail.head?, Text.isBlank c = false) : skipBlanks (front ++ tail) = tail :=
  (Text.run_append hfront htail).2

theorem Ends.skipBlanks_append (h : Ends tail rest) {back : Text} (hback : Text.allBlank back = true) :
    skipBlanks (back ++ tail) = tail :=
  Style.skipBlanks_append hback fun c hc => by
    rw [h.head c hc]
    decide

theorem key?_of_isKey {key : Text} (h : IsKey key) (htail : ∀ c ∈ tail.head?, continuesIdentifier c = false) :
    key? (key ++ tail) = some (key, tail) := by
  cases h with
  | @identifier c t hc ht =>
    obtain ⟨htake, hdrop⟩ := Text.run_append ht htail
    rw [List.cons_append, key?, if_pos hc, htake, hdrop]
  | @quoted quote t hq ht =>
    have hall : t.all (fun c => decide (c ≠ quote)) = true := by
      rw [List.all_eq_true]
      intro c hc
      have : c ≠ quote := fun he => ht (he ▸ hc)
      simpa using this
    have hquote : ∀ c ∈ (quote :: tail).head?, decide (c ≠ quote) = false := by simp
    obtain ⟨htake, hdrop⟩ := Text.run_append hall hquote
    have hstart : startsIdentifier quote = false := by
      rcases hq with rfl | rfl <;> decide
    rw [List.append_assoc, List.cons_append, key?, if_neg (by simp [hstart]), if_pos (by simpa using hq), untilQuote?]
    simp only [List.singleton_append, htake, hdrop]

theorem Padded.strip_eq {written text : Text} (h : Padded written text) : Text.strip text = Text.strip written := by
  cases h with
  | around front back hfront hback => exact Text.strip_of_blanks hfront hback written

theorem Padded.ne_nil {written text : Text} (h : Padded written text) (hne : written ≠ []) : text ≠ [] := by
  cases h with
  | around => simp [hne]

theorem Padded.all_isPlain {written text : Text} (h : Padded written text) (hw : written.all isPlain = true) :
    text.all isPlain = true := by
  have hblank : ∀ b : Text, Text.allBlank b = true → b.all isPlain = true := by
    intro b hb
    exact List.all_eq_true.mpr fun c hc => (blank_ends_identifier (List.all_eq_true.mp hb c hc)).2
  cases h with
  | around front back hfront hback =>
    rw [List.all_append, List.all_append, hblank _ hfront, hw, hblank _ hback]
    rfl

/-- The first character behind the blanks in front of an entry's end is one of the run before it, or the comma. -/
theorem Ends.head_skipBlanks (h : Ends tail rest) {run u : Text} {c : Char}
    (hskip : skipBlanks (run ++ tail) = c :: u) : c ∈ run ∨ c = ',' := by
  cases h with
  | last =>
    left
    rw [List.append_nil] at hskip
    exact (List.dropWhile_suffix _).subset (hskip ▸ List.mem_cons_self)
  | comma rest =>
    rw [skipBlanks, Text.dropWhile_append_cons (by decide)] at hskip
    cases hrun : run.dropWhile Text.isBlank with
    | nil =>
      rw [hrun] at hskip
      exact .inr (List.cons.inj hskip).1.symm
    | cons d v =>
      rw [hrun] at hskip
      obtain rfl : d = c := (List.cons.inj hskip).1
      exact .inl ((List.dropWhile_suffix _).subset (hrun ▸ List.mem_cons_self))

/-- Where a run begins no literal does, so that it is read as a run. -/
theorem value?_of_run {run : Text} (hne : run ≠ []) (hrun : run.all isPlain = true) (h : Ends tail rest) :
    value? (run ++ tail) = some (Text.strip run, rest) := by
  have hcomma : ∀ c ∈ tail.head?, isPlain c = false := by
    intro c hc
    rw [h.head c hc]
    decide
  obtain ⟨htake, hdrop⟩ := Text.run_append hrun hcomma
  have hread : run? (run ++ tail) = some (Text.strip run, rest) := by
    rw [run?, htake, hdrop, if_neg (by simpa using hne), entryEnd?_eq_some_iff.mpr h]
    rfl
  unfold value?
  split
  · exact hread
  · rename_i c u hskip
    have hquote : c ≠ '\'' ∧ c ≠ '"' := by
      rcases h.head_skipBlanks hskip with hc | rfl
      · have hc := List.all_eq_true.mp hrun c hc
        simp only [isPlain, Bool.and_eq_true, decide_eq_true_eq] at hc
        exact ⟨hc.1.2, hc.2⟩
      · decide
    rw [if_neg (by simpa using hquote)]
    exact hread

theorem value?_of_isWritten {written text : Text} (hw : IsWritten written) (hp : Padded written text)
    (h : Ends tail rest) : value? (text ++ tail) = some (Text.strip written, rest) := by
  cases hw with
  | @literal quote t hq ht =>
    obtain ⟨front, back, hfront, hback⟩ := hp
    have hb : quote ≠ '\\' := by rcases hq with rfl | rfl <;> decide
    have hskip : skipBlanks (front ++ (quote :: t ++ [quote]) ++ back ++ tail) =
        quote :: (t ++ quote :: (back ++ tail)) := by
      have hskip : skipBlanks (front ++ quote :: (t ++ quote :: (back ++ tail))) =
          quote :: (t ++ quote :: (back ++ tail)) := skipBlanks_append hfront (by simp [quote_not_blank hq])
      simpa using hskip
    have hquote : (decide (quote = '\'') || decide (quote = '"')) = true := by simpa using hq
    rw [value?, hskip, strip_quoted hq]
    simp only [hquote, if_true, literalRest?_of_body hb ht, h.skipBlanks_append hback, entryEnd?_eq_some_iff.mpr h,
      Option.bind_eq_bind, Option.bind_some, Option.pure_def, List.cons_append]
  | run hne ht =>
    rw [← hp.strip_eq]
    exact value?_of_run (hp.ne_nil hne) (hp.all_isPlain ht) h

theorem entry?_of_entry {e : Text × Text} {piece : Text} (he : Entry e piece) (h : Ends tail rest) :
    entry? (piece ++ tail) = some (e, rest) := by
  obtain ⟨hname, ⟨front, back, hfront, hback⟩, hwritten, hvalue⟩ := he
  rename_i name written value
  obtain ⟨c, u, hstart, hc⟩ := hname.starts
  have hskip : skipBlanks (front ++ name ++ back ++ ':' :: value ++ tail) =
      name ++ (back ++ ':' :: (value ++ tail)) := by
    have hskip : skipBlanks (front ++ (name ++ (back ++ ':' :: (value ++ tail)))) =
        name ++ (back ++ ':' :: (value ++ tail)) := skipBlanks_append hfront (by simp [hstart, hc])
    simpa using hskip
  have hkey : ∀ c ∈ (back ++ ':' :: (value ++ tail)).head?, continuesIdentifier c = false := by
    intro c hc
    cases back with
    | nil =>
      obtain rfl : ':' = c := Option.some.inj hc
      decide
    | cons d back =>
      obtain rfl : d = c := Option.some.inj hc
      exact (blank_ends_identifier (Bool.and_eq_true_iff.mp hback).1).1
  have hcolon : skipBlanks (back ++ ':' :: (value ++ tail)) = ':' :: (value ++ tail) :=
    skipBlanks_append hback (by simp +decide)
  rw [ entry?, hskip, key?_of_isKey hname hkey]
  simp only [Option.bind_eq_bind, Option.bind_some, hcolon, value?_of_isWritten hwritten hvalue h, Option.pure_def]

/-- The colon of an entry is no blank. -/
theorem Entry.not_allBlank {e : Text × Text} {piece : Text} (he : Entry e piece) (tail : Text) :
    Text.allBlank (piece ++ tail) = false := by
  cases he with
  | pair => exact List.all_eq_false.mpr ⟨':', by simp, by decide⟩

theorem Entry.length_pos {e : Text × Text} {piece : Text} (he : Entry e piece) : 0 < piece.length := by
  cases he with
  | pair =>
    rw [List.length_append, List.length_cons]
    omega

/-- One entry is read, and then those that follow its end. -/
theorem entries?_of_entry {e : Text × Text} {piece : Text} (he : Entry e piece) (h : Ends tail rest) (fuel : Nat) :
    entries? (fuel + 1) (piece ++ tail) = (entries? fuel rest).map (e :: ·) := by
  rw [entries?, if_neg (by simp [he.not_allBlank]), entry?_of_entry he h]
  simp only [Option.bind_eq_bind, Option.bind_some, Option.pure_def]
  cases entries? fuel rest <;> rfl

theorem entries?_of_body {entries : List (Text × Text)} (h : Body entries t) {fuel : Nat} (hfuel : t.length ≤ fuel) :
    entries? fuel t = some entries := by
  induction h generalizing fuel with
  | blank h => exact entries?_of_allBlank h fuel
  | @last e t h =>
    have hpos := h.length_pos
    obtain ⟨fuel, rfl⟩ := Nat.exists_eq_add_one_of_ne_zero (by omega : fuel ≠ 0)
    have hread := entries?_of_entry h .last fuel
    rw [List.append_nil, entries?_of_allBlank List.all_nil] at hread
    exact hread
  | @more e entries t rest h hrest ih =>
    rw [List.length_append, List.length_cons] at hfuel
    obtain ⟨fuel, rfl⟩ := Nat.exists_eq_add_one_of_ne_zero (by omega : fuel ≠ 0)
    rw [entries?_of_entry h (.comma rest), ih (by omega)]
    rfl

/-! ## Objects -/

/-- The entries that are read are those of the grammar. -/
theorem entries?_eq_some_iff {fuel : Nat} (hfuel : t.length ≤ fuel) {entries : List (Text × Text)} :
    entries? fuel t = some entries ↔ Body entries t :=
  ⟨body_of_entries?, fun h => entries?_of_body h hfuel⟩

/-- No text has two readings. -/
theorem Body.unique {es es' : List (Text × Text)} (h : Body es t) (h' : Body es' t) : es = es' :=
  Option.some.inj ((entries?_of_body h (Nat.le_refl _)).symm.trans (entries?_of_body h' (Nat.le_refl _)))

/-- An object is read iff it is of the grammar, which it then is in one way only. What is read holds its entries in the
order in which their keys occur first, each with the value that its key has last. -/
theorem parse?_iff_body (t : Text) :
    ((parse? t).isSome = true ↔ ∃! entries, Body entries t) ∧
      ∀ m, parse? t = some m ↔ ∃ entries, Body entries t ∧ Assoc.LastWins entries m := by
  have hread : ∀ m, parse? t = some m ↔ ∃ entries, Body entries t ∧ Assoc.LastWins entries m := by
    intro m
    simp only [parse?, Option.map_eq_some_iff, entries?_eq_some_iff (Nat.le_refl _), Assoc.ofPairs_eq_iff]
  refine ⟨?_, hread⟩
  rw [Option.isSome_iff_exists]
  constructor
  · rintro ⟨m, hm⟩
    obtain ⟨entries, hbody, -⟩ := (hread m).mp hm
    exact ⟨entries, hbody, fun _ h => h.unique hbody⟩
  · rintro ⟨entries, hbody, -⟩
    exact ⟨_, (hread _).mpr ⟨entries, hbody, Assoc.ofPairs_eq_iff.mp rfl⟩⟩

/-- A key that is repeated, blanks, and a comma behind the last entry. -/
example : parse? " a : 'b, c' ,\n'--d':\t1px solid,a: ,".toList =
    some [("a".toList, []), ("'--d'".toList, "1px solid".toList)] := by decide +kernel

end LiveEdit.Style
