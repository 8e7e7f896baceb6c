/-
  LiveEdit.Proofs.Json.Reading — texts that are read as a value, said without the reader.

  `Spells` gives the texts of a value: members stand between two brackets with commas between them and blanks around
  them (`Gaps`). The reader finds every value in its texts, with any text behind it that does not go on with a number
  (`Spells.reads`), and so reads them as documents (`Spells.read_eq`). Lists and mappings are read in the same way, with
  readers of their own for the members (`ReadsMember`, `Encloses.reads`). Fuel of twice the length is enough: a member is
  shorter than its list by the brackets, and a list without its first member by that member and its comma.
-/

import LiveEdit.Proofs.Assoc
import LiveEdit.Proofs.Json.Number
import LiveEdit.Proofs.Json.String

namespace LiveEdit.Json

/-! ## Blanks -/

def Blank (t : Text) : Prop := ∀ c ∈ t, isJsonSpace c = true

theorem skipSpace_append {blanks : Text} (h : Blank blanks) (t : Text) : skipSpace (blanks ++ t) = skipSpace t :=
  List.dropWhile_append_of_pos h

theorem skipSpace_cons {c : Char} (h : isJsonSpace c = false) (t : Text) : skipSpace (c :: t) = c :: t := by
  simp [skipSpace, h]

theorem skipSpace_blank_cons {blanks : Text} (hb : Blank blanks) {c : Char} (h : isJsonSpace c = false) (t : Text) :
    skipSpace (blanks ++ c :: t) = c :: t := by
  rw [skipSpace_append hb, skipSpace_cons h]

theorem endsNumber_cons {c : Char} (hc : c.isDigit = false ∧ c ≠ '.' ∧ c ≠ 'e' ∧ c ≠ 'E') (t : Text) :
    EndsNumber (c :: t) := by
  intro d hd
  cases hd
  exact hc

theorem endsNumber_blank_cons {blanks : Text} (hb : Blank blanks) {c : Char}
    (hc : c.isDigit = false ∧ c ≠ '.' ∧ c ≠ 'e' ∧ c ≠ 'E') (t : Text) : EndsNumber (blanks ++ c :: t) := by
  cases blanks with
  | nil => exact endsNumber_cons hc t
  | cons b blanks =>
    have hspace := hb b List.mem_cons_self
    simp only [isJsonSpace, Bool.or_eq_true, decide_eq_true_eq] at hspace
    refine endsNumber_cons ?_ (blanks ++ c :: t)
    rcases hspace with ((rfl | rfl) | rfl) | rfl <;> decide

/-! ## Texts of values -/

/-- The blanks in front of the first member, between a comma and the next member, and behind the last one. -/
structure Gaps where
  before : Text
  between : Text
  after : Text
  blank : Blank before ∧ Blank between ∧ Blank after

/-- Members between two brackets. -/
def Gaps.enclose (g : Gaps) (opening closing : Char) (members : List Text) : Text :=
  opening :: (g.before ++ Text.joinWith (',' :: g.between) members ++ g.after ++ [closing])

/-- A key and the text of its value. -/
def entryText (key t : Text) : Text := string key ++ ':' :: ' ' :: t

/-- The text is one for the value. Numbers with a fraction are left out. -/
inductive Spells : Value → Text → Prop
  | null : Spells .null "null".toList
  | bool (b : Bool) : Spells (.bool b) (if b then "true" else "false").toList
  | int (n : Int) : Spells (.int n) (Value.intText n)
  | special {x : Double} (h : x.isFinite = false) : Spells (.float x) (number x)
  | str (t : Text) : Spells (.str t) (string t)
  | list (g : Gaps) {members : List (Value × Text)} (h : ∀ m ∈ members, Spells m.1 m.2) :
      Spells (.list (members.map (·.1))) (g.enclose '[' ']' (members.map (·.2)))
  | map (g : Gaps) {members : List (Text × Value × Text)} (h : ∀ m ∈ members, Spells m.2.1 m.2.2)
      (hkeys : (Assoc.keys members).Nodup) :
      Spells (.map (members.map fun m => (m.1, m.2.1)))
        (g.enclose '\x7b' '\x7d' (members.map fun m => entryText m.1 m.2.2))

/-- A character that a value can begin with. -/
def Leads (c : Char) : Prop := isJsonSpace c = false ∧ c ≠ ']' ∧ c ≠ '\ufeff'

theorem ne_of_isDigit {c d : Char} (hc : c.isDigit = false) (hd : d.isDigit = true) : d ≠ c := by
  intro he
  rw [he, hc] at hd
  cases hd

theorem leads_of_isDigit {d : Char} (hd : d.isDigit = true) : Leads d := by
  refine ⟨?_, ne_of_isDigit rfl hd, ne_of_isDigit rfl hd⟩
  have hne : ∀ c : Char, c.isDigit = false → d ≠ c := fun c hc => ne_of_isDigit hc hd
  simp [isJsonSpace, hne ' ' rfl, hne '\t' rfl, hne '\n' rfl, hne '\r' rfl]

theorem Spells.leads {v : Value} {t : Text} (h : Spells v t) : ∃ c s, t = c :: s ∧ Leads c := by
  cases h with
  | null => exact ⟨'n', _, rfl, by decide, by decide, by decide⟩
  | bool b => cases b <;> exact ⟨_, _, rfl, by decide, by decide, by decide⟩
  | int n =>
    obtain ⟨d, t, ht, hd, -⟩ := toDigits_head n.natAbs
    unfold Value.intText
    rw [ht]
    split
    · exact ⟨'-', d :: t, rfl, by decide, by decide, by decide⟩
    · exact ⟨d, t, rfl, leads_of_isDigit hd⟩
  | @special x hx =>
    cases x with
    | nan => exact ⟨'N', _, rfl, by decide, by decide, by decide⟩
    | infinite negative => cases negative <;> exact ⟨_, _, rfl, by decide, by decide, by decide⟩
    | finite => cases hx
  | str t => exact ⟨'"', _, rfl, by decide, by decide, by decide⟩
  | list g => exact ⟨'[', _, rfl, by decide, by decide, by decide⟩
  | map g => exact ⟨'\x7b', _, rfl, by decide, by decide, by decide⟩

/-! ## Values without members -/

theorem value_string (fuel : Nat) (s rest : Text) : value (fuel + 1) (string s ++ rest) = .ok (.str s, rest) := by
  have hread := stringAfterQuote_string s rest
  rw [string, List.cons_append, List.cons_append, List.append_assoc, List.singleton_append, value, hread]
  rfl

theorem value_special {x : Double} (h : x.isFinite = false) (fuel : Nat) (rest : Text) :
    value (fuel + 1) (number x ++ rest) = .ok (.float x, rest) := by
  cases x with
  | nan => rfl
  | infinite negative => cases negative <;> rfl
  | finite => cases h

theorem named?_of_isDigit {d : Char} (hd : d.isDigit = true) (t : Text) :
    named? (d :: t) = none ∧ named? ('-' :: d :: t) = none := by
  have hne : ∀ c : Char, c.isDigit = false → c ≠ d := fun c hc => (ne_of_isDigit hc hd).symm
  simp [named?, names, Text.afterStart?, hne 'n' rfl, hne 't' rfl, hne 'f' rfl, hne 'N' rfl, hne 'I' rfl,
    hne '-' rfl]

/-- A text that begins neither a name nor anything in quotes or brackets is read as a number. -/
theorem value_of_number? {fuel : Nat} {c : Char} {t : Text} {result : Value × Text}
    (hc : c ≠ '"' ∧ c ≠ '[' ∧ c ≠ '\x7b') (hnamed : named? (c :: t) = none) (hn : number? (c :: t) = some result) :
    value (fuel + 1) (c :: t) = .ok result := by
  rw [value]
  · rw [hnamed, hn]
  · intro rest he
    cases he
    exact hc.1 rfl
  · intro rest he
    cases he
    exact hc.2.1 rfl
  · intro rest he
    cases he
    exact hc.2.2 rfl

theorem value_intText (fuel : Nat) (n : Int) {rest : Text} (h : EndsNumber rest) :
    value (fuel + 1) (Value.intText n ++ rest) = .ok (.int n, rest) := by
  have hread := number?_intText n h
  obtain ⟨d, t, ht, hd, -⟩ := toDigits_head n.natAbs
  unfold Value.intText at hread ⊢
  rw [ht] at hread ⊢
  split at hread
  · rw [if_pos ‹n < 0›]
    exact value_of_number? (by decide) (named?_of_isDigit hd _).2 hread
  · rw [if_neg ‹¬ n < 0›]
    exact value_of_number? ⟨ne_of_isDigit rfl hd, ne_of_isDigit rfl hd, ne_of_isDigit rfl hd⟩
      (named?_of_isDigit hd _).1 hread

/-! ## Members -/

/-- The reader finds the value in the text, whatever follows. -/
def Reads (v : Value) (t : Text) : Prop :=
  ∀ fuel rest, 2 * t.length ≤ fuel → EndsNumber rest → value fuel (t ++ rest) = .ok (v, rest)

/-- A reader of members finds one in the text, be it the last one or one that others follow. -/
structure ReadsMember {α : Type} (reader : Nat → Text → Except Failure (List α × Text)) (closing : Char) (x : α)
    (t : Text) : Prop where
  begins : ∃ c s, t = c :: s ∧ isJsonSpace c = false ∧ c ≠ closing
  last : ∀ {fuel blanks} rest, 2 * t.length ≤ fuel → Blank blanks →
    reader (fuel + 1) (t ++ (blanks ++ closing :: rest)) = .ok ([x], rest)
  next : ∀ {fuel blanks joined xs rest}, 2 * t.length ≤ fuel → skipSpace (blanks ++ joined) = joined →
    reader fuel joined = .ok (xs, rest) → reader (fuel + 1) (t ++ ',' :: (blanks ++ joined)) = .ok (x :: xs, rest)

section

variable {α : Type} {reader : Nat → Text → Except Failure (List α × Text)} {closing : Char} {fuel : Nat}

/-- Blanks in front of members are passed over, the members are not. -/
theorem ReadsMember.skipSpace_joinWith {x : α} {t blanks : Text} (h : ReadsMember reader closing x t)
    (hb : Blank blanks) (sep : Text) (ts : List Text) (rest : Text) :
    skipSpace (blanks ++ (Text.joinWith sep (t :: ts) ++ rest)) = Text.joinWith sep (t :: ts) ++ rest := by
  obtain ⟨c, s, rfl, hc, -⟩ := h.begins
  rw [Text.joinWith_cons_cons, List.cons_append, skipSpace_blank_cons hb hc]

/-- Members with commas between them are read one after the other. -/
theorem reader_joinWith (g : Gaps) (rest : Text) {m : α × Text} {members : List (α × Text)}
    (h : ∀ n ∈ m :: members, ReadsMember reader closing n.1 n.2)
    (hf : 2 * (Text.joinWith (',' :: g.between) ((m :: members).map (·.2))).length ≤ fuel) :
    reader (fuel + 1) (Text.joinWith (',' :: g.between) ((m :: members).map (·.2)) ++ (g.after ++ closing :: rest)) =
      .ok ((m :: members).map (·.1), rest) := by
  have hm := h m List.mem_cons_self
  induction members generalizing m fuel with
  | nil => exact hm.last rest hf g.blank.2.2
  | cons n members ih =>
    have hn := h n (List.mem_cons_of_mem m List.mem_cons_self)
    have hskip := hn.skipSpace_joinWith g.blank.2.1 (',' :: g.between) (members.map (·.2))
      (g.after ++ closing :: rest)
    have hlength : 2 * (m.2 ++ ',' :: g.between ++
        Text.joinWith (',' :: g.between) ((n :: members).map (·.2))).length ≤ fuel := hf
    simp only [List.length_append, List.length_cons] at hlength
    obtain ⟨fuel, rfl⟩ : ∃ f, fuel = f + 1 := ⟨fuel - 1, by omega⟩
    have hothers := ih (fun k hk => h k (List.mem_cons_of_mem m hk)) (by omega : 2 * _ ≤ fuel) hn
    have hall := hm.next (by omega) hskip hothers
    simpa [Text.joinWith] using hall

theorem enclose_append (g : Gaps) (opening closing : Char) (members : List Text) (rest : Text) :
    g.enclose opening closing members ++ rest =
      opening :: (g.before ++ (Text.joinWith (',' :: g.between) members ++ (g.after ++ closing :: rest))) := by
  simp [Gaps.enclose]

theorem length_enclose (g : Gaps) (opening closing : Char) (members : List Text) :
    (Text.joinWith (',' :: g.between) members).length + 2 ≤ (g.enclose opening closing members).length := by
  simp [Gaps.enclose]
  omega

/-- What a bracket begins is a value without members if the other bracket follows, and otherwise what the reader of
members makes of the text. -/
structure Encloses (reader : Nat → Text → Except Failure (List α × Text)) (opening closing : Char)
    (build : List α → Value) : Prop where
  dense : isJsonSpace closing = false
  empty : ∀ fuel {t rest}, skipSpace t = closing :: rest → value (fuel + 1) (opening :: t) = .ok (build [], rest)
  filled : ∀ fuel {t c s}, skipSpace t = c :: s → c ≠ closing →
    value (fuel + 1) (opening :: t) = (reader fuel (c :: s)).map fun (xs, rest) => (build xs, rest)

theorem Encloses.reads {opening : Char} {build : List α → Value} (hb : Encloses reader opening closing build) (g : Gaps)
    {members : List (α × Text)} (h : ∀ m ∈ members, ReadsMember reader closing m.1 m.2) :
    Reads (build (members.map (·.1))) (g.enclose opening closing (members.map (·.2))) := by
  intro fuel rest hf _
  have hlength := length_enclose g opening closing (members.map (·.2))
  obtain ⟨fuel, rfl⟩ : ∃ f, fuel = f + 2 := ⟨fuel - 2, by omega⟩
  rw [enclose_append]
  cases members with
  | nil =>
    have hskip : skipSpace (g.before ++ (g.after ++ closing :: rest)) = closing :: rest := by
      rw [skipSpace_append g.blank.1, skipSpace_blank_cons g.blank.2.2 hb.dense]
    exact hb.empty (fuel + 1) hskip
  | cons m members =>
    have hm := h m List.mem_cons_self
    have hall := reader_joinWith g rest h (by omega : 2 * _ ≤ fuel)
    have hskip := hm.skipSpace_joinWith g.blank.1 (',' :: g.between) (members.map (·.2)) (g.after ++ closing :: rest)
    obtain ⟨c, s, ht, -, hc⟩ := hm.begins
    rw [List.map_cons] at hall ⊢
    rw [ht, Text.joinWith_cons_cons, List.cons_append] at hall hskip ⊢
    rw [hb.filled (fuel + 1) hskip hc, hall]
    rfl

end

variable {v : Value} {t rest : Text} {fuel : Nat}

/-! ## Items -/

theorem Reads.item (hv : Reads v t) (hs : Spells v t) : ReadsMember items ']' v t where
  begins := by
    obtain ⟨c, s, ht, hc⟩ := hs.leads
    exact ⟨c, s, ht, hc.1, hc.2.1⟩
  last := by
    intro fuel blanks rest hf hb
    rw [items, hv fuel _ hf (endsNumber_blank_cons hb (by decide) rest)]
    simp only [bind, Except.bind, skipSpace_blank_cons hb (c := ']') rfl]
  next := by
    intro fuel blanks joined vs rest hf hskip hothers
    rw [items, hv fuel _ hf (endsNumber_cons (by decide) _)]
    simp only [bind, Except.bind, skipSpace_cons (c := ',') rfl, hskip, hothers]
    rfl

theorem encloses_items : Encloses items '[' ']' Value.list where
  dense := rfl
  empty := by
    intro fuel t rest hskip
    rw [value, hskip]
    rfl
  filled := by
    intro fuel t c s hskip hc
    rw [value, hskip]
    split
    · rename_i he
      cases he
      exact absurd rfl hc
    · rfl

/-! ## Entries -/

theorem entryText_append (key t rest : Text) :
    entryText key t ++ rest = '"' :: (key.flatMap stringChar ++ '"' :: ':' :: ' ' :: (t ++ rest)) := by
  simp [entryText, string]

theorem length_le_entryText (key t : Text) : t.length ≤ (entryText key t).length := by
  simp only [entryText, List.length_append, List.length_cons]
  omega

/-- The blank in front of the value of an entry is passed over. -/
theorem Spells.skipSpace_eq (hs : Spells v t) (rest : Text) : skipSpace (' ' :: (t ++ rest)) = t ++ rest := by
  obtain ⟨c, s, rfl, hc⟩ := hs.leads
  exact @skipSpace_blank_cons [' '] (by simp [Blank, isJsonSpace]) c hc.1 (s ++ rest)

theorem Reads.entry (key : Text) (hv : Reads v t) (hs : Spells v t) :
    ReadsMember entries '\x7d' (key, v) (entryText key t) where
  begins := ⟨'"', _, rfl, rfl, by decide⟩
  last := by
    intro fuel blanks rest hf hb
    have hlength := length_le_entryText key t
    have hread := hv fuel _ (by omega) (endsNumber_blank_cons hb (c := '\x7d') (by decide) rest)
    rw [entryText_append, entries]
    simp only [bind, Except.bind, stringAfterQuote_string, skipSpace_cons (c := ':') rfl, hs.skipSpace_eq, hread,
      skipSpace_blank_cons hb (c := '\x7d') rfl]
  next := by
    intro fuel blanks joined es rest hf hskip hothers
    have hlength := length_le_entryText key t
    have hread := hv fuel _ (by omega) (endsNumber_cons (c := ',') (by decide) (blanks ++ joined))
    rw [entryText_append, entries]
    simp only [bind, Except.bind, stringAfterQuote_string, skipSpace_cons (c := ':') rfl, hs.skipSpace_eq, hread,
      skipSpace_cons (c := ',') rfl, hskip, hothers]
    rfl

theorem encloses_entries : Encloses entries '\x7b' '\x7d' fun es => .map (Assoc.ofPairs es) where
  dense := rfl
  empty := by
    intro fuel t rest hskip
    rw [value, hskip]
    rfl
  filled := by
    intro fuel t c s hskip hc
    rw [value, hskip]
    split
    · rename_i he
      cases he
      exact absurd rfl hc
    · rfl

/-! ## Values and documents -/

theorem reads_list (g : Gaps) {members : List (Value × Text)} (hs : ∀ m ∈ members, Spells m.1 m.2)
    (hr : ∀ m ∈ members, Reads m.1 m.2) :
    Reads (.list (members.map (·.1))) (g.enclose '[' ']' (members.map (·.2))) :=
  encloses_items.reads g fun m hm => (hr m hm).item (hs m hm)

theorem reads_map (g : Gaps) {members : List (Text × Value × Text)} (hs : ∀ m ∈ members, Spells m.2.1 m.2.2)
    (hr : ∀ m ∈ members, Reads m.2.1 m.2.2) (hkeys : (Assoc.keys members).Nodup) :
    Reads (.map (members.map fun m => (m.1, m.2.1)))
      (g.enclose '\x7b' '\x7d' (members.map fun m => entryText m.1 m.2.2)) := by
  have hentries : ∀ e ∈ members.map fun m => ((m.1, m.2.1), entryText m.1 m.2.2),
      ReadsMember entries '\x7d' e.1 e.2 := by
    intro e he
    obtain ⟨m, hm, rfl⟩ := List.mem_map.mp he
    exact (hr m hm).entry m.1 (hs m hm)
  have hkept : Assoc.ofPairs (members.map fun m => (m.1, m.2.1)) = members.map fun m => (m.1, m.2.1) := by
    apply Assoc.ofPairs_of_nodup
    simpa [Assoc.keys, Function.comp_def] using hkeys
  have hall := encloses_entries.reads g hentries
  simp only [List.map_map, Function.comp_def] at hall
  rwa [hkept] at hall

/-- A value that is read at one go, without its members. -/
theorem Spells.reads_of_value (h : Spells v t)
    (hv : ∀ fuel rest, EndsNumber rest → value (fuel + 1) (t ++ rest) = .ok (v, rest)) : Reads v t := by
  intro fuel rest hf hrest
  obtain ⟨c, s, rfl, -⟩ := h.leads
  obtain ⟨fuel, rfl⟩ : ∃ f, fuel = f + 1 := ⟨fuel - 1, by simp only [List.length_cons] at hf; omega⟩
  exact hv fuel rest hrest

/-- The reader finds a value in each of its texts. -/
theorem Spells.reads (h : Spells v t) : Reads v t := by
  induction h with
  | null => exact Spells.null.reads_of_value fun _ _ _ => rfl
  | bool b => exact (Spells.bool b).reads_of_value fun _ _ _ => by cases b <;> rfl
  | int n => exact (Spells.int n).reads_of_value fun fuel _ hrest => value_intText fuel n hrest
  | special h => exact (Spells.special h).reads_of_value fun fuel rest _ => value_special h fuel rest
  | str s => exact (Spells.str s).reads_of_value fun fuel rest _ => value_string fuel s rest
  | list g h ih => exact reads_list g h ih
  | map g h hkeys ih => exact reads_map g h ih hkeys

/-- A document that is a text of a value is read as that value. -/
theorem Spells.read_eq (h : Spells v t) : read t = .ok v := by
  obtain ⟨c, s, ht, hspace, -, hmark⟩ := h.leads
  have hv := h.reads (2 * t.length + 2) [] (by omega) endsNumber_nil
  rw [List.append_nil] at hv
  have hdocument : document t = .ok v := by
    subst ht
    rw [document]
    · rw [skipSpace_cons hspace, hv]
      rfl
    · intro rest he
      cases he
      exact hmark rfl
  rw [read, hdocument]
  rfl

end LiveEdit.Json
