/-
  LiveEdit.Proofs.Json.String — a string that is written is read back.

  The reader takes a string apart into code units and then joins the halves of pairs. Each character is written as what
  stands for its units (`units_stringChar`), and its units are joined to it again (`ofUnits_unitsOf`), so a written
  string is read as what it was, with any text behind it (`stringAfterQuote_string`). What is written has no character
  below the space (`string_printable`).
-/

import LiveEdit.Json.Reader
import LiveEdit.Json.Writer

namespace LiveEdit.Json

/-! ## Four hexadecimal digits -/

theorem hexDigit?_digitChar {d : Nat} (h : d < 16) : hexDigit? d.digitChar = some d := by
  have hall : ∀ d < 16, hexDigit? d.digitChar = some d := by decide
  exact hall d h

theorem digitChar_printable {d : Nat} (h : d < 16) : 32 ≤ d.digitChar.toNat := by
  have hall : ∀ d < 16, 32 ≤ d.digitChar.toNat := by decide
  exact hall d h

/-- The last digit, behind the others with one zero less in front. -/
theorem hexadecimal_succ {width : Nat} (hw : 0 < width) (n : Nat) :
    Text.hexadecimal (width + 1) n = Text.hexadecimal width (n / 16) ++ [(n % 16).digitChar] := by
  have hdigits := Nat.toDigits_eq_if (b := 16) (n := n) (by decide)
  unfold Text.hexadecimal
  simp only
  split at hdigits
  · rename_i hlt
    have hzeros : List.replicate width '0' = List.replicate (width - 1) '0' ++ ['0'] := by
      rw [← List.replicate_succ', Nat.sub_add_cancel hw]
    rw [hdigits, Nat.div_eq_of_lt hlt, Nat.mod_eq_of_lt hlt, Nat.toDigits_zero]
    simp [hzeros]
  · rw [hdigits]
    simp [Nat.add_sub_add_right]

/-- The digits of a code unit, those in front perhaps zero. -/
theorem hexadecimal_four {n : Nat} (h : n < 0x10000) :
    Text.hexadecimal 4 n = [(n / 4096).digitChar, (n / 256 % 16).digitChar, (n / 16 % 16).digitChar,
      (n % 16).digitChar] := by
  have hone : Text.hexadecimal 1 (n / 4096) = [(n / 4096).digitChar] := by
    unfold Text.hexadecimal
    rw [Nat.toDigits_of_lt_base (by omega)]
    rfl
  rw [hexadecimal_succ (by decide), hexadecimal_succ (by decide), hexadecimal_succ (by decide)]
  simp only [Nat.div_div_eq_div_mul, Nat.reduceMul, hone]
  rfl

/-! ## Units -/

/-- The units of a character: itself, or beyond the sixteen-bit range a pair. -/
def unitsOf (c : Char) : List Nat :=
  if c.toNat < 0x10000 then [c.toNat]
  else [0xd800 + (c.toNat - 0x10000) / 0x400, 0xdc00 + (c.toNat - 0x10000) % 0x400]

theorem char_bounds (c : Char) : c.toNat < 0xd800 ∨ 0xdfff < c.toNat ∧ c.toNat < 0x110000 := c.valid

theorem unitsOf_lt {c : Char} {n : Nat} (h : n ∈ unitsOf c) : n < 0x10000 := by
  have hc := char_bounds c
  unfold unitsOf at h
  split at h
  · rw [List.mem_singleton.mp h]
    assumption
  · rcases List.mem_cons.mp h with rfl | h
    · omega
    · rw [List.mem_singleton.mp h]
      omega

/-- A character is written behind a backslash by a letter of its own, as it is, or as its units. -/
inductive Written (c : Char) : Text → Prop
  | escaped {d : Char} (hd : simpleEscape? d = some c) : Written c ['\\', d]
  | plain (hquote : c ≠ '"') (hbackslash : c ≠ '\\') (hlow : 32 ≤ c.toNat) (hhigh : c.toNat < 127) : Written c [c]
  | units : Written c ((unitsOf c).flatMap unitEscape)

theorem simpleEscape?_bounds {c d : Char} (hd : simpleEscape? d = some c) : c.toNat < 128 ∧ 32 ≤ d.toNat := by
  unfold simpleEscape? at hd
  split at hd <;> cases hd <;> decide

theorem written_stringChar (c : Char) : Written c (stringChar c) := by
  unfold stringChar
  split
  · rename_i h
    rw [Bool.or_eq_true, decide_eq_true_eq, decide_eq_true_eq] at h
    rcases h with rfl | rfl
    · exact .escaped rfl
    · exact .escaped rfl
  rename_i h
  rw [Bool.or_eq_true, decide_eq_true_eq, decide_eq_true_eq, not_or] at h
  split
  · subst c
    exact .escaped rfl
  split
  · subst c
    exact .escaped rfl
  split
  · subst c
    exact .escaped rfl
  split
  · subst c
    exact .escaped rfl
  split
  · subst c
    exact .escaped rfl
  split
  · rename_i hprintable
    rw [Bool.and_eq_true, decide_eq_true_eq, decide_eq_true_eq] at hprintable
    exact .plain h.1 h.2 hprintable.1 hprintable.2
  have hunits := Written.units (c := c)
  split
  · rename_i hlt
    simpa [unitsOf, hlt] using hunits
  · rename_i hge
    simpa [unitsOf, hge] using hunits

/-! ## Reading -/

variable {opening : Text}

theorem units_unitEscape {n : Nat} (hn : n < 0x10000) {s : Text} (hs : s ≠ []) :
    units opening (unitEscape n ++ s) = (units opening s).map fun (ns, rest) => (n :: ns, rest) := by
  obtain ⟨e, t, rfl⟩ := List.exists_cons_of_ne_nil hs
  have hunit : hexUnit? (n / 4096).digitChar (n / 256 % 16).digitChar (n / 16 % 16).digitChar (n % 16).digitChar =
      some n := by
    unfold hexUnit?
    rw [hexDigit?_digitChar (by omega), hexDigit?_digitChar (by omega), hexDigit?_digitChar (by omega),
      hexDigit?_digitChar (by omega)]
    show some _ = some n
    rw [Option.some.injEq]
    omega
  rw [unitEscape, hexadecimal_four hn]
  simp only [List.cons_append, List.nil_append, units, hunit]

theorem units_unitEscapes {us : List Nat} (hus : ∀ n ∈ us, n < 0x10000) {s : Text} (hs : s ≠ []) :
    units opening (us.flatMap unitEscape ++ s) = (units opening s).map fun (ns, rest) => (us ++ ns, rest) := by
  induction us with
  | nil => cases h : units opening s <;> simp [h, Except.map]
  | cons n us ih =>
    have hrest := ih fun m hm => hus m (List.mem_cons_of_mem n hm)
    rw [List.flatMap_cons, List.append_assoc, units_unitEscape (hus n List.mem_cons_self) (by simp [hs]), hrest]
    cases units opening s <;> rfl

theorem units_simpleEscape {c d : Char} (hd : simpleEscape? d = some c) (s : Text) :
    units opening ('\\' :: d :: s) = (units opening s).map fun (ns, rest) => (c.toNat :: ns, rest) := by
  have hu : d ≠ 'u' := by
    intro he
    subst he
    cases hd
  rw [units]
  · rw [hd]
  · exact fun _ _ _ _ _ _ he _ => hu he
  · exact hu

theorem units_plain {c : Char} (hquote : c ≠ '"') (hbackslash : c ≠ '\\') (hlow : 32 ≤ c.toNat) (s : Text) :
    units opening (c :: s) = (units opening s).map fun (ns, rest) => (c.toNat :: ns, rest) := by
  rw [units]
  · rw [if_neg (Nat.not_lt.mpr hlow)]
  · exact hquote
  · exact fun he _ => hbackslash he
  · exact fun _ _ _ _ _ _ he _ => hbackslash he
  · exact fun _ he _ => hbackslash he
  · exact fun _ _ he _ => hbackslash he

theorem units_written {c : Char} {t : Text} (h : Written c t) {s : Text} (hs : s ≠ []) :
    units opening (t ++ s) = (units opening s).map fun (ns, rest) => (unitsOf c ++ ns, rest) := by
  have hone : c.toNat < 0x10000 → unitsOf c = [c.toNat] := fun hlt => if_pos hlt
  cases h with
  | escaped hd =>
    rw [hone (Nat.lt_trans (simpleEscape?_bounds hd).1 (by decide))]
    exact units_simpleEscape hd s
  | plain hquote hbackslash hlow hhigh =>
    rw [hone (by omega)]
    exact units_plain hquote hbackslash hlow s
  | units => exact units_unitEscapes (fun n hn => unitsOf_lt hn) hs

/-- A string is read as its units up to the quote behind it. -/
theorem units_string (t rest : Text) :
    units opening (t.flatMap stringChar ++ '"' :: rest) = .ok (t.flatMap unitsOf, rest) := by
  induction t with
  | nil => rfl
  | cons c t ih =>
    rw [List.flatMap_cons, List.append_assoc, units_written (written_stringChar c) (by simp), ih]
    rfl

/-- A unit that is no half of a pair stands for its character. -/
theorem ofUnits_cons {n : Nat} (hn : ¬ (0xd800 ≤ n ∧ n < 0xe000)) (ns : List Nat) :
    ofUnits (n :: ns) = Char.ofNat n :: ofUnits ns := by
  have hhigh : ∀ p q : Prop, ¬ (((0xd800 ≤ n ∧ n < 0xdc00) ∧ p) ∧ q) := by
    intro p q h
    exact hn ⟨h.1.1.1, Nat.lt_trans h.1.1.2 (by decide)⟩
  cases ns with
  | nil => simp [ofUnits, hn]
  | cons low ns => simp only [ofUnits, Bool.and_eq_true, decide_eq_true_eq, if_neg (hhigh _ _), if_neg hn]

/-- The units of a character are joined to it again. -/
theorem ofUnits_unitsOf (c : Char) (ns : List Nat) : ofUnits (unitsOf c ++ ns) = c :: ofUnits ns := by
  have hc := char_bounds c
  unfold unitsOf
  split
  · rw [List.singleton_append, ofUnits_cons (by omega), Char.ofNat_toNat]
  · have hpair : (((0xd800 ≤ 0xd800 + (c.toNat - 0x10000) / 0x400 ∧ 0xd800 + (c.toNat - 0x10000) / 0x400 < 0xdc00) ∧
        0xdc00 ≤ 0xdc00 + (c.toNat - 0x10000) % 0x400) ∧ 0xdc00 + (c.toNat - 0x10000) % 0x400 < 0xe000) := by
      omega
    have hjoined : 0x10000 + (0xd800 + (c.toNat - 0x10000) / 0x400 - 0xd800) * 0x400 +
        (0xdc00 + (c.toNat - 0x10000) % 0x400 - 0xdc00) = c.toNat := by
      omega
    simp only [List.cons_append, List.nil_append, ofUnits, Bool.and_eq_true, decide_eq_true_eq, if_pos hpair]
    rw [hjoined, Char.ofNat_toNat]

theorem ofUnits_flatMap (t : Text) : ofUnits (t.flatMap unitsOf) = t := by
  induction t with
  | nil => rfl
  | cons c t ih => rw [List.flatMap_cons, ofUnits_unitsOf, ih]

theorem stringAfterQuote_string (t rest : Text) :
    stringAfterQuote (t.flatMap stringChar ++ '"' :: rest) = .ok (t, rest) := by
  rw [stringAfterQuote, units_string]
  show Except.ok (ofUnits (t.flatMap unitsOf), rest) = _
  rw [ofUnits_flatMap]

/-! ## What strings are made of -/

theorem unitEscape_printable {n : Nat} (hn : n < 0x10000) {x : Char} (hx : x ∈ unitEscape n) : 32 ≤ x.toNat := by
  rw [unitEscape, hexadecimal_four hn] at hx
  simp only [List.mem_cons, List.not_mem_nil, or_false] at hx
  rcases hx with rfl | rfl | rfl | rfl | rfl | rfl
  · decide
  · decide
  · exact digitChar_printable (by omega)
  · exact digitChar_printable (by omega)
  · exact digitChar_printable (by omega)
  · exact digitChar_printable (by omega)

theorem Written.printable {c x : Char} {t : Text} (h : Written c t) (hx : x ∈ t) : 32 ≤ x.toNat := by
  cases h with
  | escaped hd =>
    rcases List.mem_cons.mp hx with rfl | hx
    · decide
    · rw [List.mem_singleton.mp hx]
      exact (simpleEscape?_bounds hd).2
  | plain _ _ hlow _ =>
    rw [List.mem_singleton.mp hx]
    exact hlow
  | units =>
    obtain ⟨n, hn, hx⟩ := List.mem_flatMap.mp hx
    exact unitEscape_printable (unitsOf_lt hn) hx

theorem string_printable {t : Text} {x : Char} (hx : x ∈ string t) : 32 ≤ x.toNat := by
  rw [string, List.cons_append] at hx
  rcases List.mem_cons.mp hx with rfl | hx
  · decide
  rcases List.mem_append.mp hx with hx | hx
  · obtain ⟨c, -, hx⟩ := List.mem_flatMap.mp hx
    exact (written_stringChar c).printable hx
  · rw [List.mem_singleton.mp hx]
    decide

end LiveEdit.Json
