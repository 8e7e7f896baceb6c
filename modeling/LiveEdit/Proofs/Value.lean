/-
  LiveEdit.Proofs.Value — values as they are shown.

  A value is shown without control characters: numbers and signs have none, and in texts within the value they are
  escaped (`printable_shown`). Only a text that is a value of its own is displayed as it is, so no other value breaks a
  line (`display_cases`).
-/

import LiveEdit.Proofs.Json.Layout

namespace LiveEdit

open Json (Printable)

/-! ## Numbers -/

theorem Text.printable_zeros (n : Nat) : Printable (List.replicate n '0') :=
  fun c hc => by rw [List.eq_of_mem_replicate hc]; decide

theorem Shortest.printable_exponentText (e : Int) : Printable (exponentText e) := by
  have hrun := Json.printable_toDigits (by decide : 1 < 10) (by decide) e.natAbs
  have hpadded : Printable (if (Nat.toDigits 10 e.natAbs).length < 2 then '0' :: Nat.toDigits 10 e.natAbs
      else Nat.toDigits 10 e.natAbs) := by
    split
    · exact hrun.cons (by decide)
    · exact hrun
  refine hpadded.cons ?_
  split <;> decide

theorem Shortest.printable_render (digits : Nat) (exponent : Int) : Printable (render digits exponent) := by
  have hall := Json.printable_toDigits (by decide : 1 < 10) (by decide) digits
  unfold render
  simp only
  generalize hrun : Text.dropEndWhile (· = '0') (Nat.toDigits 10 digits) = run
  have hrun : Printable run := by
    intro c hc
    rw [← hrun, Text.dropEndWhile, List.mem_reverse] at hc
    exact hall c (List.mem_reverse.mp ((List.dropWhile_suffix _).subset hc))
  have htake : ∀ n, Printable (run.take n) := fun n c hc => hrun c (List.mem_of_mem_take hc)
  have hdrop : ∀ n, Printable (run.drop n) := fun n c hc => hrun c (List.mem_of_mem_drop hc)
  split
  · split
    · exact ((((Text.printable_zeros _).append hrun).cons (by decide)).cons (by decide))
    · refine .append (.append (htake _) (Text.printable_zeros _)) (.cons (by decide) ?_)
      split
      · decide
      · exact hdrop _
  · refine .append (.append (htake _) ?_) (.cons (by decide) (printable_exponentText _))
    split
    · decide
    · exact (hdrop _).cons (by decide)

theorem Shortest.printable_text (x : Double) : Printable (text x) := by
  cases x with
  | nan => decide
  | infinite negative => cases negative <;> decide
  | finite negative mantissa exponent =>
    have hbody : Printable (if mantissa = 0 then "0.0".toList
        else render (decimal mantissa exponent).1 (decimal mantissa exponent).2) := by
      split
      · decide
      · exact printable_render _ _
    cases negative with
    | false => exact hbody
    | true => exact hbody.cons (by decide)

/-! ## Texts within a value -/

theorem Text.printable_hexadecimal (width n : Nat) : Printable (hexadecimal width n) :=
  (printable_zeros _).append (Json.printable_toDigits (by decide) (by decide) n)

theorem Text.le_of_isPrintable {c : Char} (h : isPrintable c = true) : 32 ≤ c.toNat := by
  unfold isPrintable at h
  split at h
  · exact (by simpa using h : 32 ≤ c.toNat ∧ _).1
  · omega

theorem Text.printable_quotedChar {quote : Char} (hq : 32 ≤ quote.toNat) (c : Char) :
    Printable (quotedChar quote c) := by
  have hescape : ∀ {t : Text}, Printable t → Printable ('\\' :: t) := fun ht => ht.cons (by decide)
  unfold quotedChar
  split
  · rename_i hc
    refine hescape (Json.printable_singleton ?_)
    rcases (by simpa using hc : c = quote ∨ c = '\\') with rfl | rfl
    · exact hq
    · decide
  · split_ifs with _ _ _ hc
    · decide
    · decide
    · decide
    · exact Json.printable_singleton (le_of_isPrintable hc)
    · exact hescape ((printable_hexadecimal _ _).cons (by decide))
    · exact hescape ((printable_hexadecimal _ _).cons (by decide))
    · exact hescape ((printable_hexadecimal _ _).cons (by decide))

theorem Text.printable_quoted (t : Text) : Printable (quoted t) := by
  have hq : 32 ≤ (enclosingQuote t).toNat := by
    unfold enclosingQuote
    split <;> decide
  have hbody : Printable (t.flatMap (quotedChar (enclosingQuote t))) := by
    intro c hc
    obtain ⟨d, -, hc⟩ := List.mem_flatMap.mp hc
    exact printable_quotedChar hq d c hc
  exact (hbody.append (Json.printable_singleton hq)).cons hq

/-! ## Values -/

namespace Value

mutual

theorem printable_shown : ∀ v : Value, Printable v.shown
  | .null => by decide
  | .bool b => by cases b <;> decide
  | .int n => Json.printable_intText n
  | .float x => Shortest.printable_text x
  | .str t => Text.printable_quoted t
  | .list items => by
    have hjoined : Printable (Text.joinWith ", ".toList (shownItems items)) :=
      .joinWith (by decide) (printable_shownItems items)
    exact (hjoined.append (by decide)).cons (by decide)
  | .map entries => by
    have hjoined : Printable (Text.joinWith ", ".toList (shownEntries entries)) :=
      .joinWith (by decide) (printable_shownEntries entries)
    exact (hjoined.append (by decide)).cons (by decide)

theorem printable_shownItems : ∀ items : List Value, ∀ t ∈ shownItems items, Printable t
  | [] => fun _ h => absurd h List.not_mem_nil
  | v :: items => List.forall_mem_cons.mpr ⟨printable_shown v, printable_shownItems items⟩

theorem printable_shownEntries : ∀ entries : List (Text × Value), ∀ t ∈ shownEntries entries, Printable t
  | [] => fun _ h => absurd h List.not_mem_nil
  | (key, v) :: entries => List.forall_mem_cons.mpr
    ⟨(Text.printable_quoted key).append (((printable_shown v).cons (by decide)).cons (by decide)),
      printable_shownEntries entries⟩

end

/-- A value is displayed as the text that it is, or without control characters. -/
theorem display_cases (v : Value) : (∃ t, v = .str t ∧ v.display = t) ∨ (∀ t, v ≠ .str t) ∧ Printable v.display := by
  cases v with
  | str t => exact .inl ⟨t, rfl, rfl⟩
  | null => exact .inr ⟨nofun, printable_shown .null⟩
  | bool b => exact .inr ⟨nofun, printable_shown (.bool b)⟩
  | int n => exact .inr ⟨nofun, printable_shown (.int n)⟩
  | float x => exact .inr ⟨nofun, printable_shown (.float x)⟩
  | list items => exact .inr ⟨nofun, printable_shown (.list items)⟩
  | map entries => exact .inr ⟨nofun, printable_shown (.map entries)⟩

/-! ## Long integers -/

theorem entriesWritable_eq_all (entries : List (Text × Value)) :
    entriesWritable entries = entries.all fun e => isWritable e.2 := by
  induction entries with
  | nil => rfl
  | cons e entries ih => rw [entriesWritable, ih, List.all_cons]

/-- An integer is written if it has no more digits than the limit; its sign does not count. -/
theorem isWritable_int_iff (n : Int) :
    (int n).isWritable = true ↔ (Nat.toDigits 10 n.natAbs).length ≤ digitLimit := by
  have hlimit : ∀ limit, 0 < limit → (n.natAbs < Nat.pow 10 limit ↔ (Nat.toDigits 10 n.natAbs).length ≤ limit) :=
    fun _ h => (Nat.length_toDigits_le_iff (by decide) h).symm
  rw [isWritable, decide_eq_true_iff]
  unfold tooLong
  exact hlimit digitLimit (by decide)

theorem isWritable_natCast_iff (n : Nat) : (int n).isWritable = true ↔ n < tooLong := by
  rw [isWritable, decide_eq_true_iff, Int.natAbs_natCast]

theorem isWritable_tooLong : (int tooLong).isWritable = false := by
  rw [Bool.eq_false_iff, Ne, isWritable_natCast_iff]
  exact Nat.lt_irrefl tooLong

theorem isWritable_map_iff {entries : List (Text × Value)} :
    (map entries).isWritable = true ↔ ∀ e ∈ entries, e.2.isWritable = true := by
  rw [isWritable, entriesWritable_eq_all, List.all_eq_true]

theorem text_eq_ok_iff {v : Value} {t : Text} : v.text = .ok t ↔ v.isWritable = true ∧ v.display = t := by
  unfold text
  split
  · rename_i h
    simp [h]
  · rename_i h
    simp [h]

end Value

end LiveEdit
