/-
  LiveEdit.Proofs.Intake.Record — when a record is accepted, and as what.

  A reading of several parts succeeds when each part does (`seq_eq_ok_iff`). So a record is accepted from a mapping
  just when each of its fields is, and its members are what the fields give (`settings_eq_ok_iff` and the others).
-/

import LiveEdit.Intake.Record

namespace LiveEdit.Intake

/-! ## Readings without issues -/

namespace Checked

variable {α β : Type} {x : Checked α} {b : β}

theorem map_eq_ok_iff {f : α → β} : f <$> x = .ok b ↔ ∃ a, x = .ok a ∧ f a = b := by
  show Checked.apply (.ok f) x = .ok b ↔ _
  cases x <;> simp [Checked.apply]

theorem seq_eq_ok_iff {f : Checked (α → β)} : f <*> x = .ok b ↔ ∃ g a, f = .ok g ∧ x = .ok a ∧ g a = b := by
  show Checked.apply f x = .ok b ↔ _
  cases f <;> cases x <;> simp [Checked.apply]

theorem andThen_eq_ok_iff {check : α → Checked β} : x.andThen check = .ok b ↔ ∃ a, x = .ok a ∧ check a = .ok b := by
  cases x <;> simp [andThen]

theorem below_eq_ok_iff {step : Step} {a : α} : x.below step = .ok a ↔ x = .ok a := by
  cases x <;> simp [below]

end Checked

open Checked

/-! ## Fields -/

namespace Field

variable {α : Type} {f : Field} {entries : Assoc Value} {default a : α} {read : Value → Checked α}

theorem required_eq_ok_iff : f.required read entries = .ok a ↔
    ∃ found, f.find? entries = some found ∧ read found.2 = .ok a := by
  unfold required
  cases f.find? entries with
  | none => simp [below_eq_ok_iff, refuse]
  | some found => simp [below_eq_ok_iff]

theorem withDefault_eq_ok_iff : f.withDefault default read entries = .ok a ↔
    (f.find? entries = none ∧ a = default) ∨ ∃ found, f.find? entries = some found ∧ read found.2 = .ok a := by
  unfold withDefault
  cases f.find? entries with
  | none => simp [eq_comm]
  | some found => simp [below_eq_ok_iff]

/-- What holds of the default and of all that is read holds of the field. -/
theorem of_withDefault {P : α → Prop} (h : f.withDefault default read entries = .ok a) (hdefault : P default)
    (hread : ∀ v, read v = .ok a → P a) : P a := by
  rcases withDefault_eq_ok_iff.mp h with ⟨-, rfl⟩ | ⟨found, -, hv⟩
  · exact hdefault
  · exact hread found.2 hv

theorem required_of_find? {name : Text} {v : Value} (hf : f.find? entries = some (name, v)) (hv : read v = .ok a) :
    f.required read entries = .ok a :=
  required_eq_ok_iff.mpr ⟨_, hf, hv⟩

theorem withDefault_of_find? {name : Text} {v : Value} (hf : f.find? entries = some (name, v)) (hv : read v = .ok a) :
    f.withDefault default read entries = .ok a :=
  withDefault_eq_ok_iff.mpr (.inr ⟨_, hf, hv⟩)

end Field

/-! ## Values -/

theorem positive_eq_ok_iff {v : Value} {n : Positive} : positive v = .ok n ↔ integer v = .ok n.val := by
  unfold positive
  rw [Checked.andThen_eq_ok_iff]
  constructor
  · rintro ⟨i, hi, h⟩
    split at h
    · rename_i hpos
      cases h
      rw [hi, Int.toNat_of_nonneg (by omega)]
    · cases h
  · intro h
    exact ⟨n.val, h, dif_pos n.property⟩

theorem nonNegative_eq_ok_iff {v : Value} {n : Nat} : nonNegative v = .ok n ↔ integer v = .ok n := by
  unfold nonNegative
  rw [Checked.andThen_eq_ok_iff]
  constructor
  · rintro ⟨i, hi, h⟩
    split at h
    · rename_i hpos
      cases h
      rw [hi, Int.toNat_of_nonneg hpos]
    · cases h
  · intro h
    exact ⟨n, h, if_pos (Int.natCast_nonneg n)⟩

theorem nonBlank_eq_ok_iff {v : Value} {name : Text} : nonBlank v = .ok name ↔
    ∃ t, v = .str t ∧ name = Text.strip t ∧ name ≠ [] := by
  unfold nonBlank
  rw [Checked.andThen_eq_ok_iff]
  constructor
  · rintro ⟨t, ht, h⟩
    cases v with
    | str t' =>
      cases ht
      split at h
      · cases h
      · rename_i hne
        cases h
        exact ⟨t, rfl, rfl, by simpa using hne⟩
    | null | bool b | int n | float x | list items | map entries => cases ht
  · rintro ⟨t, rfl, rfl, hne⟩
    exact ⟨t, rfl, by simp [hne]⟩

/-! ## Records -/

/-- Only mappings are records. -/
theorem record_eq_ok_iff {α : Type} {name : Text} {read : Assoc Value → Checked α} {v : Value} {a : α} :
    record name read v = .ok a ↔ ∃ entries, v = .map entries ∧ read entries = .ok a := by
  cases v <;> simp [record, Checked.refuse]

variable {entries : Assoc Value}

theorem settings_eq_ok_iff {s : Settings} : settings (.map entries) = .ok s ↔
    let d : Settings := {}
    textScopeRadius.withDefault d.textScopeRadius positive entries = .ok s.textScopeRadius ∧
    styleScanRadius.withDefault d.styleScanRadius positive entries = .ok s.styleScanRadius ∧
    tagBlockMaxLines.withDefault d.tagBlockMaxLines positive entries = .ok s.tagBlockMaxLines ∧
    minScore.withDefault d.minScore nonNegative entries = .ok s.minScore ∧
    maxStableAttributes.withDefault d.maxStableAttributes positive entries = .ok s.maxStableAttributes ∧
    reliableLineFloor.withDefault d.reliableLineFloor nonNegative entries = .ok s.reliableLineFloor ∧
    fallbackContextLines.withDefault d.fallbackContextLines positive entries = .ok s.fallbackContextLines ∧
    instrumentationAttributes.withDefault d.instrumentationAttributes texts entries =
      .ok s.instrumentationAttributes ∧
    blockedPathFragments.withDefault d.blockedPathFragments texts entries = .ok s.blockedPathFragments ∧
    allowedPathFragments.withDefault d.allowedPathFragments texts entries = .ok s.allowedPathFragments := by
  constructor
  · intro h
    obtain ⟨_, _, h, h10, e10⟩ := seq_eq_ok_iff.mp h
    obtain ⟨_, _, h, h9, e9⟩ := seq_eq_ok_iff.mp h
    obtain ⟨_, _, h, h8, e8⟩ := seq_eq_ok_iff.mp h
    obtain ⟨_, _, h, h7, e7⟩ := seq_eq_ok_iff.mp h
    obtain ⟨_, _, h, h6, e6⟩ := seq_eq_ok_iff.mp h
    obtain ⟨_, _, h, h5, e5⟩ := seq_eq_ok_iff.mp h
    obtain ⟨_, _, h, h4, e4⟩ := seq_eq_ok_iff.mp h
    obtain ⟨_, _, h, h3, e3⟩ := seq_eq_ok_iff.mp h
    obtain ⟨_, _, h, h2, e2⟩ := seq_eq_ok_iff.mp h
    obtain ⟨_, h1, e1⟩ := map_eq_ok_iff.mp h
    subst e1 e2 e3 e4 e5 e6 e7 e8 e9 e10
    exact ⟨h1, h2, h3, h4, h5, h6, h7, h8, h9, h10⟩
  · rintro ⟨h1, h2, h3, h4, h5, h6, h7, h8, h9, h10⟩
    simp only [settings, record, h1, h2, h3, h4, h5, h6, h7, h8, h9, h10]
    rfl

theorem element_eq_ok_iff {e : Element} : element (.map entries) = .ok e ↔
    tagName.withDefault [] (fun v => .ok (Text.strip (anyText v))) entries = .ok e.tagName ∧
    attributes.withDefault [] elementAttributes entries = .ok e.attributes ∧
    className.withDefault [] (fun v => .ok (anyText v)) entries = .ok e.className ∧
    elementId.withDefault [] (fun v => .ok (anyText v)) entries = .ok e.id ∧
    elementText.withDefault [] (fun v => .ok (anyText v)) entries = .ok e.text := by
  constructor
  · intro h
    obtain ⟨_, _, h, h5, e5⟩ := seq_eq_ok_iff.mp h
    obtain ⟨_, _, h, h4, e4⟩ := seq_eq_ok_iff.mp h
    obtain ⟨_, _, h, h3, e3⟩ := seq_eq_ok_iff.mp h
    obtain ⟨_, _, h, h2, e2⟩ := seq_eq_ok_iff.mp h
    obtain ⟨_, h1, e1⟩ := map_eq_ok_iff.mp h
    subst e1 e2 e3 e4 e5
    exact ⟨h1, h2, h3, h4, h5⟩
  · rintro ⟨h1, h2, h3, h4, h5⟩
    simp only [element, record, h1, h2, h3, h4, h5]
    rfl

theorem textChange_eq_ok_iff {c : Change} : textChange (.map entries) = .ok c ↔
    ∃ old new, c = .text old new ∧ kindIs "text".toList entries = .ok () ∧
      oldText.required text entries = .ok old ∧ newText.required text entries = .ok new := by
  constructor
  · intro h
    obtain ⟨_, new, h, hnew, enew⟩ := seq_eq_ok_iff.mp h
    obtain ⟨_, old, h, hold, eold⟩ := seq_eq_ok_iff.mp h
    obtain ⟨_, hkind, ekind⟩ := map_eq_ok_iff.mp h
    subst ekind eold enew
    exact ⟨old, new, rfl, hkind, hold, hnew⟩
  · rintro ⟨old, new, rfl, hkind, hold, hnew⟩
    simp only [textChange, record, hkind, hold, hnew]
    rfl

theorem styleChange_eq_ok_iff {c : Change} : styleChange (.map entries) = .ok c ↔
    ∃ css, c = .style css ∧ kindIs "style".toList entries = .ok () ∧
      cssChanges.withDefault [] (anyTexts .cssMapping) entries = .ok css := by
  constructor
  · intro h
    obtain ⟨_, css, h, hcss, ecss⟩ := seq_eq_ok_iff.mp h
    obtain ⟨_, hkind, ekind⟩ := map_eq_ok_iff.mp h
    subst ekind ecss
    exact ⟨css, rfl, hkind, hcss⟩
  · rintro ⟨css, rfl, hkind, hcss⟩
    simp only [styleChange, record, hkind, hcss]
    rfl

theorem attributeChange_eq_ok_iff {c : Change} : attributeChange (.map entries) = .ok c ↔
    ∃ name new old, c = .attribute name new old ∧ kindIs "attribute".toList entries = .ok () ∧
      attributeName.withDefault "src".toList nonBlank entries = .ok name ∧
      newValue.required text entries = .ok new ∧ oldValue.withDefault [] text entries = .ok old := by
  constructor
  · intro h
    obtain ⟨_, old, h, hold, eold⟩ := seq_eq_ok_iff.mp h
    obtain ⟨_, new, h, hnew, enew⟩ := seq_eq_ok_iff.mp h
    obtain ⟨_, name, h, hname, ename⟩ := seq_eq_ok_iff.mp h
    obtain ⟨_, hkind, ekind⟩ := map_eq_ok_iff.mp h
    subst ekind ename enew eold
    exact ⟨name, new, old, rfl, hkind, hname, hnew, hold⟩
  · rintro ⟨name, new, old, rfl, hkind, hname, hnew, hold⟩
    simp only [attributeChange, record, hkind, hname, hnew, hold]
    rfl

/-- A change is accepted by the reader of the kind that the mapping tells. -/
theorem change_eq_ok_iff {c : Change} : change (.map entries) = .ok c ↔
    ∃ found name read, kind.find? entries = some found ∧ readerFor? found.2 = some (name, read) ∧
      read (.map entries) = .ok c := by
  unfold change
  simp only
  cases kind.find? entries with
  | none => simp [Checked.refuse]
  | some found =>
    cases hreader : readerFor? found.2 with
    | none => simp [hreader, Checked.refuse]
    | some reader =>
      obtain ⟨name, read⟩ := reader
      simp [hreader, below_eq_ok_iff, and_assoc]

theorem request_eq_ok_iff {r : Request} : request (.map entries) = .ok r ↔
    sourceText.required text entries = .ok r.sourceText ∧
    requestElement.withDefault {} element entries = .ok r.element ∧
    requestChange.required change entries = .ok r.change ∧
    reportedSourceLine.withDefault none reportedLine entries = .ok r.reportedLine ∧
    filePath.withDefault [] text entries = .ok r.filePath := by
  constructor
  · intro h
    obtain ⟨_, _, h, h5, e5⟩ := seq_eq_ok_iff.mp h
    obtain ⟨_, _, h, h4, e4⟩ := seq_eq_ok_iff.mp h
    obtain ⟨_, _, h, h3, e3⟩ := seq_eq_ok_iff.mp h
    obtain ⟨_, _, h, h2, e2⟩ := seq_eq_ok_iff.mp h
    obtain ⟨_, h1, e1⟩ := map_eq_ok_iff.mp h
    subst e1 e2 e3 e4 e5
    exact ⟨h1, h2, h3, h4, h5⟩
  · rintro ⟨h1, h2, h3, h4, h5⟩
    simp only [request, record, h1, h2, h3, h4, h5]
    rfl

end LiveEdit.Intake
