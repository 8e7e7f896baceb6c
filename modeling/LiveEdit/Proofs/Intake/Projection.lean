/-
  LiveEdit.Proofs.Intake.Projection — reading a second time changes nothing.

  Reading brings data into normal form: names lose the blanks at their ends, and every value becomes what it stands
  for. What is in normal form is read from its own entries as what it is, in either spelling (`element_entries`,
  `change_entries`, `request_entries`), and what was read is in normal form. So a request that was saved and is
  loaded again is the same request (`second_reading_same`).
-/

import LiveEdit.Proofs.Intake.Record
import LiveEdit.Proofs.Text.Strip

namespace LiveEdit

/-! ## Normal forms -/

/-- The tag name has no blanks at its ends. -/
def Element.IsNormal (e : Element) : Prop := Text.strip e.tagName = e.tagName

/-- The name of an attribute has no blanks at its ends, and is one. -/
def Change.IsNormal : Change → Prop
  | .attribute name _ _ => Text.strip name = name ∧ name ≠ []
  | _ => True

namespace Intake

open Intake.Field

theorem isNormal_of_element {v : Value} {e : Element} (h : element v = .ok e) : e.IsNormal := by
  obtain ⟨entries, rfl, -⟩ := record_eq_ok_iff.mp h
  obtain ⟨htag, -⟩ := element_eq_ok_iff.mp h
  refine of_withDefault (P := fun t => Text.strip t = t) htag rfl ?_
  intro v hv
  rw [← Checked.ok.inj hv]
  exact Text.strip_strip _

/-- The name of an attribute that is not given is normal, too. -/
theorem isNormal_of_attributeChange {v : Value} {c : Change} (h : attributeChange v = .ok c) : c.IsNormal := by
  obtain ⟨entries, rfl, -⟩ := record_eq_ok_iff.mp h
  obtain ⟨name, new, old, rfl, -, hname, -⟩ := attributeChange_eq_ok_iff.mp h
  refine of_withDefault (P := fun name => Text.strip name = name ∧ name ≠ []) hname (by decide) ?_
  intro v hv
  obtain ⟨t, -, rfl, hne⟩ := nonBlank_eq_ok_iff.mp hv
  exact ⟨Text.strip_strip t, hne⟩

theorem eq_text_of_textChange {v : Value} {c : Change} (h : textChange v = .ok c) : ∃ old new, c = .text old new := by
  obtain ⟨entries, rfl, -⟩ := record_eq_ok_iff.mp h
  obtain ⟨old, new, hc, -⟩ := textChange_eq_ok_iff.mp h
  exact ⟨old, new, hc⟩

theorem eq_style_of_styleChange {v : Value} {c : Change} (h : styleChange v = .ok c) : ∃ css, c = .style css := by
  obtain ⟨entries, rfl, -⟩ := record_eq_ok_iff.mp h
  obtain ⟨css, hc, -⟩ := styleChange_eq_ok_iff.mp h
  exact ⟨css, hc⟩

theorem eq_attribute_of_attributeChange {v : Value} {c : Change} (h : attributeChange v = .ok c) :
    ∃ name new old, c = .attribute name new old := by
  obtain ⟨entries, rfl, -⟩ := record_eq_ok_iff.mp h
  obtain ⟨name, new, old, hc, -⟩ := attributeChange_eq_ok_iff.mp h
  exact ⟨name, new, old, hc⟩

theorem isNormal_of_change {v : Value} {c : Change} (h : change v = .ok c) : c.IsNormal := by
  cases v with
  | map entries =>
    obtain ⟨found, name, read, -, hreader, hread⟩ := change_eq_ok_iff.mp h
    have hmem : (name, read) ∈ changeKinds := by
      cases hv : found.2 with
      | str t =>
        rw [hv] at hreader
        exact List.mem_of_find?_eq_some (show changeKinds.find? (fun reader => reader.1 = t) = _ from hreader)
      | null | bool b | int n | float x | list items | map entries =>
        rw [hv] at hreader
        cases hreader
    simp only [changeKinds, List.mem_cons, List.not_mem_nil, or_false, Prod.mk.injEq] at hmem
    rcases hmem with ⟨-, rfl⟩ | ⟨-, rfl⟩ | ⟨-, rfl⟩
    · obtain ⟨old, new, rfl⟩ := eq_text_of_textChange hread
      exact trivial
    · obtain ⟨css, rfl⟩ := eq_style_of_styleChange hread
      exact trivial
    · exact isNormal_of_attributeChange hread
  | null | bool b | int n | float x | str t | list items => cases h

/-! ## What is written is read as it is -/

theorem textItems_map_str (index : Nat) (ts : List Text) : textItems index (ts.map .str) = .ok ts := by
  induction ts generalizing index with
  | nil => rfl
  | cons t ts ih => exact Checked.seq_eq_ok_iff.mpr ⟨_, _, rfl, ih (index + 1), rfl⟩

theorem texts_textsValue (ts : List Text) : texts (textsValue ts) = .ok ts := textItems_map_str 0 ts

theorem anyTexts_mappingValue (rule : Rule) (m : Assoc Text) : anyTexts rule (mappingValue m) = .ok m := by
  simp only [anyTexts, mappingValue, List.filterMap_map]
  exact congrArg Checked.ok (List.filterMap_some)

theorem settings_entries (s : Settings) : settings (.map (settingsEntries s)) = .ok s :=
  settings_eq_ok_iff.mpr
    ⟨withDefault_of_find? rfl (positive_eq_ok_iff.mpr rfl), withDefault_of_find? rfl (positive_eq_ok_iff.mpr rfl),
      withDefault_of_find? rfl (positive_eq_ok_iff.mpr rfl), withDefault_of_find? rfl (nonNegative_eq_ok_iff.mpr rfl),
      withDefault_of_find? rfl (positive_eq_ok_iff.mpr rfl), withDefault_of_find? rfl (nonNegative_eq_ok_iff.mpr rfl),
      withDefault_of_find? rfl (positive_eq_ok_iff.mpr rfl), withDefault_of_find? rfl (texts_textsValue _),
      withDefault_of_find? rfl (texts_textsValue _), withDefault_of_find? rfl (texts_textsValue _)⟩

theorem element_entries (spelling : Spelling) {e : Element} (h : e.IsNormal) :
    element (.map (elementEntries spelling e)) = .ok e := by
  have htag : (fun v => Checked.ok (Text.strip (anyText v))) (Value.str e.tagName) = .ok e.tagName :=
    congrArg Checked.ok h
  cases spelling <;>
    exact element_eq_ok_iff.mpr
      ⟨withDefault_of_find? rfl htag, withDefault_of_find? rfl (anyTexts_mappingValue .attributeMapping _),
        withDefault_of_find? rfl rfl, withDefault_of_find? rfl rfl, withDefault_of_find? rfl rfl⟩

theorem textChange_entries (spelling : Spelling) (old new : Text) :
    textChange (.map (changeEntries spelling (.text old new))) = .ok (.text old new) := by
  cases spelling <;>
    exact textChange_eq_ok_iff.mpr ⟨old, new, rfl, withDefault_of_find? rfl rfl, required_of_find? rfl rfl,
      required_of_find? rfl rfl⟩

theorem styleChange_entries (spelling : Spelling) (css : Assoc Text) :
    styleChange (.map (changeEntries spelling (.style css))) = .ok (.style css) := by
  cases spelling <;>
    exact styleChange_eq_ok_iff.mpr ⟨css, rfl, withDefault_of_find? rfl rfl,
      withDefault_of_find? rfl (anyTexts_mappingValue _ _)⟩

theorem attributeChange_entries (spelling : Spelling) {name new old : Text}
    (h : (Change.attribute name new old).IsNormal) :
    attributeChange (.map (changeEntries spelling (.attribute name new old))) = .ok (.attribute name new old) := by
  have hname : nonBlank (.str name) = .ok name := nonBlank_eq_ok_iff.mpr ⟨name, rfl, h.1.symm, h.2⟩
  cases spelling <;>
    exact attributeChange_eq_ok_iff.mpr ⟨name, new, old, rfl, withDefault_of_find? rfl rfl,
      withDefault_of_find? rfl hname, required_of_find? rfl rfl, withDefault_of_find? rfl rfl⟩

/-- The kind that is written leads to the reader of that kind. -/
theorem change_entries (spelling : Spelling) {c : Change} (h : c.IsNormal) :
    change (.map (changeEntries spelling c)) = .ok c := by
  have hkind : kind.find? (changeEntries spelling c) = some (kind.name, .str c.kind) := by
    cases spelling <;> rfl
  cases c with
  | text old new => exact change_eq_ok_iff.mpr ⟨_, _, _, hkind, rfl, textChange_entries spelling old new⟩
  | style css => exact change_eq_ok_iff.mpr ⟨_, _, _, hkind, rfl, styleChange_entries spelling css⟩
  | «attribute» name new old => exact change_eq_ok_iff.mpr ⟨_, _, _, hkind, rfl, attributeChange_entries spelling h⟩

theorem reportedLine_lineValue (line : Option ReportedLine) : reportedLine (lineValue line) = .ok line := by
  rcases line with _ | n | x <;> rfl

theorem request_entries (spelling : Spelling) {r : Request} (he : r.element.IsNormal) (hc : r.change.IsNormal) :
    request (.map (requestEntries spelling r)) = .ok r := by
  have hchange := change_entries spelling hc
  have helement := element_entries spelling he
  cases spelling <;>
    exact request_eq_ok_iff.mpr
      ⟨required_of_find? rfl rfl, withDefault_of_find? rfl helement, required_of_find? rfl hchange,
        withDefault_of_find? rfl (reportedLine_lineValue _), withDefault_of_find? rfl rfl⟩

theorem isNormal_of_request {v : Value} {r : Request} (h : request v = .ok r) :
    r.element.IsNormal ∧ r.change.IsNormal := by
  obtain ⟨entries, rfl, -⟩ := record_eq_ok_iff.mp h
  obtain ⟨-, helement, hchange, -⟩ := request_eq_ok_iff.mp h
  constructor
  · exact of_withDefault (P := Element.IsNormal) helement rfl fun v hv => isNormal_of_element hv
  · obtain ⟨found, -, hread⟩ := required_eq_ok_iff.mp hchange
    exact isNormal_of_change hread

/-! ## Whole numbers within their bounds -/

/-- A setting is the default where it is not given, and otherwise the integer that the given value is or writes. In
either case it is `least` or more. -/
structure Field.SetTo (f : Field) (least default : Nat) (entries : Assoc Value) (n : Nat) : Prop where
  bound : least ≤ n
  source : (f.find? entries = none ∧ n = default) ∨
    ∃ found, f.find? entries = some found ∧ integer found.2 = .ok n

theorem setTo_of_positive {f : Field} {entries : Assoc Value} {default n : Positive}
    (h : f.withDefault default positive entries = .ok n) : f.SetTo 1 default.val entries n.val := by
  refine ⟨n.property, ?_⟩
  rcases withDefault_eq_ok_iff.mp h with ⟨hf, rfl⟩ | ⟨found, hf, hread⟩
  · exact .inl ⟨hf, rfl⟩
  · exact .inr ⟨found, hf, positive_eq_ok_iff.mp hread⟩

theorem setTo_of_nonNegative {f : Field} {entries : Assoc Value} {default n : Nat}
    (h : f.withDefault default nonNegative entries = .ok n) : f.SetTo 0 default entries n := by
  refine ⟨Nat.zero_le n, ?_⟩
  rcases withDefault_eq_ok_iff.mp h with ⟨hf, rfl⟩ | ⟨found, hf, hread⟩
  · exact .inl ⟨hf, rfl⟩
  · exact .inr ⟨found, hf, nonNegative_eq_ok_iff.mp hread⟩

/-- Radii, caps and the context are one at least, the two floors zero at least. -/
structure Bounded (entries : Assoc Value) (s : Settings) : Prop where
  textRadius : textScopeRadius.SetTo 1 80 entries s.textScopeRadius.val
  styleRadius : styleScanRadius.SetTo 1 40 entries s.styleScanRadius.val
  blockCap : tagBlockMaxLines.SetTo 1 12 entries s.tagBlockMaxLines.val
  scoreFloor : minScore.SetTo 0 50 entries s.minScore
  attributeCap : maxStableAttributes.SetTo 1 3 entries s.maxStableAttributes.val
  lineFloor : reliableLineFloor.SetTo 0 5 entries s.reliableLineFloor
  context : fallbackContextLines.SetTo 1 100 entries s.fallbackContextLines.val

theorem bounded_of_settings {entries : Assoc Value} {s : Settings} (h : settings (.map entries) = .ok s) :
    Bounded entries s := by
  obtain ⟨h1, h2, h3, h4, h5, h6, h7, -⟩ := settings_eq_ok_iff.mp h
  exact ⟨setTo_of_positive h1, setTo_of_positive h2, setTo_of_positive h3, setTo_of_nonNegative h4,
    setTo_of_positive h5, setTo_of_nonNegative h6, setTo_of_positive h7⟩

/-! ## Second readings -/

/-- What any of the readers accepts is read from its own entries, in either spelling of the fields, as the same
record. Settings have one spelling; the whole numbers in them are those given, and within their bounds. -/
theorem second_reading_same (v : Value) (spelling : Spelling) :
    (∀ s, settings v = .ok s → settings (.map (settingsEntries s)) = .ok s ∧
      ∃ entries, v = .map entries ∧ Bounded entries s) ∧
    (∀ e, element v = .ok e → element (.map (elementEntries spelling e)) = .ok e) ∧
    (∀ c, textChange v = .ok c → textChange (.map (changeEntries spelling c)) = .ok c) ∧
    (∀ c, styleChange v = .ok c → styleChange (.map (changeEntries spelling c)) = .ok c) ∧
    (∀ c, attributeChange v = .ok c → attributeChange (.map (changeEntries spelling c)) = .ok c) ∧
    (∀ c, change v = .ok c → change (.map (changeEntries spelling c)) = .ok c) ∧
    (∀ r, request v = .ok r → request (.map (requestEntries spelling r)) = .ok r) := by
  refine ⟨?_, ?_, ?_, ?_, ?_, ?_, ?_⟩
  · intro s h
    obtain ⟨entries, rfl, -⟩ := record_eq_ok_iff.mp h
    exact ⟨settings_entries s, entries, rfl, bounded_of_settings h⟩
  · intro e h
    exact element_entries spelling (isNormal_of_element h)
  · intro c h
    obtain ⟨old, new, rfl⟩ := eq_text_of_textChange h
    exact textChange_entries spelling old new
  · intro c h
    obtain ⟨css, rfl⟩ := eq_style_of_styleChange h
    exact styleChange_entries spelling css
  · intro c h
    obtain ⟨name, new, old, rfl⟩ := eq_attribute_of_attributeChange h
    exact attributeChange_entries spelling (isNormal_of_attributeChange h)
  · intro c h
    exact change_entries spelling (isNormal_of_change h)
  · intro r h
    obtain ⟨helement, hchange⟩ := isNormal_of_request h
    exact request_entries spelling helement hchange

/-- Data that is anything but tidy, each kind read for the first and for the second time. -/
theorem untidy_data_read_again :
    let config : Value := .map [("text_scope_radius".toList, .str " 07.0 ".toList), ("min_score".toList, .bool false)]
    let link : Value := .map [("tagName".toList, .str " a\n".toList),
      ("attributes".toList, .map [("tabIndex".toList, .int (-3)), ("href".toList, .null)]), ("id".toList, .bool true)]
    let words : Value := .map [("old_text".toList, .str "Hi".toList), ("newText".toList, .str "Ho".toList)]
    let colors : Value := .map [("kind".toList, .str "style".toList),
      ("cssChanges".toList, .map [("color".toList, .null), ("order".toList, .int 2)])]
    let source : Value := .map [("kind".toList, .str "attribute".toList), ("name".toList, .str " src ".toList),
      ("newValue".toList, .str "/x".toList)]
    let whole : Value := .map [("sourceText".toList, .str "<a>".toList), ("element".toList, link),
      ("changeRequest".toList, source), ("reportedSourceLine".toList, .float .nan)]
    (∃ s, settings config = .ok s ∧ s.textScopeRadius.val = 7 ∧ s.minScore = 0 ∧
      settings (.map (settingsEntries s)) = .ok s) ∧
    (∃ e, element link = .ok e ∧ e.tagName = "a".toList ∧ e.attributes = [("tabIndex".toList, "-3".toList)] ∧
      element (.map (elementEntries .preferred e)) = .ok e) ∧
    (∃ c, textChange words = .ok c ∧ textChange (.map (changeEntries .own c)) = .ok c) ∧
    (∃ c, styleChange colors = .ok c ∧ styleChange (.map (changeEntries .preferred c)) = .ok c) ∧
    (∃ c, attributeChange source = .ok c ∧ attributeChange (.map (changeEntries .own c)) = .ok c) ∧
    (∃ c, change source = .ok c ∧ change (.map (changeEntries .preferred c)) = .ok c) ∧
    (∃ r, request whole = .ok r ∧ r.reportedLine = some (.float .nan) ∧
      request (.map (requestEntries .own r)) = .ok r) := by
  intro config link words colors source whole
  obtain ⟨hconfig, -⟩ := second_reading_same config .own
  obtain ⟨-, hlink, -⟩ := second_reading_same link .preferred
  obtain ⟨-, -, hwords, -⟩ := second_reading_same words .own
  obtain ⟨-, -, -, hcolors, -⟩ := second_reading_same colors .preferred
  obtain ⟨-, -, -, -, hsource, -⟩ := second_reading_same source .own
  obtain ⟨-, -, -, -, -, htagged, -⟩ := second_reading_same source .preferred
  obtain ⟨-, -, -, -, -, -, hwhole⟩ := second_reading_same whole .own
  exact ⟨⟨_, rfl, rfl, rfl, (hconfig _ rfl).1⟩, ⟨_, rfl, rfl, rfl, hlink _ rfl⟩, ⟨_, rfl, hwords _ rfl⟩,
    ⟨_, rfl, hcolors _ rfl⟩, ⟨_, rfl, hsource _ rfl⟩, ⟨_, rfl, htagged _ rfl⟩, ⟨_, rfl, rfl, hwhole _ rfl⟩⟩

end Intake

end LiveEdit
