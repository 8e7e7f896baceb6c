/-
  LiveEdit.Intake.Record — reading settings, elements, changes and requests from mappings.

  A field is found under its preferred name or else under its own. Issues of its value carry the name under
  which it stands, a missing field's issue the preferred one, and all come in the order in which the fields are
  declared. Entries of other names are ignored. The functions on entries write a record as a mapping from
  which it can be read again, in either spelling.
-/

import LiveEdit.Intake.Scalar

namespace LiveEdit.Intake

/-- A field's own name and the name that is preferred on input. -/
structure Field where
  name : Text
  preferred : Text

namespace Field

variable {α : Type}

/-- The value of a field with the name under which it stands. -/
def find? (f : Field) (entries : Assoc Value) : Option (Text × Value) :=
  match entries.get? f.preferred with
  | some v => some (f.preferred, v)
  | none => (entries.get? f.name).map fun v => (f.name, v)

def required (f : Field) (read : Value → Checked α) (entries : Assoc Value) : Checked α :=
  match f.find? entries with
  | some (name, v) => (read v).below (.field name)
  | none => Checked.below (.field f.preferred) (.refuse .missing)

def withDefault (f : Field) (default : α) (read : Value → Checked α) (entries : Assoc Value) : Checked α :=
  match f.find? entries with
  | some (name, v) => (read v).below (.field name)
  | none => .ok default

end Field

/-- Reads a record named `record` from its entries. -/
def record {α : Type} (name : Text) (read : Assoc Value → Checked α) : Value → Checked α
  | .map entries => read entries
  | _ => .refuse (.notRecord name)

/-! ## Fields -/

def textScopeRadius : Field := ⟨"text_scope_radius".toList, "text_scope_radius".toList⟩
def styleScanRadius : Field := ⟨"style_scan_radius".toList, "style_scan_radius".toList⟩
def tagBlockMaxLines : Field := ⟨"tag_block_max_lines".toList, "tag_block_max_lines".toList⟩
def minScore : Field := ⟨"min_score".toList, "min_score".toList⟩
def maxStableAttributes : Field := ⟨"max_stable_attributes".toList, "max_stable_attributes".toList⟩
def reliableLineFloor : Field := ⟨"reliable_line_floor".toList, "reliable_line_floor".toList⟩
def fallbackContextLines : Field := ⟨"fallback_context_lines".toList, "fallback_context_lines".toList⟩
def instrumentationAttributes : Field :=
  ⟨"instrumentation_attributes".toList, "instrumentation_attributes".toList⟩
def blockedPathFragments : Field := ⟨"blocked_path_fragments".toList, "blocked_path_fragments".toList⟩
def allowedPathFragments : Field := ⟨"allowed_path_fragments".toList, "allowed_path_fragments".toList⟩

def tagName : Field := ⟨"tag_name".toList, "tagName".toList⟩
def attributes : Field := ⟨"attributes".toList, "attributes".toList⟩
def className : Field := ⟨"class_name".toList, "className".toList⟩
def elementId : Field := ⟨"id".toList, "id".toList⟩
def elementText : Field := ⟨"text".toList, "text".toList⟩

def kind : Field := ⟨"kind".toList, "kind".toList⟩
def oldText : Field := ⟨"old_text".toList, "oldText".toList⟩
def newText : Field := ⟨"new_text".toList, "newText".toList⟩
def cssChanges : Field := ⟨"css_changes".toList, "cssChanges".toList⟩
def attributeName : Field := ⟨"name".toList, "name".toList⟩
def newValue : Field := ⟨"new_value".toList, "newValue".toList⟩
def oldValue : Field := ⟨"old_value".toList, "oldValue".toList⟩

def sourceText : Field := ⟨"source_text".toList, "sourceText".toList⟩
def requestElement : Field := ⟨"element".toList, "elementDescriptor".toList⟩
def requestChange : Field := ⟨"change".toList, "changeRequest".toList⟩
def reportedSourceLine : Field := ⟨"reported_source_line".toList, "reportedSourceLine".toList⟩
def filePath : Field := ⟨"file_path".toList, "filePath".toList⟩

/-! ## Reading -/

def settings : Value → Checked Settings :=
  record "LocatorConfig".toList fun entries =>
    let d : Settings := {}
    Settings.mk <$> textScopeRadius.withDefault d.textScopeRadius positive entries
      <*> styleScanRadius.withDefault d.styleScanRadius positive entries
      <*> tagBlockMaxLines.withDefault d.tagBlockMaxLines positive entries
      <*> minScore.withDefault d.minScore nonNegative entries
      <*> maxStableAttributes.withDefault d.maxStableAttributes positive entries
      <*> reliableLineFloor.withDefault d.reliableLineFloor nonNegative entries
      <*> fallbackContextLines.withDefault d.fallbackContextLines positive entries
      <*> instrumentationAttributes.withDefault d.instrumentationAttributes texts entries
      <*> blockedPathFragments.withDefault d.blockedPathFragments texts entries
      <*> allowedPathFragments.withDefault d.allowedPathFragments texts entries

/-- Null stands for no attributes. -/
def elementAttributes : Value → Checked (Assoc Text)
  | .null => .ok []
  | v => anyTexts .attributeMapping v

def element : Value → Checked Element :=
  record "ElementDescriptor".toList fun entries =>
    Element.mk <$> tagName.withDefault [] (fun v => .ok (Text.strip (anyText v))) entries
      <*> attributes.withDefault [] elementAttributes entries
      <*> className.withDefault [] (fun v => .ok (anyText v)) entries
      <*> elementId.withDefault [] (fun v => .ok (anyText v)) entries
      <*> elementText.withDefault [] (fun v => .ok (anyText v)) entries

/-- The kind of a change, where only one is possible. -/
def literal (expected : Text) : Value → Checked Unit
  | .str t => if t = expected then .ok () else .refuse (.notLiteral expected)
  | _ => .refuse (.notLiteral expected)

def kindIs (expected : Text) (entries : Assoc Value) : Checked Unit :=
  kind.withDefault () (literal expected) entries

def textChange : Value → Checked Change :=
  record "TextChange".toList fun entries =>
    (fun _ old new => .text old new) <$> kindIs "text".toList entries
      <*> oldText.required text entries
      <*> newText.required text entries

def styleChange : Value → Checked Change :=
  record "StyleChange".toList fun entries =>
    (fun _ css => .style css) <$> kindIs "style".toList entries
      <*> cssChanges.withDefault [] (anyTexts .cssMapping) entries

def nonBlank (v : Value) : Checked Text :=
  (text v).andThen fun t =>
    if (Text.strip t).isEmpty then .refuse (.broken .attributeName) else .ok (Text.strip t)

def attributeChange : Value → Checked Change :=
  record "AttributeChange".toList fun entries =>
    (fun _ name new old => .attribute name new old) <$> kindIs "attribute".toList entries
      <*> attributeName.withDefault "src".toList nonBlank entries
      <*> newValue.required text entries
      <*> oldValue.withDefault [] text entries

/-- The readers of the kinds of change. -/
def changeKinds : List (Text × (Value → Checked Change)) := [
  ("text".toList, textChange), ("style".toList, styleChange), ("attribute".toList, attributeChange)]

def readerFor? : Value → Option (Text × (Value → Checked Change))
  | .str t => changeKinds.find? fun reader => reader.1 = t
  | _ => none

/-- A change whose kind the mapping itself tells. Issues of its fields lie below the kind. -/
def change : Value → Checked Change
  | .map entries =>
    match kind.find? entries with
    | none => .refuse .noTag
    | some (_, tag) =>
      match readerFor? tag with
      | some (name, read) => (read (.map entries)).below (.field name)
      | none => .refuse (.unknownTag tag.display)
  | _ => .refuse .notTagged

def request : Value → Checked Request :=
  record "PatchRequest".toList fun entries =>
    Request.mk <$> sourceText.required text entries
      <*> requestElement.withDefault {} element entries
      <*> requestChange.required change entries
      <*> reportedSourceLine.withDefault none reportedLine entries
      <*> filePath.withDefault [] text entries

/-! ## Writing -/

/-- Which of a field's two names is written. -/
inductive Spelling where
  | own
  | preferred
  deriving DecidableEq

def Field.spelled (f : Field) : Spelling → Text
  | .own => f.name
  | .preferred => f.preferred

def textsValue (ts : List Text) : Value := .list (ts.map .str)

def mappingValue (m : Assoc Text) : Value := .map (m.map fun (name, t) => (name, .str t))

def settingsEntries (s : Settings) : Assoc Value := [
  (textScopeRadius.name, .int s.textScopeRadius.val),
  (styleScanRadius.name, .int s.styleScanRadius.val),
  (tagBlockMaxLines.name, .int s.tagBlockMaxLines.val),
  (minScore.name, .int s.minScore),
  (maxStableAttributes.name, .int s.maxStableAttributes.val),
  (reliableLineFloor.name, .int s.reliableLineFloor),
  (fallbackContextLines.name, .int s.fallbackContextLines.val),
  (instrumentationAttributes.name, textsValue s.instrumentationAttributes),
  (blockedPathFragments.name, textsValue s.blockedPathFragments),
  (allowedPathFragments.name, textsValue s.allowedPathFragments)]

def elementEntries (spelling : Spelling) (e : Element) : Assoc Value := [
  (tagName.spelled spelling, .str e.tagName),
  (attributes.spelled spelling, mappingValue e.attributes),
  (className.spelled spelling, .str e.className),
  (elementId.spelled spelling, .str e.id),
  (elementText.spelled spelling, .str e.text)]

def changeEntries (spelling : Spelling) (c : Change) : Assoc Value :=
  (kind.spelled spelling, .str c.kind) ::
    match c with
    | .text old new => [(oldText.spelled spelling, .str old), (newText.spelled spelling, .str new)]
    | .style css => [(cssChanges.spelled spelling, mappingValue css)]
    | .attribute name new old =>
      [(attributeName.spelled spelling, .str name), (newValue.spelled spelling, .str new),
        (oldValue.spelled spelling, .str old)]

def requestEntries (spelling : Spelling) (r : Request) : Assoc Value := [
  (sourceText.spelled spelling, .str r.sourceText),
  (requestElement.spelled spelling, .map (elementEntries spelling r.element)),
  (requestChange.spelled spelling, .map (changeEntries spelling r.change)),
  (reportedSourceLine.spelled spelling, lineValue r.reportedLine),
  (filePath.spelled spelling, .str r.filePath)]

end LiveEdit.Intake
