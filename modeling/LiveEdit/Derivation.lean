/-
  LiveEdit.Derivation — a line to work from when the reported one cannot be trusted.

  For an element it is the first line whose tag block holds all its stable attributes, for a text the first
  one that holds it in the neighbourhood of markup.
-/

import LiveEdit.Evidence
import LiveEdit.Line
import LiveEdit.Markup.TagBlock
import LiveEdit.Request
import LiveEdit.Text.Case
import LiveEdit.Text.Word

namespace LiveEdit.Derivation

open Markup

/-- The line mentions the tag, in any case, and its block holds every one of the attributes. -/
def bears (settings : Settings) (lines : List Text) (tag : Text) (attributes : List StableAttribute)
    (index : Nat) : Bool :=
  Text.occurs ('<' :: tag) (Text.lower (lines.getD index [])) &&
    attributes.all fun a => Evidence.matchesAttribute (TagBlock.read settings lines index).text a.name a.value

/-- The index of the first line that bears the element's tag and attributes. -/
def elementIndex? (settings : Settings) (lines : List Text) (element : Element) : Option Nat :=
  let tag := Text.lower element.tagName
  let attributes := Evidence.rank settings element.attributes
  if tag.isEmpty || attributes.isEmpty then none
  else (List.range lines.length).find? (bears settings lines tag attributes)

/-- A reliable line within the document; otherwise the element's derived line, or else line 1. -/
def effectiveLine (settings : Settings) (lines : List Text) (line : Value) (element : Element) :
    Except EditError Nat := do
  if ← Line.isReliable settings line then Line.clamp lines.length line
  else
    return match elementIndex? settings lines element with
      | some index => index + 1
      | none => 1

/-- `<` before a name, `</`, or `>` occurs. -/
def holdsMarkup : Text → Bool
  | [] => false
  | c :: t =>
    c = '>' || (c = '<' && (t.head?.map fun d => d = '/' || Text.isWord d).getD false) || holdsMarkup t

/-- A line with the lines before and after it. -/
def neighbourhood (lines : List Text) (index : Nat) : Text :=
  let previous := if index = 0 then [] else lines.getD (index - 1) []
  Text.unlines [previous, lines.getD index [], lines.getD (index + 1) []]

/-- The first line, counted from one, that holds a non-empty text close to markup. -/
def textLine? (lines : List Text) (old : Text) : Option Nat :=
  if old.isEmpty then none
  else
    ((List.range lines.length).find? fun index =>
      Text.occurs old (lines.getD index []) && holdsMarkup (neighbourhood lines index)).map (· + 1)

end LiveEdit.Derivation
