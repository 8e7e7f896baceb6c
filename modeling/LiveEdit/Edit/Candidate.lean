/-
  LiveEdit.Edit.Candidate — the one place near a line that bears the evidence for an element.

  A line of the window is a candidate if it holds the start of the element's tag and its block holds at least
  one stable attribute. Exactly one candidate has to reach the least score.
-/

import LiveEdit.Evidence
import LiveEdit.Line
import LiveEdit.Markup.OpeningTag
import LiveEdit.Markup.TagBlock
import LiveEdit.Request

namespace LiveEdit

open Markup

/-- A tag block at line `start`, counted from zero, with its evidence. -/
structure Candidate where
  start : Nat
  block : TagBlock
  score : Int
  matched : List Text
  deriving DecidableEq, Repr

namespace Candidate

/-- The index of the last line of the block. -/
def last (c : Candidate) : Nat := c.start + c.block.height - 1

/-- The candidate at one line. -/
def ofLine? (settings : Settings) (lines : List Text) (tag : Text) (attributes : List StableAttribute)
    (index : Nat) : Option Candidate :=
  if hasTagStart tag (lines.getD index []) then
    let block := TagBlock.read settings lines index
    let (score, matched) := Evidence.score block.text attributes
    if matched.isEmpty then none else some ⟨index, block, score, matched⟩
  else none

/-- The candidates of the lines from `start` up to `stop`. -/
def inWindow (settings : Settings) (lines : List Text) (tag : Text) (attributes : List StableAttribute)
    (start stop : Nat) : List Candidate :=
  (List.range' start (stop - start)).filterMap (ofLine? settings lines tag attributes)

/-- The only candidate around a line that reaches the least score. -/
def unique? (settings : Settings) (lines : List Text) (tag : Text) (attributes : List StableAttribute)
    (line : Nat) : Option Candidate :=
  let (start, stop) := Line.around settings.styleScanRadius.val lines.length line
  match (inWindow settings lines tag attributes start stop).filter
      fun c => decide ((settings.minScore : Int) ≤ c.score) with
  | [c] => some c
  | _ => none

/-- The unique candidate for an element near a line. An element without stable attributes has none; one
without a tag name cannot be looked for. The line matters only if there is something to look for. -/
def locate (settings : Settings) (lines : List Text) (line : Except EditError Nat) (element : Element) :
    Except EditError (Option Candidate) :=
  let tag := Text.lower element.tagName
  let attributes := Evidence.rank settings element.attributes
  if tag.isEmpty then .error .missingTagName
  else if attributes.isEmpty then .ok none
  else line.map (unique? settings lines tag attributes)

/-- The first opening tag of the element in the block that by itself holds all attributes that the block
holds. -/
def openingTag? (settings : Settings) (element : Element) (c : Candidate) : Option OpeningTag :=
  let attributes := (Evidence.rank settings element.attributes).filter fun a => c.matched.contains a.name
  (openingTags (Text.strip element.tagName) c.block.text).find? fun tag =>
    attributes.all fun a => Evidence.matchesAttribute tag.head a.name a.value

/-- The document with the text of the block replaced. -/
def splice (c : Candidate) (lines : List Text) (block : Text) : Text :=
  Text.unlines (lines.take c.start ++ Text.lines block ++ lines.drop (c.start + c.block.height))

end Candidate

end LiveEdit
