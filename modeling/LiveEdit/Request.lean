/-
  LiveEdit.Request — what the live inspector asks for: an element, a change to it, and where it may be.
-/

import LiveEdit.Value

namespace LiveEdit

/-- An element as the inspector saw it. -/
structure Element where
  tagName : Text := []
  attributes : Assoc Text := []
  className : Text := []
  id : Text := []
  text : Text := []
  deriving DecidableEq

inductive Change where
  | text (oldText newText : Text)
  | style (cssChanges : Assoc Text)
  | attribute (name newValue oldValue : Text)
  deriving DecidableEq

def Change.kind : Change → Text
  | .text .. => "text".toList
  | .style .. => "style".toList
  | .attribute .. => "attribute".toList

/-- The line number that the inspector reports. It need not be a line of the source. -/
inductive ReportedLine where
  | int (n : Int)
  | float (x : Double)
  deriving DecidableEq

def ReportedLine.value : ReportedLine → Value
  | .int n => .int n
  | .float x => .float x

/-- A line number as plain data, null when there is none. -/
def lineValue (line : Option ReportedLine) : Value := (line.map ReportedLine.value).getD .null

structure Request where
  sourceText : Text
  element : Element := {}
  change : Change
  reportedLine : Option ReportedLine := none
  filePath : Text := []
  deriving DecidableEq

end LiveEdit
