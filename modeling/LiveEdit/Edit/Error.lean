/-
  LiveEdit.Edit.Error — why an edit cannot be tried at all. An edit that is tried may still decline.
-/

import LiveEdit.Text.Basic

namespace LiveEdit

inductive EditError where
  | missingTagName
  /-- The line number is a whole number beyond the largest double. -/
  | lineTooLarge
  deriving DecidableEq, Repr

def EditError.message : EditError → Text
  | .missingTagName => "Element descriptor has no tag name".toList
  | .lineTooLarge => "int too large to convert to float".toList

end LiveEdit
