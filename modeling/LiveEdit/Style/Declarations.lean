/-
  LiveEdit.Style.Declarations — the declarations of a style string as entries of a style object.
-/

import LiveEdit.Style.Literal

namespace LiveEdit.Style

/-- A property and its value, which the first colon separates. Without a colon or without a property there is
no declaration. -/
def declaration? (t : Text) : Option (Text × Text) :=
  match Text.cut? [':'] t with
  | some (property, value) => if Text.allBlank property then none else some (property, value)
  | none => none

/-- The entries of a style string, in which semicolons separate the declarations. -/
def ofDeclarations (t : Text) : Assoc Text := ofChanges ((Text.splitOn ';' t).filterMap declaration?)

end LiveEdit.Style
