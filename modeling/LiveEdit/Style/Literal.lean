/-
  LiveEdit.Style.Literal — CSS properties and values as keys and literals of a style object.

  A property becomes a key in camel case, a custom property a quoted key. A value becomes a single-quoted
  string literal.
-/

import LiveEdit.Text.Blank
import LiveEdit.Value

namespace LiveEdit.Style

/-- Drops each hyphen before a small ASCII letter and makes that letter a capital. -/
def camelCase : Text → Text
  | [] => []
  | '-' :: c :: t => if c.isLower then c.toUpper :: camelCase t else '-' :: camelCase (c :: t)
  | c :: t => c :: camelCase t

/-- The key of a property; two hyphens in front mark a custom property. -/
def key (property : Text) : Text :=
  let property := Text.strip property
  if ['-', '-'].isPrefixOf property then '\'' :: property ++ ['\''] else camelCase property

/-- One character inside single quotes. -/
def literalChar (c : Char) : Text := if c = '\\' || c = '\'' then ['\\', c] else [c]

/-- A text without the blanks around it as a string literal. -/
def literal (t : Text) : Text := '\'' :: (Text.strip t).flatMap literalChar ++ ['\'']

/-- The literal of a value of any type. -/
def valueLiteral (v : Value) : Text := literal v.display

/-- The entries that a set of changes writes. Of changes with one key the last counts, at the place of the
first. -/
def ofChanges (css : Assoc Text) : Assoc Text :=
  Assoc.ofPairs (css.map fun (property, value) => (key property, literal value))

/-- Changes with values of any type as changes with texts. -/
def changesOfValues (css : Assoc Value) : Assoc Text := css.map fun (property, v) => (property, v.display)

end LiveEdit.Style
