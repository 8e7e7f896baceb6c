/-
  LiveEdit.Intake.Issue — what can be wrong with data that is offered as settings or as a request.

  An issue has the path to the place and a fault; each fault has a code and a message. `Checked` collects the
  issues of independent parts instead of stopping at the first.
-/

import LiveEdit.Text.Basic

namespace LiveEdit.Intake

inductive Step where
  | field (name : Text)
  | index (n : Nat)
  deriving DecidableEq, Repr

/-- Rules on values that have the right type. -/
inductive Rule where
  | positive
  | nonNegative
  | attributeMapping
  | cssMapping
  | attributeName
  deriving DecidableEq, Repr

def Rule.message : Rule → Text
  | .positive => "must be a positive integer".toList
  | .nonNegative => "must not be negative".toList
  | .attributeMapping => "attributes must be a mapping of name to value".toList
  | .cssMapping => "cssChanges must be a mapping of property to value".toList
  | .attributeName => "attribute name must not be empty".toList

inductive Fault where
  | missing
  /-- No mapping where a record named `record` is expected. -/
  | notRecord (record : Text)
  /-- No mapping where one of several records is expected. -/
  | notTagged
  | noTag
  | unknownTag (tag : Text)
  | notText
  | notList
  | notInteger
  | fractional
  | notFinite
  | unreadableInteger
  | notNumber
  | unreadableNumber
  | notLiteral (expected : Text)
  | broken (rule : Rule)
  deriving DecidableEq, Repr

def Fault.code : Fault → Text
  | .missing => "missing".toList
  | .notRecord _ => "model_type".toList
  | .notTagged => "model_attributes_type".toList
  | .noTag => "union_tag_not_found".toList
  | .unknownTag _ => "union_tag_invalid".toList
  | .notText => "string_type".toList
  | .notList => "list_type".toList
  | .notInteger => "int_type".toList
  | .fractional => "int_from_float".toList
  | .notFinite => "finite_number".toList
  | .unreadableInteger => "int_parsing".toList
  | .notNumber => "float_type".toList
  | .unreadableNumber => "float_parsing".toList
  | .notLiteral _ => "literal_error".toList
  | .broken _ => "value_error".toList

def Fault.message : Fault → Text
  | .missing => "Field required".toList
  | .notRecord record => "Input should be a valid dictionary or instance of ".toList ++ record
  | .notTagged => "Input should be a valid dictionary or object to extract fields from".toList
  | .noTag => "Unable to extract tag using discriminator 'kind'".toList
  | .unknownTag tag =>
    "Input tag '".toList ++ tag ++ "' found using 'kind' does not match any of the expected tags: ".toList ++
      "'text', 'style', 'attribute'".toList
  | .notText => "Input should be a valid string".toList
  | .notList => "Input should be a valid list".toList
  | .notInteger => "Input should be a valid integer".toList
  | .fractional => "Input should be a valid integer, got a number with a fractional part".toList
  | .notFinite => "Input should be a finite number".toList
  | .unreadableInteger => "Input should be a valid integer, unable to parse string as an integer".toList
  | .notNumber => "Input should be a valid number".toList
  | .unreadableNumber => "Input should be a valid number, unable to parse string as a number".toList
  | .notLiteral expected => "Input should be '".toList ++ expected ++ ['\'']
  | .broken rule => "Value error, ".toList ++ rule.message

structure Issue where
  path : List Step
  fault : Fault
  deriving DecidableEq, Repr

/-- A value, or the issues that stand in its way. -/
inductive Checked (α : Type) where
  | ok (a : α)
  | issues (found : List Issue)
  deriving DecidableEq

namespace Checked

variable {α β : Type}

def refuse (fault : Fault) : Checked α := .issues [⟨[], fault⟩]

/-- The issues of both parts, in order. -/
def apply : Checked (α → β) → Checked α → Checked β
  | .ok f, .ok a => .ok (f a)
  | .ok _, .issues b => .issues b
  | .issues a, .ok _ => .issues a
  | .issues a, .issues b => .issues (a ++ b)

instance : Applicative Checked where
  pure := .ok
  seq f a := apply f (a ())

/-- A further check, made only on a value without issues. -/
def andThen (a : Checked α) (check : α → Checked β) : Checked β :=
  match a with
  | .ok a => check a
  | .issues found => .issues found

/-- Places the issues of a part below `step`. -/
def below (step : Step) : Checked α → Checked α
  | .ok a => .ok a
  | .issues found => .issues (found.map fun issue => { issue with path := step :: issue.path })

end Checked

end LiveEdit.Intake
