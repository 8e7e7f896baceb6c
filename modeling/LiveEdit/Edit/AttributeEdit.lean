/-
  LiveEdit.Edit.AttributeEdit — giving an attribute of an opening tag another value.

  The attribute is the leftmost one of its name with a quoted value or a braced expression. The new value is
  quoted as the old one was, or by the other quote if it holds that one; a value that holds both declines.
-/

import LiveEdit.Edit.TagEdit

namespace LiveEdit.AttributeEdit

open Markup

/-- The value of an attribute as it stands in the tag. -/
inductive Written where
  | quoted (quote : Char) (value : Text)
  | expression
  deriving DecidableEq, Repr

/-- A quoted value on one line. -/
def quoted? (name : Text) (previous : Option Char) (t : Text) : Option (Written × Text) :=
  if TagEdit.startsName previous then
    match TagEdit.afterAssignment? name t with
    | some (quote :: t) =>
      let isInside (c : Char) : Bool := c ≠ quote && c ≠ '\n'
      if quote = '\'' || quote = '"' then
        match t.dropWhile isInside with
        | c :: rest => if c = quote then some (.quoted quote (t.takeWhile isInside), rest) else none
        | [] => none
      else none
    | _ => none
  else none

/-- An expression up to the first closing brace. -/
def expression? (name : Text) (previous : Option Char) (t : Text) : Option (Written × Text) :=
  if TagEdit.startsName previous then
    match TagEdit.afterAssignment? name t with
    | some ('\x7b' :: t) =>
      match t.dropWhile (· ≠ '\x7d') with
      | _ :: rest => some (.expression, rest)
      | [] => none
    | _ => none
  else none

/-- The leftmost attribute of a name. -/
def written? (name head : Text) : Option (Text.Passage × Written) :=
  match Text.Passage.first? (quoted? name) none head, Text.Passage.first? (expression? name) none head with
  | some a, some b => if b.1.before.length < a.1.before.length then some b else some a
  | some a, none => some a
  | none, b => b

def otherQuote (quote : Char) : Char := if quote = '"' then '\'' else '"'

/-- The quote for a value, by preference the given one. -/
def quoteFor? (preferred : Char) (value : Text) : Option Char :=
  if !value.contains preferred then some preferred
  else if !value.contains (otherQuote preferred) then some (otherQuote preferred)
  else none

def Written.quote : Written → Char
  | .quoted quote _ => quote
  | .expression => '"'

/-- The edit that gives the attribute of a tag a new value. -/
def ofTag? (name value : Text) (tag : OpeningTag) : Option TagEdit := do
  let (place, written) ← written? name tag.head
  let quote ← quoteFor? written.quote value
  if written = .quoted written.quote value then return .unchanged
  else return .replace place (name ++ '=' :: quote :: value ++ [quote])

/-- The document with the new value in the element's tag, or none if the edit declines. -/
def apply (settings : Settings) (content : Text) (line : Except EditError Nat) (element : Element)
    (name value : Text) : Except EditError (Option Text) :=
  TagEdit.apply settings content line element (ofTag? name value)

end LiveEdit.AttributeEdit
