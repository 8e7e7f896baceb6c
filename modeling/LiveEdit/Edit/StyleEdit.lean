/-
  LiveEdit.Edit.StyleEdit — writing inline style properties into an opening tag.

  A tag without `style` gets one right after its name. A flat style object or a style string is replaced by an
  object that holds its entries and the new ones; any other expression is left alone.
-/

import LiveEdit.Edit.TagEdit
import LiveEdit.Style.Declarations
import LiveEdit.Style.Object

namespace LiveEdit.StyleEdit

open Markup

/-- The value of a `style` attribute. -/
inductive Written where
  | object (body : Text)
  | string (body : Text)
  | other
  deriving DecidableEq, Repr

/-- A flat object between double braces, at the start of a text, and what follows it. -/
def object? : Text → Option (Text × Text)
  | '\x7b' :: '\x7b' :: t =>
    let isBody (c : Char) : Bool := c ≠ '\x7b' && c ≠ '\x7d'
    match t.dropWhile isBody with
    | '\x7d' :: '\x7d' :: rest => some (t.takeWhile isBody, rest)
    | _ => none
  | _ => none

/-- A string between quotes of one kind, at the start of a text, and what follows it. -/
def string? : Text → Option (Text × Text)
  | [] => none
  | quote :: t =>
    if quote = '\'' || quote = '"' then
      match t.dropWhile (· ≠ quote) with
      | [] => none
      | _ :: rest => some (t.takeWhile (· ≠ quote), rest)
    else none

/-- Reads a `style` attribute at a place where a name begins. -/
def written? (previous : Option Char) (t : Text) : Option (Written × Text) :=
  if TagEdit.startsName previous then
    (TagEdit.afterAssignment? "style".toList t).map fun value =>
      match object? value, string? value with
      | some (body, rest), _ => (.object body, rest)
      | none, some (body, rest) => (.string body, rest)
      | none, none => (.other, value)
  else none

/-- The attribute with a style object as its value. -/
def assignment (entries : Assoc Text) : Text := "style=".toList ++ Style.print entries

/-- The edit that brings new entries into a tag. -/
def ofTag? (new : Assoc Text) (tag : OpeningTag) : Option TagEdit :=
  match Text.Passage.first? written? none tag.head with
  | none => some (.replace ⟨tag.name, [], tag.body⟩ (' ' :: assignment new))
  | some (place, .object body) =>
    (Style.parse? body).map fun existing =>
      let merged := existing.putAll new
      if merged = existing then .unchanged else .replace place (assignment merged)
  | some (place, .string body) =>
    some (.replace place (assignment ((Style.ofDeclarations body).putAll new)))
  | some (_, .other) => none

/-- The document with the changes in the style of the element's tag, or none if the edit declines. -/
def apply (settings : Settings) (content : Text) (line : Except EditError Nat) (element : Element)
    (css : Assoc Text) : Except EditError (Option Text) :=
  if css.isEmpty then .ok none
  else TagEdit.apply settings content line element (ofTag? (Style.ofChanges css))

end LiveEdit.StyleEdit
