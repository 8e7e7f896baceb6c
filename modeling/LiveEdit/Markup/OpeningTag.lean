/-
  LiveEdit.Markup.OpeningTag — opening tags of an element in a text.

  A tag starts at `<` and the element's name, in any case, if a delimiter or the end of the text follows.
-/

import LiveEdit.Markup.Scan
import LiveEdit.Text.Blank
import LiveEdit.Text.Case

namespace LiveEdit.Markup

/-- A tag name ends where the text does, or before a blank, `>` or `/`. -/
def delimited : Text → Bool
  | [] => true
  | c :: _ => Text.isBlank c || c = '>' || c = '/'

/-- The length of `<` and the name, when a text begins with them. -/
def tagStart? (name t : Text) : Option Nat :=
  match Text.afterStartIgnoringCase? ('<' :: name) t with
  | some rest => if delimited rest then some (name.length + 1) else none
  | none => none

/-- Offsets of the element's tags in a text. -/
def tagOffsets (name t : Text) : List Nat := Text.matchOffsets (tagStart? name) t

def hasTagStart (name t : Text) : Bool := !(tagOffsets name t).isEmpty

/-- An opening tag in its place. `name` includes the `<`; `body` ends with the `>` that closes the tag, if
there is one. -/
structure OpeningTag where
  before : Text
  name : Text
  body : Text
  after : Text
  deriving DecidableEq, Repr

namespace OpeningTag

def head (tag : OpeningTag) : Text := tag.name ++ tag.body

/-- The text in which the tag stands. -/
def whole (tag : OpeningTag) : Text := tag.before ++ tag.head ++ tag.after

/-- The tag whose `<` is at `offset` and whose name has `length` characters. -/
def ofOffset (length : Nat) (t : Text) (offset : Nat) : OpeningTag :=
  let rest := t.drop (offset + length + 1)
  let size := Scan.tagLength {} rest
  ⟨t.take offset, (t.drop offset).take (length + 1), rest.take size, rest.drop size⟩

theorem whole_ofOffset (length : Nat) (t : Text) (offset : Nat) : (ofOffset length t offset).whole = t := by
  simp only [ofOffset, whole, head, List.append_assoc, List.take_append_drop]
  rw [show offset + length + 1 = offset + (length + 1) from rfl, ← List.drop_drop, List.take_append_drop,
    List.take_append_drop]

end OpeningTag

/-- The element's tags in a text, from left to right. -/
def openingTags (name t : Text) : List OpeningTag :=
  (tagOffsets name t).map (OpeningTag.ofOffset name.length t)

end LiveEdit.Markup
