/-
  LiveEdit.Edit.TagEdit — editing the opening tag of an element, and nothing else of the document.
-/

import LiveEdit.Edit.Candidate
import LiveEdit.Text.Passage
import LiveEdit.Text.Word

namespace LiveEdit

open Markup

/-- What an edit makes of a tag from its `<` on: nothing, as it is already as wanted, or a passage of it is
replaced. -/
inductive TagEdit where
  | unchanged
  | replace (place : Text.Passage) (new : Text)
  deriving DecidableEq, Repr

namespace TagEdit

/-- A name begins here: the character before is none that a longer name could hold. -/
def startsName (previous : Option Char) : Bool :=
  previous.all fun c => !(Text.isWord c || c = ':' || c = '-')

/-- What follows a name, an equals sign and the blanks around it. -/
def afterAssignment? (name t : Text) : Option Text :=
  match ((Text.afterStart? name t).map (·.dropWhile Text.isBlank)) with
  | some ('=' :: rest) => some (rest.dropWhile Text.isBlank)
  | _ => none

/-- The document after the edit of one of its tags. -/
def document (content : Text) (c : Candidate) (tag : OpeningTag) : TagEdit → Text
  | .unchanged => content
  | .replace place new => c.splice (Text.lines content) (tag.before ++ place.replace new ++ tag.after)

/-- Finds the element's opening tag near a line and edits it. The edit may decline. -/
def apply (settings : Settings) (content : Text) (line : Except EditError Nat) (element : Element)
    (edit : OpeningTag → Option TagEdit) : Except EditError (Option Text) :=
  (Candidate.locate settings (Text.lines content) line element).map fun candidate => do
    let c ← candidate
    let tag ← c.openingTag? settings element
    let result ← edit tag
    return document content c tag result

end TagEdit

end LiveEdit
