/-
  LiveEdit.Markup.TagBlock — the lines over which an opening tag may be wrapped.

  A block begins at a given line and ends with the first line that holds a `>`, after the largest allowed
  number of lines, or with the document.
-/

import LiveEdit.Settings

namespace LiveEdit.Markup

/-- The lines up to the first one that holds a `>`, at most `room` of them. -/
def blockLines : (room : Nat) → List Text → List Text
  | 0, _ => []
  | _ + 1, [] => []
  | room + 1, line :: lines => if line.contains '>' then [line] else line :: blockLines room lines

structure TagBlock where
  lines : List Text
  deriving DecidableEq, Repr

namespace TagBlock

def text (b : TagBlock) : Text := Text.unlines b.lines

def height (b : TagBlock) : Nat := b.lines.length

/-- The block that begins with the first of the given lines. -/
def ofLines (settings : Settings) (lines : List Text) : TagBlock :=
  ⟨blockLines settings.tagBlockMaxLines.val lines⟩

/-- The block that begins at line `start`, counted from zero. -/
def read (settings : Settings) (lines : List Text) (start : Nat) : TagBlock :=
  ofLines settings (lines.drop start)

end TagBlock

/-- The lines from an index on. A negative index counts from the end, and the document then follows once more
from its beginning. -/
def linesFrom (lines : List Text) (start : Int) : List Text :=
  if 0 ≤ start then lines.drop start.toNat
  else if start.natAbs ≤ lines.length then lines.drop (lines.length - start.natAbs) ++ lines
  else []

/-- The block at an index that may be negative, with the index of its last line; none outside of the
document. -/
def blockAt? (settings : Settings) (lines : List Text) (start : Int) : Option (TagBlock × Int) :=
  let rest := linesFrom lines start
  if rest.isEmpty then none
  else
    let block := TagBlock.ofLines settings rest
    some (block, start + block.height - 1)

end LiveEdit.Markup
