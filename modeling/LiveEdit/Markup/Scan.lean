/-
  LiveEdit.Markup.Scan — reading an opening tag with its quotes and braces.

  The state says which quote is open, whether a backslash inside it has just been read, and how deep the
  braces are nested. A tag ends at the first `>` at top level.
-/

import LiveEdit.Text.Basic

namespace LiveEdit.Markup

structure Scan where
  quote : Option Char := none
  escaped : Bool := false
  depth : Nat := 0
  deriving DecidableEq, Repr

namespace Scan

def isQuote (c : Char) : Bool := c = '\'' || c = '"' || c = '\x60'

/-- No quote is open and all braces are closed. -/
def topLevel (s : Scan) : Bool := s.quote.isNone && s.depth = 0

/-- A closing brace without an opening one leaves the depth at zero. -/
def step (s : Scan) (c : Char) : Scan :=
  match s.quote with
  | some quote =>
    if s.escaped then { s with escaped := false }
    else if c = '\\' then { s with escaped := true }
    else if c = quote then { s with quote := none }
    else s
  | none =>
    if isQuote c then { s with quote := some c }
    else if c = '\x7b' then { s with depth := s.depth + 1 }
    else if c = '\x7d' then { s with depth := s.depth - 1 }
    else s

/-- The state after a text. -/
def after (s : Scan) (t : Text) : Scan := t.foldl step s

def closes (s : Scan) (c : Char) : Bool := s.topLevel && c = '>'

/-- How many characters belong to the tag: up to its closing `>`, or all when there is none. -/
def tagLength (s : Scan) : Text → Nat
  | [] => 0
  | c :: t => if s.closes c then 1 else tagLength (s.step c) t + 1

end Scan

/-- The offset just behind the tag that is open at `position`. -/
def openingTagEnd (t : Text) (position : Nat) : Nat :=
  min position t.length + Scan.tagLength {} (t.drop position)

end LiveEdit.Markup
