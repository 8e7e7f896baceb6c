/-
  LiveEdit.Text.Blank — blank characters, and text seen up to its blanks.

  `strip` takes the blanks off both ends; `collapse` makes every run of blanks one space.
-/

namespace LiveEdit.Text

/-- White space in the sense of Unicode's property of that name. -/
def isSpace (c : Char) : Bool :=
  let n := c.toNat
  if n < 128 then n = 32 || (9 ≤ n && n ≤ 13)
  else n = 0x85 || n = 0xa0 || n = 0x1680 || (0x2000 ≤ n && n ≤ 0x200a) || n = 0x2028 || n = 0x2029 ||
    n = 0x202f || n = 0x205f || n = 0x3000

/-- White space, or one of the four information separators. -/
def isBlank (c : Char) : Bool := (28 ≤ c.toNat && c.toNat ≤ 31) || isSpace c

/-- The text without the characters of `p` at its end. -/
def dropEndWhile (p : Char → Bool) (t : List Char) : List Char := (t.reverse.dropWhile p).reverse

/-- The text without the characters of `p` at either end. -/
def trim (p : Char → Bool) (t : List Char) : List Char := dropEndWhile p (t.dropWhile p)

def strip (t : List Char) : List Char := trim isBlank t

/-- Nothing but blanks. -/
def allBlank (t : List Char) : Bool := t.all isBlank

/-- `inRun` tells whether the character before was blank. -/
def collapseFrom (inRun : Bool) : List Char → List Char
  | [] => []
  | c :: t =>
    if isBlank c then if inRun then collapseFrom true t else ' ' :: collapseFrom true t
    else c :: collapseFrom false t

def collapse (t : List Char) : List Char := collapseFrom false t

end LiveEdit.Text
