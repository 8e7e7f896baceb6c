/-
  LiveEdit.Text.Quoted — a text in quotes for people to read: what has no visible form is escaped.

  Single quotes enclose it, unless it holds a single quote and no double quote.
-/

import LiveEdit.Text.Basic
import LiveEdit.Text.Printable

namespace LiveEdit.Text

/-- `n` in lower-case hexadecimal, with zeros in front to make `width` digits. -/
def hexadecimal (width n : Nat) : Text :=
  let digits := Nat.toDigits 16 n
  List.replicate (width - digits.length) '0' ++ digits

def enclosingQuote (t : Text) : Char := if t.contains '\'' && !t.contains '"' then '"' else '\''

/-- One character as it stands between quotes of the kind `quote`. -/
def quotedChar (quote c : Char) : Text :=
  if c = quote || c = '\\' then ['\\', c]
  else if c = '\t' then ['\\', 't']
  else if c = '\n' then ['\\', 'n']
  else if c = '\r' then ['\\', 'r']
  else if isPrintable c then [c]
  else if c.toNat ≤ 0xff then '\\' :: 'x' :: hexadecimal 2 c.toNat
  else if c.toNat ≤ 0xffff then '\\' :: 'u' :: hexadecimal 4 c.toNat
  else '\\' :: 'U' :: hexadecimal 8 c.toNat

def quoted (t : Text) : Text :=
  let quote := enclosingQuote t
  quote :: t.flatMap (quotedChar quote) ++ [quote]

end LiveEdit.Text
