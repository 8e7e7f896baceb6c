/-
  LiveEdit.Number.Numeral — written numbers: sign, digits, point, exponent, and the names of infinity and
  NaN.

  `plain?` reads the bare form in ASCII. `ofText?` is lenient as to script and layout: white space around
  it, decimal digits of any script, and single underscores between digits.
-/

import LiveEdit.Text.Basic
import LiveEdit.Text.Blank
import LiveEdit.Text.Digit
import LiveEdit.Number.Double

namespace LiveEdit.Numeral

open Text

/-- Splits a sign off; the flag is set for a minus. -/
def signed : Text → Bool × Text
  | '-' :: t => (true, t)
  | '+' :: t => (false, t)
  | t => (false, t)

/-- The digits at the start and what follows them. -/
def digits (t : Text) : Text × Text := (t.takeWhile Char.isDigit, t.dropWhile Char.isDigit)

/-- A signed whole number that is the entire text. -/
def wholeExponent? (t : Text) : Option Int :=
  let (negative, t) := signed t
  let (run, rest) := digits t
  if run.isEmpty || !rest.isEmpty then none
  else some (if negative then -(digitsValue run : Int) else digitsValue run)

/-- The exponent part that ends a number: nothing, or `e` and a whole number. -/
def exponent? : Text → Option Int
  | [] => some 0
  | c :: t => if c = 'e' || c = 'E' then wholeExponent? t else none

/-- Digits with an optional point among or around them, then the exponent. -/
def magnitude? (negative : Bool) (t : Text) : Option Double :=
  let (whole, rest) := digits t
  let (fraction, rest) :=
    match rest with
    | '.' :: rest => digits rest
    | rest => ([], rest)
  if whole.isEmpty && fraction.isEmpty then none
  else
    (exponent? rest).map fun exponent =>
      Double.ofDecimal negative (digitsValue (whole ++ fraction)) (exponent - fraction.length)

/-- A number in its bare ASCII form, or the name of infinity or NaN in any case. -/
def plain? (t : Text) : Option Double :=
  let (negative, t) := signed t
  let name := t.map Char.toLower
  if name = "inf".toList || name = "infinity".toList then some (.infinite negative)
  else if name = "nan".toList then some .nan
  else magnitude? negative t

/-- Drops underscores that stand between two digits; none when there is another one. `afterDigit` tells
whether the character before is a digit. -/
def dropUnderscores? (afterDigit : Bool) : Text → Option Text
  | [] => some []
  | '_' :: t =>
    if afterDigit && (t.head?.map Char.isDigit).getD false then dropUnderscores? false t else none
  | c :: t => (dropUnderscores? c.isDigit t).map (c :: ·)

/-- A digit of any script in its ASCII form. -/
def asciiDigit (c : Char) : Char :=
  match digitValue? c with
  | some value => Char.ofNat (48 + value)
  | none => c

/-- A number as people write it. -/
def ofText? (t : Text) : Option Double :=
  (dropUnderscores? false ((trim isSpace t).map asciiDigit)).bind plain?

end LiveEdit.Numeral
