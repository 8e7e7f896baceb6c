/-
  LiveEdit.Number.Shortest — a double written with the fewest digits that read back as it.

  Of two such numerals with the same count of digits the nearer one is taken, of equally near ones the one
  with the even digit. The written form is positional while the leading digit stands between the fourth
  place behind the point and the sixteenth before it, and has an exponent of two digits or more otherwise.
-/

import LiveEdit.Number.Double
import LiveEdit.Text.Basic
import LiveEdit.Text.Blank

namespace LiveEdit.Shortest

/-- The power of ten just above `num / den`: the least `p` with `num / den < 10 ^ p`. -/
def decimalPoint (num den : Nat) : Int :=
  if den ≤ num then (Nat.toDigits 10 (num / den)).length
  else
    let length := (Nat.toDigits 10 (den / num)).length
    if den = num * Nat.pow 10 (length - 1) then 2 - length else 1 - length

/-- `num / den` as a fraction of `10 ^ exponent`. -/
def scaled (num den : Nat) (exponent : Int) : Nat × Nat :=
  (num * Nat.pow 10 (-exponent).toNat, den * Nat.pow 10 exponent.toNat)

/-- The numeral of `num / den` in units of `10 ^ exponent` that reads back as `x`, if there is one. -/
def onGrid? (x : Double) (num den : Nat) (exponent : Int) : Option Nat :=
  let (n, d) := scaled num den exponent
  let low := n / d
  let readsBack (digits : Nat) : Bool := Double.ofDecimal false digits exponent = x
  match readsBack low, readsBack (low + 1) with
  | true, true => some (Double.divNearest n d)
  | true, false => some low
  | false, true => some (low + 1)
  | false, false => none

/-- Tries grids of `count`, `count + 1`, … digits, at most `more + 1` of them. -/
def search (x : Double) (num den : Nat) (point : Int) (count : Nat) : Nat → Nat × Int
  | 0 => ((onGrid? x num den (point - count)).getD 0, point - count)
  | more + 1 =>
    match onGrid? x num den (point - count) with
    | some digits => (digits, point - count)
    | none => search x num den point (count + 1) more

/-- Digits and exponent of the shortest numeral of a positive double. Seventeen digits always suffice. -/
def decimal (mantissa : Nat) (exponent : Int) : Nat × Int :=
  let num := mantissa * Nat.pow 2 exponent.toNat
  let den := Nat.pow 2 (-exponent).toNat
  search (.finite false mantissa exponent) num den (decimalPoint num den) 1 16

/-- An exponent with its sign and at least two digits. -/
def exponentText (e : Int) : Text :=
  let run := Nat.toDigits 10 e.natAbs
  (if e < 0 then '-' else '+') :: (if run.length < 2 then '0' :: run else run)

/-- Writes `digits · 10 ^ exponent`. -/
def render (digits : Nat) (exponent : Int) : Text :=
  let all := Nat.toDigits 10 digits
  let run := Text.dropEndWhile (· = '0') all
  let leading : Int := all.length + exponent - 1
  if -4 ≤ leading && leading < 16 then
    if leading < 0 then
      '0' :: '.' :: List.replicate (-leading - 1).toNat '0' ++ run
    else
      let whole := leading.toNat + 1
      let fraction := run.drop whole
      run.take whole ++ List.replicate (whole - run.length) '0' ++
        '.' :: (if fraction.isEmpty then ['0'] else fraction)
  else
    let fraction := run.drop 1
    run.take 1 ++ (if fraction.isEmpty then [] else '.' :: fraction) ++ 'e' :: exponentText leading

def text : Double → Text
  | .nan => "nan".toList
  | .infinite negative => (if negative then "-inf" else "inf").toList
  | .finite negative mantissa exponent =>
    let body :=
      if mantissa = 0 then "0.0".toList
      else
        let (digits, exponent) := decimal mantissa exponent
        render digits exponent
    if negative then '-' :: body else body

end LiveEdit.Shortest
