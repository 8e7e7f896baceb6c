/-
  LiveEdit.Number.Double — double-precision numbers in exact integers.

  A finite double is `± mantissa · 2 ^ exponent` with a mantissa below `2 ^ 53` and an exponent of at
  least -1074; `round` takes any fraction to the nearest one, halves to the even mantissa. Zero keeps its
  sign and has the least exponent.
-/

namespace LiveEdit

inductive Double where
  | nan
  | infinite (negative : Bool)
  | finite (negative : Bool) (mantissa : Nat) (exponent : Int)
  deriving DecidableEq, Repr

namespace Double

def zero (negative : Bool) : Double := .finite negative 0 (-1074)

/-- `num / den` as a fraction of `2 ^ exponent`. -/
def scaled (num den : Nat) (exponent : Int) : Nat × Nat :=
  (num * Nat.pow 2 (-exponent).toNat, den * Nat.pow 2 exponent.toNat)

/-- The whole number nearest to `num / den`, of two equally near ones the even one. -/
def divNearest (num den : Nat) : Nat :=
  let whole := num / den
  let twice := 2 * (num % den)
  if twice < den then whole
  else if den < twice then whole + 1
  else if whole % 2 = 0 then whole
  else whole + 1

/-- The exponent at which `num / den` has 53 binary digits, but never below the least. -/
def exponentFor (num den : Nat) : Int :=
  let guess : Int := num.log2 - den.log2 - 52
  let (n, d) := scaled num den guess
  max (if n / d < Nat.pow 2 52 then guess - 1 else guess) (-1074)

/-- The double nearest to `± num / den`; beyond the largest one, infinity. -/
def round (negative : Bool) (num den : Nat) : Double :=
  if num = 0 then zero negative
  else
    let exponent := exponentFor num den
    let (n, d) := scaled num den exponent
    let mantissa := divNearest n d
    let (mantissa, exponent) :=
      if mantissa = Nat.pow 2 53 then (Nat.pow 2 52, exponent + 1) else (mantissa, exponent)
    if 971 < exponent then .infinite negative else .finite negative mantissa exponent

/-- The double nearest to `± digits · 10 ^ exponent`. Far outside the range of doubles the answer is known
without the power of ten. -/
def ofDecimal (negative : Bool) (digits : Nat) (exponent : Int) : Double :=
  let magnitude : Int := (Nat.toDigits 10 digits).length + exponent
  if digits = 0 || magnitude < -330 then zero negative
  else if 310 < magnitude then .infinite negative
  else round negative (digits * Nat.pow 10 exponent.toNat) (Nat.pow 10 (-exponent).toNat)

/-- The double nearest to a whole number, unless that is beyond the largest one. -/
def ofInt? (n : Int) : Option Double :=
  match round (n < 0) n.natAbs 1 with
  | .finite negative mantissa exponent => some (.finite negative mantissa exponent)
  | _ => none

def isFinite : Double → Bool
  | .finite .. => true
  | _ => false

def isZero : Double → Bool
  | .finite _ mantissa _ => mantissa = 0
  | _ => false

/-- A finite double as a fraction with a power of two below. -/
def fraction (negative : Bool) (mantissa : Nat) (exponent : Int) : Int × Nat :=
  let top : Int := (mantissa * Nat.pow 2 exponent.toNat : Nat)
  (if negative then -top else top, Nat.pow 2 (-exponent).toNat)

/-- The value is `n` or more; not so for NaN. -/
def atLeast : Double → Int → Bool
  | .nan, _ => false
  | .infinite negative, _ => !negative
  | .finite negative mantissa exponent, n =>
    let (top, bottom) := fraction negative mantissa exponent
    n * bottom ≤ top

/-- The whole part, when the value is finite. -/
def truncate? : Double → Option Int
  | .finite negative mantissa exponent =>
    let (top, bottom) := fraction negative mantissa exponent
    some (top.tdiv bottom)
  | _ => none

/-- The value, when it is a whole number. -/
def whole? : Double → Option Int
  | .finite negative mantissa exponent =>
    let (top, bottom) := fraction negative mantissa exponent
    if top % bottom = 0 then some (top / bottom) else none
  | _ => none

end Double

end LiveEdit
