/-
  LiveEdit.Line — line numbers as the inspector reports them: any value, seldom a line of the source.

  A value is taken as a double. `isReliable` tells whether to trust it, `isUsable` whether it says anything,
  and `clamp` makes it a line of the document.
-/

import LiveEdit.Edit.Error
import LiveEdit.Number.Numeral
import LiveEdit.Settings
import LiveEdit.Value

namespace LiveEdit.Line

/-- The number that a value is or writes. -/
def number? : Value → Except EditError (Option Double)
  | .bool b => .ok (Double.ofInt? (if b then 1 else 0))
  | .int n =>
    match Double.ofInt? n with
    | some x => .ok (some x)
    | none => .error .lineTooLarge
  | .float x => .ok (some x)
  | .str t => .ok (Numeral.ofText? t)
  | _ => .ok none

/-- The number of a value that is not a mere yes or no. -/
def position? : Value → Except EditError (Option Double)
  | .bool _ => .ok none
  | v => number? v

/-- A finite number that reaches the floor. -/
def isReliable (settings : Settings) (line : Value) : Except EditError Bool :=
  (position? line).map fun
    | some x => x.isFinite && x.atLeast settings.reliableLineFloor
    | none => false

/-- A finite number other than zero. -/
def isUsable (line : Value) : Except EditError Bool :=
  (position? line).map fun
    | some x => x.isFinite && !x.isZero
    | none => false

/-- The line from 1 to `count` that a number points to; 1 when it points before the first line. -/
def clampNumber (count : Nat) (x : Double) : Nat :=
  match x.truncate? with
  | some n => if x.atLeast 1 then min n.toNat (max 1 count) else 1
  | none => 1

/-- The line that a value points to in a document of `count` lines; line 1 when it is no number. -/
def clamp (count : Nat) (line : Value) : Except EditError Nat :=
  (number? line).map fun
    | some x => clampNumber count x
    | none => 1

/-- The lines from `radius` above to `radius` below a line, as the count of lines before them and the count
of lines up to their end. -/
def around (radius count line : Nat) : Nat × Nat := (line - radius - 1, min count (line + radius))

end LiveEdit.Line
