/-
  LiveEdit.Evidence — by which attributes an element is recognised in raw markup.

  `rank` keeps the attributes that are likely to stand in the source as the inspector saw them and puts the
  weightiest first (`rankValues` for values of any type, which have to be written first); `score` adds up the weights of
  those that a piece of markup holds.
-/

import LiveEdit.Settings
import LiveEdit.Text.Blank
import LiveEdit.Value

namespace LiveEdit

structure StableAttribute where
  name : Text
  value : Text
  weight : Int
  deriving DecidableEq, Repr

namespace Evidence

/-! ## Ranking -/

/-- Attributes whose values are computed at run time or rewritten by tools. -/
def volatileAttributes : List Text :=
  ["class".toList, "className".toList, "id".toList, "style".toList]

def fixedWeights : Assoc Int := [
  ("d".toList, 100), ("href".toList, 80), ("xlink:href".toList, 80), ("src".toList, 80),
  ("aria-label".toList, 70), ("viewBox".toList, 60)]

/-- How well an attribute identifies its element: for a few names a fixed weight, otherwise the length of the
value between 10 and 40. -/
def weight (name value : Text) : Int :=
  (fixedWeights.get? name).getD (min 40 (max 10 value.length))

def isEligible (settings : Settings) (name value : Text) : Bool :=
  !name.isEmpty && !value.isEmpty && !volatileAttributes.contains name &&
    !settings.instrumentationAttributes.contains name

/-- The attribute without blanks around its name and value, if it may serve as evidence. -/
def stable? (settings : Settings) (item : Text × Text) : Option StableAttribute :=
  let name := Text.strip item.1
  let value := Text.strip item.2
  if isEligible settings name value then some ⟨name, value, weight name value⟩ else none

/-- Puts an attribute before the first one that is not heavier. -/
def insertRanked (a : StableAttribute) : List StableAttribute → List StableAttribute
  | [] => [a]
  | b :: ranked => if b.weight ≤ a.weight then a :: b :: ranked else b :: insertRanked a ranked

/-- By falling weight; equal weights keep their order. -/
def sortRanked (attributes : List StableAttribute) : List StableAttribute :=
  attributes.foldr insertRanked []

/-- The weightiest eligible attributes, as many as the settings allow. -/
def rank (settings : Settings) (attributes : Assoc Text) : List StableAttribute :=
  (sortRanked (attributes.filterMap (stable? settings))).take settings.maxStableAttributes.val

/-- The text of a value as evidence; what counts as nothing gives none. -/
def valueText (v : Value) : Except Value.DigitError Text := if v.isNothing then .ok [] else v.text

/-- The attributes with the texts of their values. A value that cannot be written fails whatever its name is. -/
def textsOf (attributes : Assoc Value) : Except Value.DigitError (Assoc Text) :=
  attributes.mapM fun (name, v) => return (name, ← valueText v)

/-- The ranking of attributes with values of any type. -/
def rankValues (settings : Settings) (attributes : Assoc Value) :
    Except Value.DigitError (List StableAttribute) :=
  return rank settings (← textsOf attributes)

/-! ## Matching -/

/-- How much of a long value has to be found. -/
def prefixLength (value : Text) : Nat := min 64 (max 12 (value.length / 3))

/-- The markup assigns to the attribute, and the value, its beginning, or its beginning up to the kind of
blanks occurs somewhere in the markup. -/
def matchesAttribute (markup name value : Text) : Bool :=
  if markup.isEmpty || name.isEmpty || value.isEmpty then false
  else if !Text.occurs (name ++ ['=']) markup then false
  else
    let start := (Text.strip (Text.collapse value)).take (prefixLength value)
    Text.occurs value markup || Text.occurs (value.take (prefixLength value)) markup ||
      (!start.isEmpty && Text.occurs start (Text.collapse markup))

/-- The attributes that the markup holds. -/
def found (markup : Text) (attributes : List StableAttribute) : List StableAttribute :=
  attributes.filter fun a => matchesAttribute markup a.name a.value

def totalWeight (attributes : List StableAttribute) : Int :=
  attributes.foldr (fun a total => a.weight + total) 0

/-- The sum of the weights of the attributes that the markup holds, and their names. -/
def score (markup : Text) (attributes : List StableAttribute) : Int × List Text :=
  (totalWeight (found markup attributes), (found markup attributes).map (·.name))

end Evidence

end LiveEdit
