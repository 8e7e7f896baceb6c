/-
  LiveEdit.Value — data as the inspector and the files deliver it, before anything is known of its shape.

  `display` is the text of a value: of a text the text itself, of a list or mapping its members in the form
  that `shown` gives, where texts stand in quotes. A value has this text only if no integer in it is too long to be
  written (`isWritable`); `text` is the attempt to get it.
-/

import LiveEdit.Assoc
import LiveEdit.Number.Shortest
import LiveEdit.Text.Quoted

namespace LiveEdit

inductive Value where
  | null
  | bool (b : Bool)
  | int (n : Int)
  | float (x : Double)
  | str (t : Text)
  | list (items : List Value)
  | map (entries : List (Text × Value))

namespace Value

def intText (n : Int) : Text :=
  if n < 0 then '-' :: Nat.toDigits 10 n.natAbs else Nat.toDigits 10 n.natAbs

mutual

/-- A value as it appears inside a list or mapping. -/
def shown : Value → Text
  | .null => "None".toList
  | .bool b => (if b then "True" else "False").toList
  | .int n => intText n
  | .float x => Shortest.text x
  | .str t => Text.quoted t
  | .list items => '[' :: Text.joinWith ", ".toList (shownItems items) ++ [']']
  | .map entries => '\x7b' :: Text.joinWith ", ".toList (shownEntries entries) ++ ['\x7d']

def shownItems : List Value → List Text
  | [] => []
  | v :: items => shown v :: shownItems items

def shownEntries : List (Text × Value) → List Text
  | [] => []
  | (key, v) :: entries => (Text.quoted key ++ ':' :: ' ' :: shown v) :: shownEntries entries

end

def display : Value → Text
  | .str t => t
  | v => shown v

/-- The values that count as nothing: null, false, zero and whatever is empty. -/
def isNothing : Value → Bool
  | .null => true
  | .bool b => !b
  | .int n => n = 0
  | .float x => x.isZero
  | .str t => t.isEmpty
  | .list items => items.isEmpty
  | .map entries => entries.isEmpty

/-! ## Long integers -/

/-- How many digits an integer may have to be written. -/
def digitLimit : Nat := 4300

/-- The least number that has more digits. It is better not evaluated. -/
@[irreducible] def tooLong : Nat := Nat.pow 10 digitLimit

/-- Why a value is not written. -/
inductive DigitError where
  | tooMany
  deriving DecidableEq, Repr

def DigitError.message : DigitError → Text
  | .tooMany =>
    ("Exceeds the limit (4300 digits) for integer string conversion; " ++
      "use sys.set_int_max_str_digits() to increase the limit").toList

mutual

/-- No integer in the value is too long to be written. -/
def isWritable : Value → Bool
  | .int n => n.natAbs < tooLong
  | .list items => itemsWritable items
  | .map entries => entriesWritable entries
  | _ => true

def itemsWritable : List Value → Bool
  | [] => true
  | v :: items => isWritable v && itemsWritable items

def entriesWritable : List (Text × Value) → Bool
  | [] => true
  | (_, v) :: entries => isWritable v && entriesWritable entries

end

/-- The text of a value, if it can be written. -/
def text (v : Value) : Except DigitError Text := if v.isWritable then .ok v.display else .error .tooMany

end Value

end LiveEdit
