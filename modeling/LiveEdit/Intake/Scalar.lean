/-
  LiveEdit.Intake.Scalar — reading texts, numbers and lists of texts from plain data.

  Integers are read leniently: from truth values, from doubles without a fraction, and from texts that write
  an integer. Texts are read strictly, except where a field takes the text of whatever it is given.
-/

import LiveEdit.Intake.Issue
import LiveEdit.Number.Numeral
import LiveEdit.Request
import LiveEdit.Settings

namespace LiveEdit.Intake

open Text

def text : Value → Checked Text
  | .str t => .ok t
  | _ => .refuse .notText

/-- The text of any value; null is the empty text. -/
def anyText : Value → Text
  | .null => []
  | v => v.display

def textItems (index : Nat) : List Value → Checked (List Text)
  | [] => .ok []
  | v :: items => List.cons <$> (text v).below (.index index) <*> textItems (index + 1) items

def texts : Value → Checked (List Text)
  | .list items => textItems 0 items
  | _ => .refuse .notList

/-- The texts of a mapping's values, entries with null left out. -/
def anyTexts (rule : Rule) : Value → Checked (Assoc Text)
  | .map entries =>
    .ok (entries.filterMap fun (name, v) =>
      match v with
      | .null => none
      | v => some (name, v.display))
  | _ => .refuse (.broken rule)

/-! ## Integers -/

/-- Single underscores may stand anywhere inside. -/
def withoutUnderscores? (t : Text) : Option Text :=
  let parts := splitOn '_' t
  if parts.all (!·.isEmpty) then some parts.flatten else none

/-- Drops a fraction of zeros. A point with nothing behind it stays, and so does any other fraction. -/
def withoutZeroFraction (t : Text) : Text :=
  match t.dropWhile (· ≠ '.') with
  | '.' :: '0' :: zeros => if zeros.all (· = '0') then t.takeWhile (· ≠ '.') else t
  | _ => t

/-- What follows the leading zeros, among which underscores may stand in any number; the last of the run
where nothing follows it. None for a text that starts with anything but a digit. -/
def withoutLeadingZeros? : Text → Option Text
  | [] => none
  | c :: t =>
    if c = '0' then
      let rest := t.dropWhile fun c => c = '0' || c = '_'
      some (if rest.isEmpty then [t.getLastD c] else rest)
    else if c.isDigit then some (c :: t)
    else none

/-- Digits without a leading zero, zero itself apart. -/
def plainNatural? (t : Text) : Option Nat :=
  if t.isEmpty || !t.all Char.isDigit || (t.head? = some '0' && t.length ≠ 1) then none
  else some (digitsValue t)

/-- A natural number, or one behind a minus. -/
def plainInteger? : Text → Option Int
  | '-' :: t => (plainNatural? t).map fun n => -(n : Int)
  | t => (plainNatural? t).map fun n => (n : Int)

/-- A sign, leading zeros, digits with single underscores among them, and a fraction of zeros. The minus may
also stand behind the leading zeros, but not in both places. -/
def integerText? (t : Text) : Option Int :=
  let (negative, t) := Numeral.signed (trim isSpace t)
  let digits := (withoutLeadingZeros? (withoutZeroFraction t)).bind withoutUnderscores?
  digits.bind fun t => plainInteger? (if negative then '-' :: t else t)

def integer : Value → Checked Int
  | .bool b => .ok (if b then 1 else 0)
  | .int n => .ok n
  | .float x =>
    if x.isFinite then
      match x.whole? with
      | some n => .ok n
      | none => .refuse .fractional
    else .refuse .notFinite
  | .str t =>
    match integerText? t with
    | some n => .ok n
    | none => .refuse .unreadableInteger
  | _ => .refuse .notInteger

def positive (v : Value) : Checked Positive :=
  (integer v).andThen fun n =>
    if h : 0 < n.toNat then .ok ⟨n.toNat, h⟩ else .refuse (.broken .positive)

def nonNegative (v : Value) : Checked Nat :=
  (integer v).andThen fun n => if 0 ≤ n then .ok n.toNat else .refuse (.broken .nonNegative)

/-! ## Line numbers -/

/-- A bare number with white space around it, or one with underscores and no white space. -/
def numberText? (t : Text) : Option Double :=
  Numeral.plain? (trim isSpace t) <|> (withoutUnderscores? t).bind Numeral.plain?

/-- Neither alternative of a number that may be an integer or a double. -/
def neither {α : Type} (integerFault numberFault : Fault) : Checked α :=
  .issues [⟨[.field "int".toList], integerFault⟩, ⟨[.field "float".toList], numberFault⟩]

/-- An integer where the value is or writes one, a double otherwise. -/
def reportedLine : Value → Checked (Option ReportedLine)
  | .null => .ok none
  | .bool b => .ok (some (.int (if b then 1 else 0)))
  | .int n => .ok (some (.int n))
  | .float x => .ok (some (.float x))
  | .str t =>
    match integerText? t, numberText? t with
    | some n, _ => .ok (some (.int n))
    | none, some x => .ok (some (.float x))
    | none, none => neither .unreadableInteger .unreadableNumber
  | _ => neither .notInteger .notNumber

end LiveEdit.Intake
