/-
  LiveEdit.Json.Reader — reads JSON text into a value, or says what is wrong and where.

  A number with a fraction or an exponent becomes a double, any other a whole number, however many digits it has.
  `NaN`, `Infinity` and `-Infinity` are accepted. Of entries with one key the last counts, at the place of the first.
-/

import LiveEdit.Number.Numeral
import LiveEdit.Value

namespace LiveEdit.Json

inductive Fault where
  | byteOrderMark
  | value
  | name
  | colon
  | comma
  | unterminated
  | control
  | escape
  | unitEscape
  | extra
  deriving DecidableEq, Repr

def Fault.message : Fault → Text
  | .byteOrderMark => "Unexpected UTF-8 BOM (decode using utf-8-sig)".toList
  | .value => "Expecting value".toList
  | .name => "Expecting property name enclosed in double quotes".toList
  | .colon => "Expecting ':' delimiter".toList
  | .comma => "Expecting ',' delimiter".toList
  | .unterminated => "Unterminated string starting at".toList
  | .control => "Invalid control character at".toList
  | .escape => "Invalid \\escape".toList
  | .unitEscape => "Invalid \\uXXXX escape".toList
  | .extra => "Extra data".toList

/-- A fault, with the text from the place of the fault on. -/
structure Failure where
  fault : Fault
  rest : Text
  deriving DecidableEq, Repr

def fail {α : Type} (fault : Fault) (rest : Text) : Except Failure α := .error ⟨fault, rest⟩

def isJsonSpace (c : Char) : Bool := c = ' ' || c = '\t' || c = '\n' || c = '\r'

def skipSpace (t : Text) : Text := t.dropWhile isJsonSpace

/-! ## Strings -/

def hexDigit? (c : Char) : Option Nat :=
  if '0' ≤ c && c ≤ '9' then some (c.toNat - 48)
  else if 'a' ≤ c && c ≤ 'f' then some (c.toNat - 87)
  else if 'A' ≤ c && c ≤ 'F' then some (c.toNat - 55)
  else none

def hexUnit? (a b c d : Char) : Option Nat := do
  let a ← hexDigit? a
  let b ← hexDigit? b
  let c ← hexDigit? c
  let d ← hexDigit? d
  return ((a * 16 + b) * 16 + c) * 16 + d

def simpleEscape? : Char → Option Char
  | '"' => some '"'
  | '\\' => some '\\'
  | '/' => some '/'
  | 'b' => some '\x08'
  | 'f' => some '\x0c'
  | 'n' => some '\n'
  | 'r' => some '\r'
  | 't' => some '\t'
  | _ => none

/-- The code points and halves of surrogate pairs of a string, whose text follows the quote that begins
`opening`. An escape of four digits is complete only if something follows it. -/
def units (opening : Text) : Text → Except Failure (List Nat × Text)
  | [] => fail .unterminated opening
  | '"' :: t => .ok ([], t)
  | ['\\'] => fail .unterminated opening
  | '\\' :: 'u' :: a :: b :: c :: d :: e :: t =>
    match hexUnit? a b c d with
    | some n => (units opening (e :: t)).map fun (ns, rest) => (n :: ns, rest)
    | none => fail .unitEscape ('u' :: a :: b :: c :: d :: e :: t)
  | '\\' :: 'u' :: t => fail .unitEscape ('u' :: t)
  | '\\' :: c :: t =>
    match simpleEscape? c with
    | some c => (units opening t).map fun (ns, rest) => (c.toNat :: ns, rest)
    | none => fail .escape ('\\' :: c :: t)
  | c :: t =>
    if c.toNat < 32 then fail .control (c :: t)
    else (units opening t).map fun (ns, rest) => (c.toNat :: ns, rest)

/-- Joins the halves of surrogate pairs. A half without its other half stands for no character and becomes
the replacement character. -/
def ofUnits : List Nat → Text
  | [] => []
  | [n] => [if 0xd800 ≤ n && n < 0xe000 then '\ufffd' else Char.ofNat n]
  | high :: low :: ns =>
    if 0xd800 ≤ high && high < 0xdc00 && 0xdc00 ≤ low && low < 0xe000 then
      Char.ofNat (0x10000 + (high - 0xd800) * 0x400 + (low - 0xdc00)) :: ofUnits ns
    else if 0xd800 ≤ high && high < 0xe000 then '\ufffd' :: ofUnits (low :: ns)
    else Char.ofNat high :: ofUnits (low :: ns)

/-- Reads a string whose opening quote has been taken off. -/
def stringAfterQuote (t : Text) : Except Failure (Text × Text) :=
  (units ('"' :: t) t).map fun (ns, rest) => (ofUnits ns, rest)

/-! ## Numbers -/

/-- The whole part of a number: a zero, or digits that begin with another one. -/
def wholePart? : Text → Option (Text × Text)
  | '0' :: t => some (['0'], t)
  | c :: t => if c.isDigit then some (Numeral.digits (c :: t)) else none
  | [] => none

/-- A point and the digits behind it; nothing if no digit follows the point. -/
def fractionPart : Text → Text × Text
  | '.' :: t =>
    let (run, rest) := Numeral.digits t
    if run.isEmpty then ([], '.' :: t) else (run, rest)
  | t => ([], t)

/-- An exponent; nothing if it has no digits. -/
def exponentPart : Text → Option Int × Text
  | [] => (none, [])
  | e :: t =>
    if e = 'e' || e = 'E' then
      let (negative, afterSign) := Numeral.signed t
      let (run, rest) := Numeral.digits afterSign
      if run.isEmpty then (none, e :: t)
      else (some (if negative then -(Text.digitsValue run : Int) else Text.digitsValue run), rest)
    else (none, e :: t)

/-- A number whose sign has been taken off. -/
def magnitude? (negative : Bool) (t : Text) : Option (Value × Text) :=
  (wholePart? t).map fun (whole, rest) =>
    let (fraction, rest) := fractionPart rest
    let (exponent, rest) := exponentPart rest
    if fraction.isEmpty && exponent.isNone then
      (.int (if negative then -(Text.digitsValue whole : Int) else Text.digitsValue whole), rest)
    else
      (.float (Double.ofDecimal negative (Text.digitsValue (whole ++ fraction))
        (exponent.getD 0 - fraction.length)), rest)

def number? : Text → Option (Value × Text)
  | '-' :: t => magnitude? true t
  | t => magnitude? false t

/-! ## Values -/

/-- The values that are written as a name. -/
def names : List (Text × Value) := [
  ("null".toList, .null), ("true".toList, .bool true), ("false".toList, .bool false),
  ("NaN".toList, .float .nan), ("Infinity".toList, .float (.infinite false)),
  ("-Infinity".toList, .float (.infinite true))]

def named? (t : Text) : Option (Value × Text) :=
  names.findSome? fun (name, v) => (Text.afterStart? name t).map (v, ·)

mutual

/-- Reads one value. Each unit of fuel pays for a step that takes a character off, or for the step from a
list or mapping to a member, so twice the length of the text is enough. -/
def value (fuel : Nat) (t : Text) : Except Failure (Value × Text) :=
  match fuel with
  | 0 => fail .value t
  | fuel + 1 =>
    match t with
    | '"' :: rest => (stringAfterQuote rest).map fun (s, rest) => (.str s, rest)
    | '[' :: rest =>
      match skipSpace rest with
      | ']' :: rest => .ok (.list [], rest)
      | rest => (items fuel rest).map fun (vs, rest) => (.list vs, rest)
    | '\x7b' :: rest =>
      match skipSpace rest with
      | '\x7d' :: rest => .ok (.map [], rest)
      | rest => (entries fuel rest).map fun (es, rest) => (.map (Assoc.ofPairs es), rest)
    | t =>
      match named? t with
      | some result => .ok result
      | none =>
        match number? t with
        | some result => .ok result
        | none => fail .value t

/-- The items of a list up to its closing bracket. -/
def items (fuel : Nat) (t : Text) : Except Failure (List Value × Text) :=
  match fuel with
  | 0 => fail .value t
  | fuel + 1 => do
    let (v, rest) ← value fuel t
    match skipSpace rest with
    | ']' :: rest => .ok ([v], rest)
    | ',' :: rest => (items fuel (skipSpace rest)).map fun (vs, rest) => (v :: vs, rest)
    | rest => fail .comma rest

/-- The entries of a mapping up to its closing brace. -/
def entries (fuel : Nat) (t : Text) : Except Failure (List (Text × Value) × Text) :=
  match fuel with
  | 0 => fail .value t
  | fuel + 1 =>
    match t with
    | '"' :: rest => do
      let (key, rest) ← stringAfterQuote rest
      match skipSpace rest with
      | ':' :: rest =>
        let (v, rest) ← value fuel (skipSpace rest)
        match skipSpace rest with
        | '\x7d' :: rest => .ok ([(key, v)], rest)
        | ',' :: rest => (entries fuel (skipSpace rest)).map fun (es, rest) => ((key, v) :: es, rest)
        | rest => fail .comma rest
      | rest => fail .colon rest
    | t => fail .name t

end

/-- A document: one value with blanks around it. -/
def document (t : Text) : Except Failure Value :=
  match t with
  | '\ufeff' :: _ => fail .byteOrderMark t
  | t => do
    let (v, rest) ← value (2 * t.length + 2) (skipSpace t)
    match skipSpace rest with
    | [] => .ok v
    | rest => fail .extra rest

/-! ## Where a fault is -/

/-- A fault and how many characters stand before it in which text. -/
structure Problem where
  fault : Fault
  before : Text
  deriving DecidableEq, Repr

/-- The fault with its line, its column and its offset. Lines and columns count from one. -/
def Problem.message (p : Problem) : Text :=
  let line := List.count '\n' p.before + 1
  let column := (p.before.reverse.takeWhile (· ≠ '\n')).length + 1
  p.fault.message ++ ": line ".toList ++ Nat.toDigits 10 line ++ " column ".toList ++
    Nat.toDigits 10 column ++ " (char ".toList ++ Nat.toDigits 10 p.before.length ++ [')']

/-- Reads a document, or tells the problem. -/
def read (t : Text) : Except Problem Value :=
  (document t).mapError fun failure =>
    ⟨failure.fault, t.take (t.length - failure.rest.length)⟩

/-- Every line end as a line feed. -/
def normalizeNewlines : Text → Text
  | [] => []
  | '\r' :: '\n' :: t => '\n' :: normalizeNewlines t
  | '\r' :: t => '\n' :: normalizeNewlines t
  | c :: t => c :: normalizeNewlines t

/-- Reads the text of a file. -/
def readFromFile (t : Text) : Except Problem Value := read (normalizeNewlines t)

end LiveEdit.Json
