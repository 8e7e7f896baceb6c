/-
  LiveEdit.Json.Writer — JSON text of a value, in ASCII.

  `line` writes all on one line with entries in their order; `pretty` indents by two and sorts entries by
  key. Beyond JSON proper there are `NaN`, `Infinity` and `-Infinity`. Integers are written with all their digits; the
  log asks `Value.isWritable` first.
-/

import LiveEdit.Value

namespace LiveEdit.Json

/-- A code unit in four hexadecimal digits. -/
def unitEscape (n : Nat) : Text := '\\' :: 'u' :: Text.hexadecimal 4 n

/-- One character between the quotes. Beyond the sixteen-bit range it is a pair of surrogates. -/
def stringChar (c : Char) : Text :=
  if c = '"' || c = '\\' then ['\\', c]
  else if c = '\n' then ['\\', 'n']
  else if c = '\r' then ['\\', 'r']
  else if c = '\t' then ['\\', 't']
  else if c = '\x0c' then ['\\', 'f']
  else if c = '\x08' then ['\\', 'b']
  else if 32 ≤ c.toNat && c.toNat < 127 then [c]
  else if c.toNat < 0x10000 then unitEscape c.toNat
  else
    let n := c.toNat - 0x10000
    unitEscape (0xd800 + n / 0x400) ++ unitEscape (0xdc00 + n % 0x400)

def string (t : Text) : Text := '"' :: t.flatMap stringChar ++ ['"']

def number : Double → Text
  | .nan => "NaN".toList
  | .infinite negative => (if negative then "-Infinity" else "Infinity").toList
  | x => Shortest.text x

mutual

def line : Value → Text
  | .null => "null".toList
  | .bool b => (if b then "true" else "false").toList
  | .int n => Value.intText n
  | .float x => number x
  | .str t => string t
  | .list items => '[' :: Text.joinWith ", ".toList (lineItems items) ++ [']']
  | .map entries => '\x7b' :: Text.joinWith ", ".toList (lineEntries entries) ++ ['\x7d']

def lineItems : List Value → List Text
  | [] => []
  | v :: items => line v :: lineItems items

def lineEntries : List (Text × Value) → List Text
  | [] => []
  | (key, v) :: entries => (string key ++ ':' :: ' ' :: line v) :: lineEntries entries

end

/-! ## Indented form -/

/-- The order of texts by code points. -/
def precedes : Text → Text → Bool
  | [], _ :: _ => true
  | _, [] => false
  | a :: s, b :: t => a.toNat < b.toNat || (a = b && precedes s t)

/-- Puts an entry where its key belongs among sorted entries. -/
def insertByKey (key : Text) (v : Value) : List (Text × Value) → List (Text × Value)
  | [] => [(key, v)]
  | e :: entries =>
    if precedes e.1 key then e :: insertByKey key v entries else (key, v) :: e :: entries

mutual

/-- The value with the entries of every mapping in the order of their keys. -/
def sorted : Value → Value
  | .null => .null
  | .bool b => .bool b
  | .int n => .int n
  | .float x => .float x
  | .str t => .str t
  | .list items => .list (sortedItems items)
  | .map entries => .map (sortedEntries entries)

def sortedItems : List Value → List Value
  | [] => []
  | v :: items => sorted v :: sortedItems items

def sortedEntries : List (Text × Value) → List (Text × Value)
  | [] => []
  | (key, v) :: entries => insertByKey key (sorted v) (sortedEntries entries)

end

/-- A line feed and the indentation of a depth. -/
def newline (depth : Nat) : Text := '\n' :: List.replicate (2 * depth) ' '

/-- Members on lines of their own between two brackets; nothing between the brackets if there are none. -/
def block (opening closing : Char) (depth : Nat) (members : List Text) : Text :=
  if members.isEmpty then [opening, closing]
  else
    opening :: newline (depth + 1) ++ Text.joinWith (',' :: newline (depth + 1)) members ++
      newline depth ++ [closing]

mutual

/-- `depth` is the indentation of the line on which the value begins. -/
def indented (depth : Nat) : Value → Text
  | .null => line .null
  | .bool b => line (.bool b)
  | .int n => line (.int n)
  | .float x => line (.float x)
  | .str t => line (.str t)
  | .list items => block '[' ']' depth (indentedItems (depth + 1) items)
  | .map entries => block '\x7b' '\x7d' depth (indentedEntries (depth + 1) entries)

def indentedItems (depth : Nat) : List Value → List Text
  | [] => []
  | v :: items => indented depth v :: indentedItems depth items

def indentedEntries (depth : Nat) : List (Text × Value) → List Text
  | [] => []
  | (key, v) :: entries => (string key ++ ':' :: ' ' :: indented depth v) :: indentedEntries depth entries

end

/-- The indented form with sorted entries. -/
def pretty (v : Value) : Text := indented 0 (sorted v)

end LiveEdit.Json
