/-
  LiveEdit.Style.Object — flat style objects: keys and values as they stand in the source.

  `print` writes entries between double braces, `parse?` reads what stands between them. A key is an
  identifier or a quoted string; a value is a complete string literal, or a run without commas and quotes. A
  comma ends an entry and may follow the last one.
-/

import LiveEdit.Assoc
import LiveEdit.Text.Blank
import LiveEdit.Text.Word

namespace LiveEdit.Style

def body (entries : Assoc Text) : Text :=
  Text.joinWith ", ".toList (entries.map fun (key, value) => key ++ ':' :: ' ' :: value)

/-- The object with its braces. -/
def print (entries : Assoc Text) : Text :=
  '\x7b' :: '\x7b' :: ' ' :: body entries ++ [' ', '\x7d', '\x7d']

/-! ## Reading -/

def skipBlanks (t : Text) : Text := t.dropWhile Text.isBlank

def startsIdentifier (c : Char) : Bool := c.isAlpha || c = '_' || c = '$'

def continuesIdentifier (c : Char) : Bool := Text.isWord c || c = '$'

/-- A text up to the next `quote`, which is left out of neither: both quotes belong to the result. -/
def untilQuote? (quote : Char) (t : Text) : Option (Text × Text) :=
  match t.dropWhile (· ≠ quote) with
  | [] => none
  | _ :: rest => some (quote :: t.takeWhile (· ≠ quote) ++ [quote], rest)

/-- A key and what follows it. -/
def key? : Text → Option (Text × Text)
  | [] => none
  | c :: t =>
    if startsIdentifier c then some (c :: t.takeWhile continuesIdentifier, t.dropWhile continuesIdentifier)
    else if c = '\'' || c = '"' then untilQuote? c t
    else none

/-- The rest of a string literal with its closing quote; a backslash takes the character after it along. -/
def literalRest? (quote : Char) : Text → Option (Text × Text)
  | [] => none
  | ['\\'] => none
  | '\\' :: c :: t => (literalRest? quote t).map fun (inside, rest) => ('\\' :: c :: inside, rest)
  | c :: t =>
    if c = quote then some ([quote], t)
    else (literalRest? quote t).map fun (inside, rest) => (c :: inside, rest)

/-- What follows an entry: nothing, or a comma and the next entries. -/
def entryEnd? : Text → Option Text
  | [] => some []
  | c :: t => if c = ',' then some t else none

def isPlain (c : Char) : Bool := c ≠ ',' && c ≠ '\'' && c ≠ '"'

/-- A run without commas and quotes as a value. It may be blank but not empty. -/
def run? (t : Text) : Option (Text × Text) :=
  if (t.takeWhile isPlain).isEmpty then none
  else (entryEnd? (t.dropWhile isPlain)).map fun rest => (Text.strip (t.takeWhile isPlain), rest)

/-- The value that follows a colon, and what follows the entry. -/
def value? (t : Text) : Option (Text × Text) :=
  match skipBlanks t with
  | [] => run? t
  | c :: rest =>
    if c = '\'' || c = '"' then do
      let (inside, rest) ← literalRest? c rest
      let rest ← entryEnd? (skipBlanks rest)
      return (c :: inside, rest)
    else run? t

/-- One entry, and what follows it. -/
def entry? (t : Text) : Option ((Text × Text) × Text) := do
  let (key, rest) ← key? (skipBlanks t)
  match skipBlanks rest with
  | ':' :: rest =>
    let (value, rest) ← value? rest
    return ((key, value), rest)
  | _ => none

/-- Entries up to the end. Each takes two characters at least, so `fuel` may be the length of the text. -/
def entries? (fuel : Nat) (t : Text) : Option (List (Text × Text)) :=
  if Text.allBlank t then some []
  else
    match fuel with
    | 0 => none
    | fuel + 1 => do
      let (entry, rest) ← entry? t
      let entries ← entries? fuel rest
      return entry :: entries

/-- The entries of a flat object, given what stands between its braces. -/
def parse? (t : Text) : Option (Assoc Text) := (entries? t.length t).map Assoc.ofPairs

end LiveEdit.Style
