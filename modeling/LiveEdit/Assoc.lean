/-
  LiveEdit.Assoc — mappings from texts that remember the order of their keys.

  A key keeps the position of its first writing and the value of its last.
-/

import LiveEdit.Text.Basic

namespace LiveEdit

abbrev Assoc (α : Type) := List (Text × α)

namespace Assoc

variable {α : Type}

def put (key : Text) (value : α) : Assoc α → Assoc α
  | [] => [(key, value)]
  | entry :: m => if entry.1 = key then (key, value) :: m else entry :: put key value m

/-- Writes the entries of `new` into `m`, one after the other. -/
def putAll (m new : Assoc α) : Assoc α := new.foldl (fun m entry => put entry.1 entry.2 m) m

/-- The mapping written by a sequence of entries in which keys may repeat. -/
def ofPairs (entries : List (Text × α)) : Assoc α := putAll [] entries

def get? (key : Text) (m : Assoc α) : Option α := (m.find? (·.1 = key)).map (·.2)

end Assoc

end LiveEdit
