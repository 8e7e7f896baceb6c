/-
  LiveEdit.Text.Basic — text as a list of characters: occurrences of a part, and lines.

  Offsets, lengths and slices count characters. `joinWith` undoes `splitOn`
  (`joinWith_splitOn`), so a document and its lines are two views of one thing.
-/

namespace LiveEdit

abbrev Text := List Char

namespace Text

/-! ## Occurrences -/

/-- What follows `part`, when `t` begins with it. -/
def afterStart? : (part t : Text) → Option Text
  | [], t => some t
  | _ :: _, [] => none
  | a :: part, b :: t => if a = b then afterStart? part t else none

theorem afterStart?_eq_some_iff {part t rest : Text} : afterStart? part t = some rest ↔ t = part ++ rest := by
  induction part generalizing t with
  | nil => simp [afterStart?, eq_comm]
  | cons a part ih =>
    cases t with
    | nil => simp [afterStart?]
    | cons b t => by_cases h : a = b <;> simp [afterStart?, h, ih, eq_comm]

/-- `part` occurs in the text. -/
def occurs (part : Text) : Text → Bool
  | [] => part.isEmpty
  | c :: t => part.isPrefixOf (c :: t) || occurs part t

/-- The text before and after the first occurrence of `part`. -/
def cut? (part : Text) : Text → Option (Text × Text)
  | [] => (afterStart? part []).map ([], ·)
  | c :: t =>
    match afterStart? part (c :: t) with
    | some after => some ([], after)
    | none => (cut? part t).map fun (before, after) => (c :: before, after)

/-- Offsets of the matches that a scan from the left finds, each scan resuming where the last match
ended. `size?` gives the length of a match at the start of a text; `skip` characters belong to the
match found last, and `offset` are behind. -/
def matchesFrom (size? : Text → Option Nat) (offset skip : Nat) : Text → List Nat
  | [] => []
  | c :: t =>
    match skip with
    | skip + 1 => matchesFrom size? (offset + 1) skip t
    | 0 =>
      match size? (c :: t) with
      | some size => offset :: matchesFrom size? (offset + 1) (size - 1) t
      | none => matchesFrom size? (offset + 1) 0 t

def matchOffsets (size? : Text → Option Nat) (t : Text) : List Nat := matchesFrom size? 0 0 t

/-- How many disjoint occurrences of a non-empty part a scan from the left finds. -/
def count (part t : Text) : Nat :=
  (matchOffsets (fun s => if part.isPrefixOf s then some part.length else none) t).length

/-! ## Pieces and lines -/

/-- The pieces between the occurrences of `sep`; there is always one more than there are separators. -/
def splitOn (sep : Char) : Text → List Text
  | [] => [[]]
  | c :: t =>
    if c = sep then [] :: splitOn sep t
    else
      match splitOn sep t with
      | [] => [[c]]
      | piece :: pieces => (c :: piece) :: pieces

/-- The pieces one after the other with `sep` between them. -/
def joinWith (sep : Text) : List Text → Text
  | [] => []
  | [piece] => piece
  | piece :: next :: pieces => piece ++ sep ++ joinWith sep (next :: pieces)

theorem splitOn_ne_nil (sep : Char) (t : Text) : splitOn sep t ≠ [] := by
  induction t with
  | nil => simp [splitOn]
  | cons c t ih =>
    unfold splitOn
    split
    · simp
    · split <;> simp

theorem joinWith_cons_cons (sep : Text) (c : Char) (piece : Text) (pieces : List Text) :
    joinWith sep ((c :: piece) :: pieces) = c :: joinWith sep (piece :: pieces) := by
  cases pieces <;> simp [joinWith]

theorem joinWith_splitOn (sep : Char) (t : Text) : joinWith [sep] (splitOn sep t) = t := by
  induction t with
  | nil => simp [splitOn, joinWith]
  | cons c t ih =>
    unfold splitOn
    split
    · rename_i h
      cases hs : splitOn sep t with
      | nil => exact absurd hs (splitOn_ne_nil sep t)
      | cons piece pieces => rw [hs] at ih; simp [joinWith, ih, h]
    · cases hs : splitOn sep t with
      | nil => exact absurd hs (splitOn_ne_nil sep t)
      | cons piece pieces => rw [hs] at ih; simp only; rw [joinWith_cons_cons, ih]

/-- The lines of a text, without their line feeds. -/
def lines (t : Text) : List Text := splitOn '\n' t

def unlines (ls : List Text) : Text := joinWith ['\n'] ls

theorem unlines_lines (t : Text) : unlines (lines t) = t := joinWith_splitOn '\n' t

/-- Lines of which some are absent; an absent line counts as an empty one. -/
def presentLines (ls : List (Option Text)) : List Text := ls.map (·.getD [])

end Text

end LiveEdit
