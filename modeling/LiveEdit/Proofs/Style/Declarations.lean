/-
  LiveEdit.Proofs.Style.Declarations — which declarations of a style string become entries.

  In CSS a semicolon ends a declaration only outside of quotes and parentheses (`declarations`), the reader takes every
  one for an end. So it sees the declarations taken apart at the semicolons inside of them (`splitOn_eq_flatMap`). It
  reads a string right just when no declaration with a semicolon inside has the last word on its key, and none of the
  parts of such a declaration has it with something else (`ofDeclarations_reads_iff`).
-/

import LiveEdit.Proofs.Assoc
import LiveEdit.Proofs.Text.Lines
import LiveEdit.Proofs.Text.Occurrence
import LiveEdit.Proofs.Style.Key
import LiveEdit.Style.Declarations

namespace LiveEdit.Style

/-! ## Declarations -/

/-- Where a reader of CSS stands: in which quote, behind a backslash in it or not, and within how many parentheses. -/
structure Nesting where
  quote : Option Char := none
  escaped : Bool := false
  depth : Nat := 0
  deriving DecidableEq, Repr

namespace Nesting

/-- No quote and no parenthesis is open. -/
def outside (s : Nesting) : Bool := s.quote.isNone && s.depth = 0

def step (s : Nesting) (c : Char) : Nesting :=
  match s.quote with
  | some quote =>
    if s.escaped then { s with escaped := false }
    else if c = '\\' then { s with escaped := true }
    else if c = quote then { s with quote := none }
    else s
  | none =>
    if c = '\'' || c = '"' then { s with quote := some c }
    else if c = '(' then { s with depth := s.depth + 1 }
    else if c = ')' then { s with depth := s.depth - 1 }
    else s

/-- All quotes and parentheses are closed at the end, and no parenthesis is closed that is not open. -/
def balanced (s : Nesting) : Text → Bool
  | [] => s.outside
  | c :: t => !(s.quote.isNone && c = ')' && s.depth = 0) && balanced (s.step c) t

/-- The pieces between the semicolons outside of quotes and parentheses. -/
def pieces (s : Nesting) : Text → List Text
  | [] => [[]]
  | c :: t =>
    if s.outside && c = ';' then [] :: pieces (s.step c) t
    else
      match pieces (s.step c) t with
      | [] => [[c]]
      | piece :: rest => (c :: piece) :: rest

end Nesting

/-- The declarations of a style string, blank pieces and pieces without a colon among them. -/
def declarations (t : Text) : List Text := Nesting.pieces {} t

/-- The declaration assigns to a property that is not blank, up to the first colon, what follows the colon; as entry of
an object, the literal `l` to the key `k`. -/
def Says (declaration k l : Text) : Prop :=
  ∃ property value, declaration = property ++ ':' :: value ∧ ':' ∉ property ∧ Text.allBlank property = false ∧
    k = key property ∧ l = literal value

/-- None of the declarations assigns to the key. -/
def Silent (ds : List Text) (k : Text) : Prop := ∀ d ∈ ds, ∀ l, ¬ Says d k l

/-- The last of the declarations that assign to the key `k` assigns `l`. -/
def LastSays (ds : List Text) (k l : Text) : Prop :=
  ∃ front d back, ds = front ++ d :: back ∧ Says d k l ∧ Silent back k

/-! ## One declaration -/

variable {ds es : List Text} {d k l : Text}

/-- The entry that a declaration gives. -/
def assigned? (d : Text) : Option (Text × Text) :=
  (declaration? d).map fun (property, value) => (key property, literal value)

theorem says_iff : Says d k l ↔ assigned? d = some (k, l) := by
  unfold assigned?
  constructor
  · rintro ⟨property, value, he, hcolon, hblank, rfl, rfl⟩
    rw [declaration?, Text.cut?_singleton_iff.mpr ⟨he, hcolon⟩]
    simp [hblank]
  · intro h
    obtain ⟨⟨property, value⟩, hd, he⟩ := Option.map_eq_some_iff.mp h
    cases he
    unfold declaration? at hd
    split at hd
    · rename_i property' value' hcut
      split at hd
      · cases hd
      · rename_i hblank
        cases hd
        obtain ⟨he, hcolon⟩ := Text.cut?_singleton_iff.mp hcut
        exact ⟨property, value, he, hcolon, by simpa using hblank, rfl, rfl⟩
    · cases hd

theorem Says.unique {l' : Text} (h : Says d k l) (h' : Says d k l') : l = l' := by
  rw [says_iff] at h h'
  cases h.symm.trans h'
  rfl

/-! ## The last word -/

theorem silent_append : Silent (ds ++ es) k ↔ Silent ds k ∧ Silent es k := List.forall_mem_append

theorem lastSays_append : LastSays (ds ++ es) k l ↔ LastSays es k l ∨ (LastSays ds k l ∧ Silent es k) := by
  constructor
  · rintro ⟨front, d, back, hsplit, hd, hback⟩
    rcases List.append_eq_append_iff.mp hsplit with ⟨front, rfl, rfl⟩ | ⟨rest, rfl, hrest⟩
    · exact .inl ⟨front, d, back, rfl, hd, hback⟩
    · cases rest with
      | nil => exact .inl ⟨[], d, back, hrest.symm, hd, hback⟩
      | cons c rest =>
        obtain ⟨rfl, rfl⟩ := List.cons.inj hrest
        obtain ⟨hrest, hes⟩ := silent_append.mp hback
        exact .inr ⟨⟨front, d, rest, rfl, hd, hrest⟩, hes⟩
  · rintro (⟨front, d, back, rfl, hd, hback⟩ | ⟨⟨front, d, back, rfl, hd, hback⟩, hes⟩)
    · exact ⟨ds ++ front, d, back, by simp, hd, hback⟩
    · exact ⟨front, d, back ++ es, by simp, hd, silent_append.mpr ⟨hback, hes⟩⟩

theorem not_lastSays_nil : ¬ LastSays [] k l := by
  rintro ⟨front, d, back, hsplit, -⟩
  cases front <;> cases hsplit

theorem lastSays_singleton : LastSays [d] k l ↔ Says d k l := by
  constructor
  · rintro ⟨front, d', back, hsplit, hd, -⟩
    cases front with
    | nil =>
      cases hsplit
      exact hd
    | cons e front => cases front <;> cases hsplit
  · intro h
    exact ⟨[], d, [], rfl, h, List.forall_mem_nil _⟩

theorem lastSays_cons : LastSays (d :: ds) k l ↔ LastSays ds k l ∨ (Says d k l ∧ Silent ds k) := by
  rw [← List.singleton_append, lastSays_append, lastSays_singleton]

theorem lastSays_flatMap {f : Text → List Text} : LastSays (ds.flatMap f) k l ↔
    ∃ front d back, ds = front ++ d :: back ∧ LastSays (f d) k l ∧ Silent (back.flatMap f) k := by
  induction ds with
  | nil =>
    refine ⟨fun h => absurd h not_lastSays_nil, ?_⟩
    rintro ⟨front, d, back, hsplit, -⟩
    cases front <;> cases hsplit
  | cons d ds ih =>
    rw [List.flatMap_cons, lastSays_append, ih]
    constructor
    · rintro (⟨front, d', back, rfl, hd, hback⟩ | ⟨hd, hback⟩)
      · exact ⟨d :: front, d', back, rfl, hd, hback⟩
      · exact ⟨[], d, ds, rfl, hd, hback⟩
    · rintro ⟨front, d', back, hsplit, hd, hback⟩
      cases front with
      | nil =>
        cases hsplit
        exact .inr ⟨hd, hback⟩
      | cons d'' front =>
        cases hsplit
        exact .inl ⟨front, d', back, rfl, hd, hback⟩

theorem lastSays_of_not_silent (h : ¬ Silent ds k) : ∃ l, LastSays ds k l := by
  induction ds with
  | nil => exact absurd (List.forall_mem_nil _) h
  | cons d ds ih =>
    by_cases hds : Silent ds k
    · have hd : ∃ l, Says d k l := by
        refine Classical.byContradiction fun hd => h ?_
        exact List.forall_mem_cons.mpr ⟨fun l hl => hd ⟨l, hl⟩, hds⟩
      obtain ⟨l, hl⟩ := hd
      exact ⟨l, [], d, ds, rfl, hl, hds⟩
    · obtain ⟨l, hl⟩ := ih hds
      exact ⟨l, lastSays_cons.mpr (.inl hl)⟩

theorem LastSays.not_silent (h : LastSays ds k l) : ¬ Silent ds k := by
  obtain ⟨front, d, back, rfl, hd, -⟩ := h
  exact fun hs => hs d (by simp) l hd

theorem LastSays.unique {l' : Text} (h : LastSays ds k l) (h' : LastSays ds k l') : l = l' := by
  induction ds with
  | nil => exact absurd h not_lastSays_nil
  | cons d ds ih =>
    rcases lastSays_cons.mp h with h | ⟨h, hs⟩
    · rcases lastSays_cons.mp h' with h' | ⟨-, hs⟩
      · exact ih h h'
      · exact absurd hs h.not_silent
    · rcases lastSays_cons.mp h' with h' | ⟨h', -⟩
      · exact absurd hs h'.not_silent
      · exact h.unique h'

/-- The mapping that declarations write holds the last words on their keys. -/
theorem mem_ofPairs_iff : (k, l) ∈ Assoc.ofPairs (ds.filterMap assigned?) ↔ LastSays ds k l := by
  induction ds using List.reverseRecOn with
  | nil =>
    constructor
    · intro h
      cases h
    · exact fun h => absurd h not_lastSays_nil
  | append_singleton ds d ih =>
    have hsilent : Silent [d] k ↔ ∀ l, assigned? d ≠ some (k, l) := by simp [Silent, says_iff]
    rw [lastSays_append, lastSays_singleton, says_iff, hsilent, List.filterMap_append, ← ih]
    cases hd : assigned? d with
    | none => simp [hd]
    | some e =>
      have hone : [d].filterMap assigned? = [e] := by simp [hd]
      rw [hone, Assoc.ofPairs_concat, Assoc.mem_put_iff (Assoc.nodup_ofPairs _)]
      simp [Prod.ext_iff, and_comm]

theorem mem_ofDeclarations_iff {t : Text} : (k, l) ∈ ofDeclarations t ↔ LastSays (Text.splitOn ';' t) k l := by
  rw [← mem_ofPairs_iff, ofDeclarations, ofChanges, List.map_filterMap]
  rfl

/-! ## Semicolons -/

theorem pieces_ne_nil (s : Nesting) (t : Text) : s.pieces t ≠ [] := by
  cases t with
  | nil => exact List.cons_ne_nil _ _
  | cons c t =>
    rw [Nesting.pieces]
    split
    · exact List.cons_ne_nil _ _
    · split <;> exact List.cons_ne_nil _ _

theorem splitOn_cons_of_ne {c : Char} (hc : c ≠ ';') {t first : Text} {rest : List Text}
    (h : Text.splitOn ';' t = first :: rest) : Text.splitOn ';' (c :: t) = (c :: first) :: rest := by
  rw [Text.splitOn, if_neg hc, h]

/-- The reader sees the declarations taken apart at the semicolons inside of them. -/
theorem splitOn_eq_flatMap (s : Nesting) (t : Text) :
    Text.splitOn ';' t = (s.pieces t).flatMap (Text.splitOn ';') := by
  induction t generalizing s with
  | nil => rfl
  | cons c t ih =>
    obtain ⟨piece, rest, hpieces⟩ := List.exists_cons_of_ne_nil (pieces_ne_nil (s.step c) t)
    have ih := ih (s.step c)
    rw [hpieces, List.flatMap_cons] at ih
    rw [Nesting.pieces, hpieces]
    by_cases hc : c = ';'
    · subst hc
      rw [Text.splitOn, if_pos rfl, ih]
      split
      · rfl
      · rw [List.flatMap_cons, Text.splitOn, if_pos rfl, List.cons_append]
    · rw [if_neg (by simp [hc]), List.flatMap_cons]
      obtain ⟨first, more, hfirst⟩ := List.exists_cons_of_ne_nil (Text.splitOn_ne_nil ';' piece)
      rw [hfirst, List.cons_append] at ih
      rw [splitOn_cons_of_ne hc ih, splitOn_cons_of_ne hc hfirst, List.cons_append]

/-- A semicolon in a declaration is in the entry that it gives, and nowhere else. -/
theorem Says.semicolon_iff (h : Says d k l) : ';' ∈ k ∨ ';' ∈ l ↔ ';' ∈ d := by
  obtain ⟨property, value, rfl, -, -, rfl, rfl⟩ := h
  rw [mem_key_iff (by decide) (by decide) (by decide) (by decide),
    mem_literal_iff (by decide) (by decide) (by decide)]
  simp

theorem LastSays.semicolon_not_mem {t : Text} (h : LastSays (Text.splitOn ';' t) k l) : ';' ∉ k ∧ ';' ∉ l := by
  obtain ⟨front, d, back, hsplit, hd, -⟩ := h
  have hpart : ';' ∉ d := Text.not_mem_of_mem_splitOn (by rw [hsplit]; simp)
  exact not_or.mp fun hmem => hpart (hd.semicolon_iff.mp hmem)

/-- The parts say something on a key whenever a declaration without a semicolon inside has the last word on it. -/
theorem silent_of_parts (hwhole : ∀ l, LastSays ds k l → ';' ∉ k ∧ ';' ∉ l)
    (h : Silent (ds.flatMap (Text.splitOn ';')) k) : Silent ds k := by
  refine Classical.byContradiction fun hsome => ?_
  obtain ⟨l, hlast⟩ := lastSays_of_not_silent hsome
  obtain ⟨front, d, back, rfl, hd, -⟩ := id hlast
  have huncut : ';' ∉ d := fun hmem => not_or.mpr (hwhole l hlast) (hd.semicolon_iff.mpr hmem)
  refine h d (List.mem_flatMap.mpr ⟨d, by simp, ?_⟩) l hd
  rw [Text.splitOn_of_not_mem huncut]
  exact List.mem_singleton_self d

/-- A part of a declaration, which is taken apart at the semicolons inside of it, has the last word on the key. -/
def Stray (t k l : Text) : Prop :=
  ∃ front d back, declarations t = front ++ d :: back ∧ ';' ∈ d ∧ LastSays (Text.splitOn ';' d) k l ∧
    Silent (back.flatMap (Text.splitOn ';')) k

/-- The reader gives every key once. It gives just the last words of the declarations when no declaration with a
semicolon inside has the last word on its key, and no part of such a declaration has it with something else. -/
theorem ofDeclarations_reads_iff (t : Text) : (Assoc.keys (ofDeclarations t)).Nodup ∧
    ((∀ k l, (k, l) ∈ ofDeclarations t ↔ LastSays (declarations t) k l) ↔
      (∀ k l, LastSays (declarations t) k l → ';' ∉ k ∧ ';' ∉ l) ∧
        ∀ k l, Stray t k l → LastSays (declarations t) k l) := by
  have hsplit : Text.splitOn ';' t = (declarations t).flatMap (Text.splitOn ';') := splitOn_eq_flatMap {} t
  refine ⟨Assoc.nodup_ofPairs _, fun h => ⟨?_, ?_⟩, ?_⟩
  · intro k l hlast
    exact (mem_ofDeclarations_iff.mp ((h k l).mpr hlast)).semicolon_not_mem
  · rintro k l ⟨front, d, back, hd, -, hlast, hback⟩
    refine (h k l).mp (mem_ofDeclarations_iff.mpr ?_)
    rw [hsplit]
    exact lastSays_flatMap.mpr ⟨front, d, back, hd, hlast, hback⟩
  · rintro ⟨hwhole, hstray⟩
    have hsound : ∀ {k l}, LastSays (Text.splitOn ';' t) k l → LastSays (declarations t) k l := by
      intro k l hlast
      rw [hsplit] at hlast
      obtain ⟨front, d, back, hd, hpart, hback⟩ := lastSays_flatMap.mp hlast
      by_cases hcut : ';' ∈ d
      · exact hstray k l ⟨front, d, back, hd, hcut, hpart, hback⟩
      · rw [Text.splitOn_of_not_mem hcut, lastSays_singleton] at hpart
        have hlater : ∀ l', LastSays back k l' → ';' ∉ k ∧ ';' ∉ l' := by
          intro l' hl'
          apply hwhole
          rw [hd, lastSays_append, lastSays_cons]
          exact .inl (.inl hl')
        exact ⟨front, d, back, hd, hpart, silent_of_parts hlater hback⟩
    intro k l
    rw [mem_ofDeclarations_iff]
    refine ⟨hsound, fun hlast => ?_⟩
    have hsome : ¬ Silent (Text.splitOn ';' t) k := by
      rw [hsplit]
      exact fun h => hlast.not_silent (silent_of_parts (fun l' => hwhole k l') h)
    obtain ⟨l', hl'⟩ := lastSays_of_not_silent hsome
    rwa [hlast.unique (hsound hl')]

/-- Of an image that is written into the style only the type is read: the data behind the semicolon is lost. -/
theorem image_data_lost :
    let body := "background: url(data:image/png;base64,AAAA)".toList
    Nesting.balanced {} body = true ∧ declarations body = [body] ∧
      LastSays (declarations body) "background".toList "'url(data:image/png;base64,AAAA)'".toList ∧
      ofDeclarations body = [("background".toList, "'url(data:image/png'".toList)] ∧
      ¬ ∀ k l, (k, l) ∈ ofDeclarations body ↔ LastSays (declarations body) k l := by
  intro body
  have hone : declarations body = [body] := by decide
  have hread : ofDeclarations body = [("background".toList, "'url(data:image/png'".toList)] := by decide
  have hlast : LastSays (declarations body) "background".toList "'url(data:image/png;base64,AAAA)'".toList := by
    rw [hone, lastSays_singleton]
    exact ⟨"background".toList, " url(data:image/png;base64,AAAA)".toList, by decide, by decide, by decide, by decide,
      by decide⟩
  refine ⟨by decide, hone, hlast, hread, fun h => ?_⟩
  have hmem := (h _ _).mpr hlast
  rw [hread] at hmem
  exact absurd hmem (by decide)

end LiveEdit.Style
