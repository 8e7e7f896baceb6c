/-
  LiveEdit.Proofs.Edit.UniqueCandidate — which line the search for an element settles on.

  A line of the window is strong if it holds the start of the element's tag and its block bears enough evidence.
  `locate` gives the block of the one strong line, and nothing if there are several or none
  (`unique?_eq_some_iff`, `locate_ok`).
-/

import LiveEdit.Edit.Candidate
import LiveEdit.Proofs.Evidence.Monotone

namespace LiveEdit.Candidate

open Markup

/-! ## One line -/

section

variable (settings : Settings) (lines : List Text) (tag : Text) (attributes : List StableAttribute)

/-- The block at a line with its evidence, whether or not there is enough of it. -/
def atLine (index : Nat) : Candidate :=
  let block := TagBlock.read settings lines index
  ⟨index, block, (Evidence.score block.text attributes).1, (Evidence.score block.text attributes).2⟩

/-- The line holds the start of the element's tag, and its block bears enough evidence. -/
structure StrongLine (index : Nat) : Prop where
  starts : hasTagStart tag (lines.getD index []) = true
  carries : (atLine settings lines attributes index).matched ≠ []
  scores : (settings.minScore : Int) ≤ (atLine settings lines attributes index).score

/-- The line is one of those that are searched around `line`. -/
def InWindow (line index : Nat) : Prop :=
  line - settings.styleScanRadius.val - 1 ≤ index ∧ index < min lines.length (line + settings.styleScanRadius.val)

theorem ofLine?_eq (index : Nat) : ofLine? settings lines tag attributes index =
    if hasTagStart tag (lines.getD index []) = true ∧ (atLine settings lines attributes index).matched ≠ [] then
      some (atLine settings lines attributes index)
    else none := by
  unfold ofLine? atLine
  cases hasTagStart tag (lines.getD index []) with
  | false => simp
  | true =>
    by_cases hm : (Evidence.score (TagBlock.read settings lines index).text attributes).2 = []
    · simp [hm]
    · simp [hm]

/-- The candidate at a line, if it reaches the least score. -/
def strongAt? (index : Nat) : Option Candidate :=
  (ofLine? settings lines tag attributes index).filter fun c => decide ((settings.minScore : Int) ≤ c.score)

theorem strongAt?_eq_some_iff {index : Nat} {c : Candidate} :
    strongAt? settings lines tag attributes index = some c ↔
      StrongLine settings lines tag attributes index ∧ c = atLine settings lines attributes index := by
  rw [strongAt?, ofLine?_eq, Option.filter_eq_some_iff]
  constructor
  · rintro ⟨h, hs⟩
    simp only [Option.ite_none_right_eq_some, Option.some.injEq] at h
    obtain ⟨⟨ht, hm⟩, rfl⟩ := h
    exact ⟨⟨ht, hm, of_decide_eq_true hs⟩, rfl⟩
  · rintro ⟨h, rfl⟩
    exact ⟨if_pos ⟨h.starts, h.carries⟩, decide_eq_true h.scores⟩

theorem strongAt?_isSome {index : Nat} :
    (strongAt? settings lines tag attributes index).isSome = true ↔
      StrongLine settings lines tag attributes index := by
  rw [Option.isSome_iff_exists]
  simp [strongAt?_eq_some_iff]

end

/-! ## The window -/

/-- A partial function gives one value on a list without repetitions iff one member has a value. -/
theorem filterMap_eq_singleton_iff {α β : Type} (f : α → Option β) {l : List α} (hl : l.Nodup) (b : β) :
    l.filterMap f = [b] ↔ ∃ a ∈ l, f a = some b ∧ ∀ a' ∈ l, (f a').isSome = true → a' = a := by
  induction l with
  | nil => simp
  | cons x l ih =>
    obtain ⟨hx, hl⟩ := List.nodup_cons.mp hl
    cases hf : f x with
    | none =>
      rw [List.filterMap_cons_none hf, ih hl]
      constructor
      · rintro ⟨a, ha, hb, hu⟩
        refine ⟨a, List.mem_cons_of_mem x ha, hb, fun a' ha' hs => ?_⟩
        rcases List.mem_cons.mp ha' with rfl | ha'
        · simp [hf] at hs
        · exact hu a' ha' hs
      · rintro ⟨a, ha, hb, hu⟩
        rcases List.mem_cons.mp ha with rfl | ha
        · simp [hf] at hb
        · exact ⟨a, ha, hb, fun a' ha' => hu a' (List.mem_cons_of_mem x ha')⟩
    | some c =>
      rw [List.filterMap_cons_some hf, List.cons.injEq, List.filterMap_eq_nil_iff]
      constructor
      · rintro ⟨rfl, hnone⟩
        refine ⟨x, List.mem_cons_self, hf, fun a' ha' hs => ?_⟩
        rcases List.mem_cons.mp ha' with rfl | ha'
        · rfl
        · simp [hnone a' ha'] at hs
      · rintro ⟨a, -, hb, hu⟩
        have hxa : x = a := hu x List.mem_cons_self (by simp [hf])
        subst hxa
        refine ⟨Option.some.inj (hf.symm.trans hb), fun a' ha' => ?_⟩
        cases hs : f a' with
        | none => rfl
        | some d =>
          have := hu a' (List.mem_cons_of_mem x ha') (by simp [hs])
          exact absurd (this ▸ ha') hx

variable {settings : Settings} {lines : List Text} {tag : Text} {attributes : List StableAttribute}

/-- The lines that are searched, from the first to the last. -/
def searched (settings : Settings) (lines : List Text) (line : Nat) : List Nat :=
  let first := line - settings.styleScanRadius.val - 1
  List.range' first (min lines.length (line + settings.styleScanRadius.val) - first)

theorem mem_searched {line index : Nat} : index ∈ searched settings lines line ↔ InWindow settings lines line index := by
  rw [searched, List.mem_range'_1, InWindow]
  omega

theorem strong_inWindow (line : Nat) :
    (inWindow settings lines tag attributes (line - settings.styleScanRadius.val - 1)
      (min lines.length (line + settings.styleScanRadius.val))).filter
        (fun c => decide ((settings.minScore : Int) ≤ c.score)) =
      (searched settings lines line).filterMap (strongAt? settings lines tag attributes) :=
  List.filter_filterMap

theorem unique?_eq_some_iff {line : Nat} {c : Candidate} :
    unique? settings lines tag attributes line = some c ↔
      ∃ index, InWindow settings lines line index ∧ StrongLine settings lines tag attributes index ∧
        c = atLine settings lines attributes index ∧
        ∀ other, InWindow settings lines line other → StrongLine settings lines tag attributes other →
          other = index := by
  have hone : unique? settings lines tag attributes line = some c ↔
      (searched settings lines line).filterMap (strongAt? settings lines tag attributes) = [c] := by
    simp only [unique?, Line.around, strong_inWindow]
    split
    · rename_i d hd
      rw [hd]
      simp
    · rename_i hd
      constructor
      · exact fun h => by cases h
      · exact fun h => absurd h (hd c)
  have hnodup : (searched settings lines line).Nodup := List.nodup_range'
  rw [hone, filterMap_eq_singleton_iff _ hnodup]
  simp only [mem_searched, strongAt?_eq_some_iff, strongAt?_isSome, and_assoc]

/-! ## The search -/

theorem lower_eq_nil_iff (t : Text) : Text.lower t = [] ↔ t = [] := by
  cases t with
  | nil => simp [Text.lower, Text.lowerAfter]
  | cons c t =>
    have hne : Text.lower (c :: t) ≠ [] := by
      rw [Text.lower, Text.lowerAfter]
      split
      · simp
      · split <;> simp
    simp [hne]

/-- The search at a line for an element with a tag name never fails, and finds the unique candidate. -/
theorem locate_ok (settings : Settings) (lines : List Text) (line : Nat) {element : Element}
    (htag : element.tagName ≠ []) :
    locate settings lines (.ok line) element = .ok
      (if (Evidence.rank settings element.attributes).isEmpty then none
        else unique? settings lines (Text.lower element.tagName) (Evidence.rank settings element.attributes)
          line) := by
  have hlower : Text.lower element.tagName ≠ [] := fun h => htag ((lower_eq_nil_iff _).mp h)
  unfold locate
  simp only [List.isEmpty_iff, hlower, if_false]
  split <;> rfl

end LiveEdit.Candidate
