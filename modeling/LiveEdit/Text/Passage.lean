/-
  LiveEdit.Text.Passage — a part of a text in its place: what stands before it, the part, and what follows.

  `first?` finds the leftmost place where a reader succeeds, so a search gives the passage with what was read.
-/

import LiveEdit.Text.Basic

namespace LiveEdit.Text

structure Passage where
  before : Text
  inside : Text
  after : Text
  deriving DecidableEq, Repr

namespace Passage

variable {α : Type}

/-- The whole text in which the passage stands. -/
def whole (p : Passage) : Text := p.before ++ p.inside ++ p.after

/-- The text with the passage replaced. -/
def replace (p : Passage) (new : Text) : Text := p.before ++ new ++ p.after

/-- What a reader took from the start of `t` when it left `rest`. -/
def taken (t rest : Text) : Text := t.take (t.length - rest.length)

/-- The leftmost passage that `read` accepts, with its reading. The reader is given the character before the
place where it starts, and returns what it leaves. -/
def first? (read : Option Char → Text → Option (α × Text)) (previous : Option Char) :
    Text → Option (Passage × α)
  | [] => none
  | c :: t =>
    match read previous (c :: t) with
    | some (a, rest) => some (⟨[], taken (c :: t) rest, rest⟩, a)
    | none => (first? read (some c) t).map fun (p, a) => ({ p with before := c :: p.before }, a)

/-- A passage that is found stands in the text that was searched, if the reader leaves an end of what it is
given. -/
theorem whole_first? {read : Option Char → Text → Option (α × Text)}
    (leaves : ∀ {previous t a rest}, read previous t = some (a, rest) → rest <:+ t)
    {previous : Option Char} {t : Text} {p : Passage} {a : α} (h : first? read previous t = some (p, a)) :
    p.whole = t := by
  induction t generalizing previous p with
  | nil => simp [first?] at h
  | cons c t ih =>
    unfold first? at h
    split at h
    · rename_i b rest hr
      obtain ⟨front, hf⟩ := leaves hr
      simp only [Option.some.injEq, Prod.mk.injEq] at h
      obtain ⟨rfl, rfl⟩ := h
      rw [← hf]
      simp [whole, taken]
    · obtain ⟨⟨q, b⟩, hq, he⟩ := Option.map_eq_some_iff.mp h
      simp only [Prod.mk.injEq] at he
      obtain ⟨rfl, rfl⟩ := he
      simpa [whole] using ih hq

end Passage

end LiveEdit.Text
