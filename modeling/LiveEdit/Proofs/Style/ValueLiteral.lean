/-
  LiveEdit.Proofs.Style.ValueLiteral — the literals of style values as string literals of JavaScript.

  `IsStringLiteral` is the grammar: single quotes, and between them neither a quote nor a backslash that is not
  escaped, nor a line break as it is. `unescape?` reads the escapes. Values are written with their quotes and
  backslashes escaped, so that reading the escapes gives the value back. Line breaks are written as they are: the
  literal of a text with a line break in it is none (`valueLiteral_isStringLiteral_iff`,
  `line_feed_breaks_literal`).
-/

import LiveEdit.Proofs.Style.Key
import LiveEdit.Proofs.Style.RoundTrip
import LiveEdit.Proofs.Value

namespace LiveEdit.Style

/-! ## String literals of JavaScript -/

/-- The characters that may not stand in a string literal as they are. -/
def breaksLine (c : Char) : Bool := c = '\n' || c = '\r'

def IsStringLiteral (t : Text) : Prop :=
  ∃ body, t = '\'' :: body ++ ['\''] ∧ LiteralBody '\'' body ∧ ∀ c ∈ body, breaksLine c = false

/-- The character for which a backslash and one more character stand. The longer escapes, by number, and lines that a
backslash continues are not read. -/
def escaped? : Char → Option Char
  | 'b' => some '\x08'
  | 'f' => some '\x0c'
  | 'n' => some '\n'
  | 'r' => some '\r'
  | 't' => some '\t'
  | 'v' => some '\x0b'
  | c =>
    if c.isDigit || c = 'x' || c = 'u' || breaksLine c || c = '\u2028' || c = '\u2029' then none else some c

/-- What stands between the quotes of a literal, with its escapes read. -/
def unescape? : Text → Option Text
  | [] => some []
  | ['\\'] => none
  | '\\' :: c :: t => do
    let d ← escaped? c
    let u ← unescape? t
    return d :: u
  | c :: t => (unescape? t).map (c :: ·)

/-! ## Escapes -/

theorem unescape?_cons {c : Char} (hc : c ≠ '\\') (t : Text) : unescape? (c :: t) = (unescape? t).map (c :: ·) := by
  rw [unescape?]
  · exact fun h => absurd h hc
  · exact fun _ _ h => absurd h hc

theorem unescape?_literalChar (c : Char) (t : Text) :
    unescape? (literalChar c ++ t) = (unescape? t).map (c :: ·) := by
  have hescape : ∀ d, escaped? d = some d → unescape? ('\\' :: d :: t) = (unescape? t).map (d :: ·) := by
    intro d hd
    rw [unescape?, hd]
    cases unescape? t <;> rfl
  unfold literalChar
  split
  · rename_i hc
    rcases (by simpa using hc : c = '\\' ∨ c = '\'') with rfl | rfl
    · exact hescape _ (by decide)
    · exact hescape _ (by decide)
  · rename_i hc
    exact unescape?_cons (fun h => hc (by simp [h])) t

/-- The escapes of a literal are read back as what was escaped. -/
theorem unescape?_flatMap (t : Text) : unescape? (t.flatMap literalChar) = some t := by
  induction t with
  | nil => rfl
  | cons c t ih => rw [List.flatMap_cons, unescape?_literalChar, ih, Option.map_some]

/-- A text breaks a line within its literal just when it does so itself. -/
theorem isStringLiteral_literal_iff (t : Text) :
    IsStringLiteral (literal t) ↔ ∀ c ∈ Text.strip t, breaksLine c = false := by
  have hmem : ∀ c, breaksLine c = true → (c ∈ (Text.strip t).flatMap literalChar ↔ c ∈ Text.strip t) := by
    intro c hc
    refine mem_flatMap_literalChar ?_ _
    rintro rfl
    cases hc
  constructor
  · rintro ⟨body, hbody, -, hbreaks⟩ c hc
    obtain rfl : (Text.strip t).flatMap literalChar = body := by simpa [literal] using hbody
    refine Bool.eq_false_iff.mpr fun hb => ?_
    rw [hbreaks c ((hmem c hb).mpr hc)] at hb
    cases hb
  · intro h
    refine ⟨_, rfl, literalBody_flatMap _, fun c hc => Bool.eq_false_iff.mpr fun hb => ?_⟩
    rw [h c ((hmem c hb).mp hc)] at hb
    cases hb

theorem not_breaksLine_of_printable {t : Text} (h : Json.Printable t) : ∀ c ∈ t, breaksLine c = false := by
  intro c hc
  refine Bool.eq_false_iff.mpr fun hb => ?_
  rcases (by simpa [breaksLine] using hb : c = '\n' ∨ c = '\r') with rfl | rfl
  · exact h.feed_not_mem hc
  · exact h.return_not_mem hc

/-! ## Values -/

/-- The literal of any value stands between single quotes, no quote within it ends it, its last quote is not escaped,
and its escapes are read back as the value without the blanks around it. It is a string literal unless the value is a
text that goes over several lines. -/
theorem valueLiteral_isStringLiteral_iff (v : Value) :
    (∃ body, valueLiteral v = '\'' :: body ++ ['\''] ∧ LiteralBody '\'' body ∧
      unescape? body = some (Text.strip v.display)) ∧
      (IsStringLiteral (valueLiteral v) ↔ ∀ t, v = .str t → ∀ c ∈ Text.strip t, breaksLine c = false) := by
  refine ⟨⟨_, rfl, literalBody_flatMap _, unescape?_flatMap _⟩, (isStringLiteral_literal_iff v.display).trans ?_⟩
  rcases v.display_cases with ⟨t, rfl, hdisplay⟩ | ⟨hno, hprintable⟩
  · rw [hdisplay]
    constructor
    · rintro h t' ht
      cases ht
      exact h
    · exact fun h => h t rfl
  · have hunbroken : ∀ c ∈ Text.strip v.display, breaksLine c = false :=
      fun c hc => not_breaksLine_of_printable hprintable c ((Text.strip_isInfix _).subset hc)
    exact ⟨fun _ t ht => absurd ht (hno t), fun _ => hunbroken⟩

/-- The rows of a grid, each on a line of its own, are no string literal. -/
theorem line_feed_breaks_literal :
    let rows := "\"a b\"\n\"c d\"".toList
    valueLiteral (.str rows) = "'\"a b\"\n\"c d\"'".toList ∧ ¬ IsStringLiteral (valueLiteral (.str rows)) := by
  intro rows
  refine ⟨by decide, ?_⟩
  rintro ⟨body, hbody, -, hbreaks⟩
  have hrows : valueLiteral (.str rows) = '\'' :: rows ++ ['\''] := by decide
  obtain rfl : rows = body := by simpa using hrows.symm.trans hbody
  exact absurd (hbreaks '\n' (by decide)) (by decide)

end LiveEdit.Style
