/-
  LiveEdit.Edit.TextEdit — replacing a rendered text where it stands as text content or as a literal.

  An occurrence counts if it is enclosed: by tags, by quotes of one kind, or by backticks. With a usable line
  the search is first confined to a window around it; the whole document is searched only for a text that
  occurs once. The kinds of enclosure are tried in order, and all occurrences of the first kind that is found
  are replaced; the enclosing characters stay.
-/

import LiveEdit.Line
import LiveEdit.Text.Blank

namespace LiveEdit.TextEdit

inductive Enclosure where
  | tags
  | quotes
  | backticks
  deriving DecidableEq, Repr

/-- What encloses an occurrence: in front a mark, perhaps with blanks after it, and what closes it. -/
structure Hit where
  mark : Char
  blanks : Text
  closing : Text
  deriving DecidableEq, Repr

/-- The occurrence with its enclosure, when `inside` stands in it. -/
def Hit.text (inside : Text) (h : Hit) : Text := h.mark :: h.blanks ++ inside ++ h.closing

/-- The blanks before the next `<`, with it. -/
def beforeTag? (t : Text) : Option Text :=
  match t.dropWhile Text.isBlank with
  | '<' :: _ => some (t.takeWhile Text.isBlank ++ ['<'])
  | _ => none

/-- `old` behind a `>` that has been taken off and a given number of blanks, and before a `<`. -/
def behindBlanks? (old t : Text) (blanks : Nat) : Option Hit :=
  ((Text.afterStart? old (t.drop blanks)).bind beforeTag?).map fun closing => ⟨'>', t.take blanks, closing⟩

/-- `old` between a `>` that has been taken off and a `<`. As many blanks as possible, of at most `blanks`,
belong to the enclosure. -/
def betweenTags? (old t : Text) : (blanks : Nat) → Option Hit
  | 0 => behindBlanks? old t 0
  | blanks + 1 => (behindBlanks? old t (blanks + 1)).or (betweenTags? old t blanks)

/-- `old` before the character `quote`. -/
def beforeQuote? (old : Text) (quote : Char) (t : Text) : Option Hit :=
  match Text.afterStart? old t with
  | some (c :: _) => if c = quote then some ⟨quote, [], [quote]⟩ else none
  | _ => none

/-- An enclosed occurrence of `old` at the start of a text. -/
def hit? (old : Text) : Enclosure → Text → Option Hit
  | _, [] => none
  | .tags, c :: t => if c = '>' then betweenTags? old t (t.takeWhile Text.isBlank).length else none
  | .quotes, c :: t => if c = '\'' || c = '"' then beforeQuote? old c t else none
  | .backticks, c :: t => if c = '\x60' then beforeQuote? old c t else none

/-- A text cut into characters that stay and enclosed occurrences. -/
inductive Piece where
  | char (c : Char)
  | hit (h : Hit)
  deriving DecidableEq, Repr

/-- Cuts a text from the left; `skip` characters belong to the hit found last. -/
def pieces (old : Text) (enclosure : Enclosure) (skip : Nat) : Text → List Piece
  | [] => []
  | c :: t =>
    match skip with
    | skip + 1 => pieces old enclosure skip t
    | 0 =>
      match hit? old enclosure (c :: t) with
      | some h => .hit h :: pieces old enclosure ((h.text old).length - 1) t
      | none => .char c :: pieces old enclosure 0 t

/-- The text of a piece with `inside` in place of the occurrence. -/
def Piece.text (inside : Text) : Piece → Text
  | .char c => [c]
  | .hit h => h.text inside

def Piece.isHit : Piece → Bool
  | .char _ => false
  | .hit _ => true

def render (inside : Text) (ps : List Piece) : Text := ps.flatMap (Piece.text inside)

/-! ## What the pieces hold -/

theorem isPrefix_of_beforeTag? {t closing : Text} (h : beforeTag? t = some closing) : closing <+: t := by
  unfold beforeTag? at h
  split at h
  · rename_i rest hr
    simp only [Option.some.injEq] at h
    refine ⟨rest, ?_⟩
    rw [← h, List.append_assoc, List.singleton_append, ← hr, List.takeWhile_append_dropWhile]
  · simp at h

theorem isPrefix_of_behindBlanks? {old t : Text} {blanks : Nat} {h : Hit} (hh : behindBlanks? old t blanks = some h) :
    h.text old <+: '>' :: t := by
  obtain ⟨closing, hc, rfl⟩ := Option.map_eq_some_iff.mp hh
  obtain ⟨rest, hr, hb⟩ := Option.bind_eq_some_iff.mp hc
  obtain ⟨tail, ht⟩ := isPrefix_of_beforeTag? hb
  refine ⟨tail, ?_⟩
  rw [← ht] at hr
  simp only [Hit.text, List.cons_append, List.append_assoc]
  rw [← Text.afterStart?_eq_some_iff.mp hr, List.take_append_drop]

theorem isPrefix_of_betweenTags? {old t : Text} {blanks : Nat} {h : Hit} (hh : betweenTags? old t blanks = some h) :
    h.text old <+: '>' :: t := by
  induction blanks with
  | zero => exact isPrefix_of_behindBlanks? hh
  | succ blanks ih =>
    rcases Option.or_eq_some_iff.mp hh with h | ⟨_, h⟩
    · exact isPrefix_of_behindBlanks? h
    · exact ih h

theorem isPrefix_of_beforeQuote? {old t : Text} {quote : Char} {h : Hit} (hh : beforeQuote? old quote t = some h) :
    h.text old <+: quote :: t := by
  unfold beforeQuote? at hh
  split at hh
  · rename_i c rest hr
    split at hh
    · rename_i hc
      cases hh
      exact ⟨rest, by simp [Hit.text, Text.afterStart?_eq_some_iff.mp hr, hc]⟩
    · cases hh
  · cases hh

/-- A hit is what it says: the enclosure with the occurrence inside begins the text. -/
theorem isPrefix_of_hit? {old t : Text} {enclosure : Enclosure} {h : Hit} (hh : hit? old enclosure t = some h) :
    h.text old <+: t := by
  unfold hit? at hh
  split at hh
  · cases hh
  · split at hh
    · rename_i hc; subst hc; exact isPrefix_of_betweenTags? hh
    · cases hh
  · split at hh
    · exact isPrefix_of_beforeQuote? hh
    · cases hh
  · split at hh
    · exact isPrefix_of_beforeQuote? hh
    · cases hh

theorem pieces_skip (old : Text) (enclosure : Enclosure) (skip : Nat) (t : Text) :
    pieces old enclosure skip t = pieces old enclosure 0 (t.drop skip) := by
  induction t generalizing skip with
  | nil => simp [pieces]
  | cons c t ih =>
    cases skip with
    | zero => rfl
    | succ skip => simp [pieces, ih]

/-- With the text itself inside, the pieces give back what was cut. -/
theorem render_pieces (old : Text) (enclosure : Enclosure) (t : Text) :
    render old (pieces old enclosure 0 t) = t := by
  induction hn : t.length using Nat.strongRecOn generalizing t with
  | ind n ih =>
    cases t with
    | nil => simp [pieces, render]
    | cons c t =>
      unfold pieces
      simp only
      split
      · rename_i h hh
        obtain ⟨rest, hr⟩ := isPrefix_of_hit? hh
        have hd : t.drop ((h.text old).length - 1) = rest := by
          simp only [Hit.text, List.cons_append, List.cons.injEq] at hr ⊢
          simp [← hr.2]
        have hl := congrArg List.length hr
        simp only [Hit.text, List.length_append, List.length_cons] at hl hn
        rw [pieces_skip, hd, render, List.flatMap_cons, Piece.text, ← hr]
        exact congrArg _ (ih rest.length (by omega) rest rfl)
      · have := ih t.length (by simp at hn; omega) t rfl
        simpa [render, Piece.text] using this

/-! ## Replacing -/

/-- Replaces all occurrences of one kind of enclosure; none if there is none or the scope would not change. -/
def replaceKind? (old new scope : Text) (enclosure : Enclosure) : Option Text :=
  let ps := pieces old enclosure 0 scope
  let edited := render new ps
  if ps.any Piece.isHit && edited ≠ scope then some edited else none

/-- Replaces the occurrences of the first kind of enclosure for which that has an effect. -/
def replaceIn? (old new scope : Text) : Option Text :=
  [Enclosure.tags, .quotes, .backticks].findSome? (replaceKind? old new scope)

/-- Replaces inside the window around a line only. -/
def inWindow? (settings : Settings) (content old new : Text) (line : Nat) : Option Text :=
  let lines := Text.lines content
  let (start, stop) := Line.around settings.textScopeRadius.val lines.length line
  (replaceIn? old new (Text.unlines ((lines.take stop).drop start))).map fun scope =>
    Text.unlines (lines.take start ++ Text.lines scope ++ lines.drop stop)

/-- Replaces in the whole document if the text occurs only once. -/
def inWhole? (content old new : Text) : Option Text :=
  if Text.count old content = 1 then replaceIn? old new content else none

/-- The edited document; `line` is the line around which to look first. Nothing is done for an empty text or
one that would not change. -/
def atLine? (settings : Settings) (content old new : Text) (line : Option Nat) : Option Text :=
  if old.isEmpty || old = new then none
  else (line.bind (inWindow? settings content old new)).or (inWhole? content old new)

/-- The line of a document that a usable value points to. -/
def windowLine? (content : Text) (line : Value) : Except EditError (Option Nat) := do
  if ← Line.isUsable line then some <$> Line.clamp (Text.lines content).length line else return none

/-- The edited document, or none if the edit declines. -/
def apply (settings : Settings) (content old new : Text) (line : Value) :
    Except EditError (Option Text) :=
  if old.isEmpty || old = new then .ok none
  else (windowLine? content line).map (atLine? settings content old new)

end LiveEdit.TextEdit
