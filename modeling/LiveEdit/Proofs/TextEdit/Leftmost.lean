/-
  LiveEdit.Proofs.TextEdit.Leftmost — which occurrences of a text are replaced.

  A match of one kind of enclosure is an occurrence together with what encloses it. `Leftmost` is the list of
  matches that stand next to each other when each is the first one behind the one before; that is what
  cutting a text into pieces finds (`leftmost_pieces`), and rendering the pieces puts another text in the
  place of these occurrences (`render_pieces_eq_substitute`). A text that differs from the old one always
  changes the result (`render_ne`).
-/

import LiveEdit.Edit.TextEdit
import LiveEdit.Proofs.Text.Run

namespace LiveEdit.TextEdit

/-! ## Matches -/

/-- The enclosures of a kind: `>` with blanks and blanks with `<`, or the same mark on both sides. -/
def Hit.Of : Enclosure → Hit → Prop
  | .tags, h => h.mark = '>' ∧ Text.allBlank h.blanks = true ∧
      ∃ blanks, Text.allBlank blanks = true ∧ h.closing = blanks ++ ['<']
  | .quotes, h => (h.mark = '\'' ∨ h.mark = '"') ∧ h.blanks = [] ∧ h.closing = [h.mark]
  | .backticks, h => h.mark = '\x60' ∧ h.blanks = [] ∧ h.closing = [h.mark]

/-- At offset `i` stands an occurrence of `old` with its enclosure. -/
def MatchAt (old : Text) (kind : Enclosure) (t : Text) (i : Nat) (h : Hit) : Prop :=
  h.Of kind ∧ h.text old <+: t.drop i

/-- Some occurrence of `old` is enclosed in this way. -/
def Occurs (old : Text) (kind : Enclosure) (t : Text) : Prop := ∃ i h, MatchAt old kind t i h

/-- The matches from offset `start` on, each the first one behind the one before. -/
inductive Leftmost (old : Text) (kind : Enclosure) (t : Text) : Nat → List (Nat × Hit) → Prop
  | done {start : Nat} : (∀ i h, start ≤ i → ¬ MatchAt old kind t i h) → Leftmost old kind t start []
  | next {start i : Nat} {h : Hit} {ms : List (Nat × Hit)} : start ≤ i → MatchAt old kind t i h →
      (∀ j g, start ≤ j → j < i → ¬ MatchAt old kind t j g) →
      Leftmost old kind t (i + (h.text old).length) ms → Leftmost old kind t start ((i, h) :: ms)

/-- The offset of the occurrence itself. -/
def occurrence (m : Nat × Hit) : Nat := m.1 + 1 + m.2.blanks.length

theorem length_text (old : Text) (h : Hit) :
    (h.text old).length = 1 + h.blanks.length + old.length + h.closing.length := by
  simp only [Hit.text, List.length_append, List.length_cons]; omega

theorem MatchAt.lt_length {old t : Text} {kind : Enclosure} {i : Nat} {h : Hit} (m : MatchAt old kind t i h) :
    i < t.length := by
  have hl := m.2.length_le
  rw [length_text, List.length_drop] at hl
  omega

/-- The occurrence stands where it is said to. -/
theorem MatchAt.isPrefix_occurrence {old t : Text} {kind : Enclosure} {i : Nat} {h : Hit}
    (m : MatchAt old kind t i h) : old <+: t.drop (occurrence (i, h)) := by
  obtain ⟨rest, hr⟩ := m.2
  refine ⟨h.closing ++ rest, ?_⟩
  have hd : t.drop (occurrence (i, h)) = (t.drop i).drop (1 + h.blanks.length) := by
    rw [List.drop_drop, occurrence, Nat.add_assoc]
  rw [hd, ← hr, Nat.add_comm 1]
  simp [Hit.text]

/-! ## One place -/

theorem beforeTag?_of_blanks {blanks rest : Text} (hb : Text.allBlank blanks = true) :
    beforeTag? (blanks ++ '<' :: rest) = some (blanks ++ ['<']) := by
  have hlt : ∀ c ∈ ('<' :: rest).head?, Text.isBlank c = false := by simp +decide
  obtain ⟨ht, hd⟩ := Text.run_append hb hlt
  unfold beforeTag?
  rw [hd]
  simp [ht]

theorem beforeTag?_blanks {t closing : Text} (h : beforeTag? t = some closing) :
    ∃ blanks, Text.allBlank blanks = true ∧ closing = blanks ++ ['<'] := by
  unfold beforeTag? at h
  split at h
  · cases h
    exact ⟨_, List.all_takeWhile, rfl⟩
  · cases h

theorem of_behindBlanks? {old t : Text} {n : Nat} {h : Hit} (hn : n ≤ (t.takeWhile Text.isBlank).length)
    (hh : behindBlanks? old t n = some h) : h.Of .tags := by
  obtain ⟨closing, hc, rfl⟩ := Option.map_eq_some_iff.mp hh
  obtain ⟨rest, -, hb⟩ := Option.bind_eq_some_iff.mp hc
  refine ⟨rfl, List.all_eq_true.mpr fun c hc => ?_, beforeTag?_blanks hb⟩
  have hp : t.take n <+: t.takeWhile Text.isBlank :=
    List.prefix_of_prefix_length_le (List.take_prefix n t) (List.takeWhile_prefix _)
      (by rw [List.length_take]; omega)
  exact List.all_eq_true.mp List.all_takeWhile c (hp.subset hc)

theorem of_betweenTags? {old t : Text} {n : Nat} {h : Hit} (hn : n ≤ (t.takeWhile Text.isBlank).length)
    (hh : betweenTags? old t n = some h) : h.Of .tags := by
  induction n with
  | zero => exact of_behindBlanks? hn hh
  | succ n ih =>
    rcases Option.or_eq_some_iff.mp hh with hh | ⟨-, hh⟩
    · exact of_behindBlanks? hn hh
    · exact ih (by omega) hh

/-- Every number of blanks up to the given one is tried. -/
theorem behindBlanks?_eq_none {old t : Text} {n m : Nat} (hh : betweenTags? old t n = none) (hm : m ≤ n) :
    behindBlanks? old t m = none := by
  induction n with
  | zero => rw [Nat.le_zero.mp hm]; exact hh
  | succ n ih =>
    obtain ⟨h1, h2⟩ := Option.or_eq_none_iff.mp hh
    rcases Nat.le_succ_iff.mp hm with hm | rfl
    · exact ih h2 hm
    · exact h1

theorem behindBlanks?_of_isPrefix {old t : Text} {h : Hit} (hk : h.Of .tags) (hp : h.text old <+: '>' :: t) :
    behindBlanks? old t h.blanks.length = some h := by
  obtain ⟨hmark, -, blanks, hb, hc⟩ := hk
  obtain ⟨rest, hr⟩ := hp
  simp only [Hit.text, hc, hmark, List.cons_append, List.append_assoc, List.cons.injEq, true_and,
    List.nil_append] at hr
  unfold behindBlanks?
  rw [← hr, List.drop_left, List.take_left, Text.afterStart?_eq_some_iff.mpr rfl, Option.bind_some,
    beforeTag?_of_blanks hb]
  simp only [Option.map_some, ← hc, ← hmark]

theorem not_isPrefix_of_betweenTags? {old t : Text}
    (hh : betweenTags? old t (t.takeWhile Text.isBlank).length = none) {h : Hit} (hk : h.Of .tags) :
    ¬ h.text old <+: '>' :: t := by
  intro hp
  have hle : h.blanks.length ≤ (t.takeWhile Text.isBlank).length := by
    obtain ⟨rest, hr⟩ := hp
    simp only [Hit.text, List.cons_append, List.append_assoc, List.cons.injEq] at hr
    rw [← hr.2, List.takeWhile_append_of_pos (List.all_eq_true.mp hk.2.1), List.length_append]
    omega
  have hn := behindBlanks?_eq_none hh hle
  rw [behindBlanks?_of_isPrefix hk hp] at hn
  cases hn

theorem eq_of_beforeQuote? {old t : Text} {quote : Char} {h : Hit} (hh : beforeQuote? old quote t = some h) :
    h = ⟨quote, [], [quote]⟩ := by
  unfold beforeQuote? at hh
  split at hh
  · split at hh <;> cases hh; rfl
  · cases hh

theorem beforeQuote?_eq_some (old rest : Text) (quote : Char) :
    beforeQuote? old quote (old ++ quote :: rest) = some ⟨quote, [], [quote]⟩ := by
  unfold beforeQuote?
  rw [Text.afterStart?_eq_some_iff.mpr rfl]
  simp

/-- An occurrence between two equal marks, taken apart. -/
theorem eq_of_isPrefix_marks {old t : Text} {h : Hit} (hb : h.blanks = []) (hc : h.closing = [h.mark])
    (hp : h.text old <+: t) : ∃ rest, t = h.mark :: (old ++ h.mark :: rest) ∧ h = ⟨h.mark, [], [h.mark]⟩ := by
  obtain ⟨mark, blanks, closing⟩ := h
  simp only at hb hc
  subst hb hc
  obtain ⟨rest, hr⟩ := hp
  exact ⟨rest, by rw [← hr]; simp [Hit.text], rfl⟩

/-- A hit is an enclosure of its kind. -/
theorem of_hit? {old t : Text} {kind : Enclosure} {h : Hit} (hh : hit? old kind t = some h) : h.Of kind := by
  unfold hit? at hh
  split at hh
  · cases hh
  · split at hh
    · exact of_betweenTags? (Nat.le_refl _) hh
    · cases hh
  · split at hh
    · rename_i hq
      rw [eq_of_beforeQuote? hh]
      exact ⟨by simpa using hq, rfl, rfl⟩
    · cases hh
  · split at hh
    · rename_i hq
      rw [eq_of_beforeQuote? hh]
      exact ⟨hq, rfl, rfl⟩
    · cases hh

/-- Where no hit is found, no occurrence with an enclosure of that kind begins. -/
theorem not_isPrefix_of_hit? {old t : Text} {kind : Enclosure} (hh : hit? old kind t = none) {h : Hit}
    (hk : h.Of kind) : ¬ h.text old <+: t := by
  intro hp
  cases kind with
  | tags =>
    obtain ⟨rest, hr⟩ := hp
    obtain ⟨c, t, rfl⟩ : ∃ c t', t = c :: t' := ⟨_, _, hr.symm⟩
    have hc : c = '>' := by
      simp only [Hit.text, List.cons_append, List.cons.injEq] at hr
      rw [← hr.1, hk.1]
    subst hc
    simp only [hit?, if_true] at hh
    exact not_isPrefix_of_betweenTags? hh hk ⟨rest, hr⟩
  | quotes =>
    obtain ⟨rest, rfl, -⟩ := eq_of_isPrefix_marks hk.2.1 hk.2.2 hp
    rw [hit?, if_pos (by simpa using hk.1), beforeQuote?_eq_some] at hh
    cases hh
  | backticks =>
    obtain ⟨rest, rfl, -⟩ := eq_of_isPrefix_marks hk.2.1 hk.2.2 hp
    rw [hit?, if_pos hk.1, beforeQuote?_eq_some] at hh
    cases hh

/-! ## The pieces of a text -/

/-- The hits among the pieces with their offsets, when the first piece stands at `offset`. -/
def hitsFrom (old : Text) (offset : Nat) : List Piece → List (Nat × Hit)
  | [] => []
  | .char _ :: ps => hitsFrom old (offset + 1) ps
  | .hit h :: ps => (offset, h) :: hitsFrom old (offset + (h.text old).length) ps

theorem hitsFrom_eq_nil_iff (old : Text) (offset : Nat) (ps : List Piece) :
    hitsFrom old offset ps = [] ↔ ps.any Piece.isHit = false := by
  induction ps generalizing offset with
  | nil => simp [hitsFrom]
  | cons p ps ih =>
    cases p with
    | char c => simp [hitsFrom, Piece.isHit, ih]
    | hit h => simp [hitsFrom, Piece.isHit]

/-- What follows a hit at the start of a text. -/
theorem pieces_of_hit? {old : Text} {kind : Enclosure} {t : Text} {h : Hit} (hh : hit? old kind t = some h) :
    pieces old kind 0 t = .hit h :: pieces old kind 0 (t.drop (h.text old).length) := by
  cases t with
  | nil => simp [hit?] at hh
  | cons c t =>
    have hl := length_text old h
    have hd : (c :: t).drop (h.text old).length = t.drop ((h.text old).length - 1) := by
      rw [List.drop_cons (by omega)]
    simp only [pieces, hh]
    rw [hd, pieces_skip]

theorem Leftmost.step {old t : Text} {kind : Enclosure} {start : Nat} {ms : List (Nat × Hit)}
    (h : Leftmost old kind t (start + 1) ms) (hs : ∀ g, ¬ MatchAt old kind t start g) :
    Leftmost old kind t start ms := by
  have none_at : ∀ {j g}, start ≤ j → (start + 1 ≤ j → ¬ MatchAt old kind t j g) → ¬ MatchAt old kind t j g := by
    intro j g hj hn
    rcases Nat.eq_or_lt_of_le hj with rfl | hj
    · exact hs g
    · exact hn hj
  cases h with
  | done hn => exact .done fun i g hi => none_at hi (fun hi => hn i g hi)
  | next hi hm hn hr =>
    exact .next (by omega) hm (fun j g hj hji => none_at hj (fun hj => hn j g hj hji)) hr

/-- Cutting a text finds its leftmost matches. -/
theorem leftmost_pieces (old : Text) (kind : Enclosure) (t : Text) (start : Nat) :
    Leftmost old kind t start (hitsFrom old start (pieces old kind 0 (t.drop start))) := by
  induction hn : t.length - start using Nat.strongRecOn generalizing start with
  | ind n ih =>
    cases hd : t.drop start with
    | nil =>
      have hl : t.length ≤ start := List.drop_eq_nil_iff.mp hd
      exact .done fun i h hi m => by have := m.lt_length; omega
    | cons c rest =>
      have hlt : start < t.length := by
        have := congrArg List.length hd
        rw [List.length_drop, List.length_cons] at this
        omega
      cases hh : hit? old kind (c :: rest) with
      | some h =>
        have hl := length_text old h
        rw [pieces_of_hit? hh, hitsFrom, ← hd, List.drop_drop]
        refine .next (Nat.le_refl _) ⟨of_hit? hh, ?_⟩ (fun j g h1 h2 => by omega) (ih _ (by omega) _ rfl)
        rw [hd]
        exact isPrefix_of_hit? hh
      | none =>
        have hrest : t.drop (start + 1) = rest := by rw [← List.drop_drop, hd]; rfl
        have hps : pieces old kind 0 (c :: rest) = .char c :: pieces old kind 0 rest := by
          simp only [pieces, hh]
        rw [hps, hitsFrom, ← hrest]
        refine (ih _ (by omega) _ rfl).step fun g m => ?_
        exact not_isPrefix_of_hit? hh m.1 (hd ▸ m.2)

theorem Leftmost.eq_nil_iff {old t : Text} {kind : Enclosure} {ms : List (Nat × Hit)}
    (h : Leftmost old kind t 0 ms) : ms = [] ↔ ¬ Occurs old kind t := by
  cases h with
  | done hn => simpa [Occurs] using fun i g m => hn i g (Nat.zero_le i) m
  | next hi hm hn hr => simpa using ⟨_, _, hm⟩

theorem any_isHit_iff (old : Text) (kind : Enclosure) (t : Text) :
    (pieces old kind 0 t).any Piece.isHit = true ↔ Occurs old kind t := by
  have h := (leftmost_pieces old kind t 0).eq_nil_iff
  rw [hitsFrom_eq_nil_iff, List.drop_zero, Bool.eq_false_iff] at h
  exact ⟨fun hp => Classical.byContradiction fun hn => h.mpr hn hp,
    fun ho => Classical.byContradiction fun hn => h.mp hn ho⟩

/-! ## Another text in the place of the occurrences -/

/-- `t` from `start` on, with `new` in the place of the `size` characters at each of some rising offsets. -/
def substitute (size : Nat) (new t : Text) (start : Nat) : List Nat → Text
  | [] => t.drop start
  | p :: ps => (t.drop start).take (p - start) ++ new ++ substitute size new t (p + size) ps

/-- What stands before the first offset stays. -/
theorem substitute_advance (size : Nat) (new t : Text) {start middle : Nat} {ps : List Nat} (hle : start ≤ middle)
    (hps : ∀ p ∈ ps, middle ≤ p) :
    substitute size new t start ps = (t.drop start).take (middle - start) ++ substitute size new t middle ps := by
  have hd : t.drop middle = (t.drop start).drop (middle - start) := by rw [List.drop_drop]; congr 1; omega
  cases ps with
  | nil => rw [substitute, substitute, hd, List.take_append_drop]
  | cons p ps =>
    have hp := hps p (by simp)
    have ht : (t.drop start).take (p - start) =
        (t.drop start).take (middle - start) ++ (t.drop middle).take (p - middle) := by
      rw [hd, ← List.take_add]
      congr 1; omega
    rw [substitute, substitute, ht]
    simp

theorem Leftmost.start_le {old t : Text} {kind : Enclosure} {start : Nat} {ms : List (Nat × Hit)}
    (h : Leftmost old kind t start ms) : ∀ m ∈ ms, start ≤ m.1 := by
  induction h with
  | done _ => simp
  | next hi hm _ _ ih =>
    have hl := length_text old
    intro m hm
    rcases List.mem_cons.mp hm with rfl | hm
    · exact hi
    · have := ih m hm; omega

theorem Leftmost.matchAt {old t : Text} {kind : Enclosure} {start : Nat} {ms : List (Nat × Hit)}
    (h : Leftmost old kind t start ms) : ∀ m ∈ ms, MatchAt old kind t m.1 m.2 := by
  induction h with
  | done _ => simp
  | next _ hm _ _ ih => exact List.forall_mem_cons.mpr ⟨hm, ih⟩

/-- The occurrences do not overlap. -/
theorem Leftmost.pairwise {old t : Text} {kind : Enclosure} {start : Nat} {ms : List (Nat × Hit)}
    (h : Leftmost old kind t start ms) :
    (ms.map occurrence).Pairwise fun p q => p + old.length ≤ q := by
  induction h with
  | done _ => simp
  | @next start i h ms _ _ _ hr ih =>
    refine List.pairwise_cons.mpr ⟨fun q hq => ?_, ih⟩
    obtain ⟨m, hm, rfl⟩ := List.mem_map.mp hq
    have := hr.start_le m hm
    have := length_text old h
    simp only [occurrence]
    omega

/-- What a match consists of, in its place. -/
theorem MatchAt.drop_eq {old t : Text} {kind : Enclosure} {i : Nat} {h : Hit} (m : MatchAt old kind t i h) :
    t.drop i = h.mark :: h.blanks ++ old ++ h.closing ++ t.drop (i + (h.text old).length) := by
  obtain ⟨rest, hr⟩ := m.2
  have hd : t.drop (i + (h.text old).length) = rest := by
    rw [← List.drop_drop, ← hr, List.drop_left]
  rw [hd, ← hr]
  rfl

/-- A match and the text behind it after the substitution: its enclosure stays. -/
theorem substitute_match {old new t : Text} {kind : Enclosure} {i : Nat} {h : Hit} {ps : List Nat}
    (m : MatchAt old kind t i h) (hps : ∀ p ∈ ps, i + (h.text old).length ≤ p) :
    substitute old.length new t i (occurrence (i, h) :: ps) =
      h.text new ++ substitute old.length new t (i + (h.text old).length) ps := by
  have hl := length_text old h
  have ho : occurrence (i, h) - i = (h.mark :: h.blanks).length := by simp [occurrence]; omega
  have hopen : (t.drop i).take (occurrence (i, h) - i) = h.mark :: h.blanks := by
    rw [m.drop_eq, ho, List.append_assoc, List.append_assoc, List.take_left]
  have hclose : (t.drop (occurrence (i, h) + old.length)).take
      (i + (h.text old).length - (occurrence (i, h) + old.length)) = h.closing := by
    have hd : t.drop (occurrence (i, h) + old.length) = (t.drop i).drop (h.mark :: h.blanks ++ old).length := by
      rw [List.drop_drop]; congr 1; simp [occurrence]; omega
    have hn : i + (h.text old).length - (occurrence (i, h) + old.length) = h.closing.length := by
      simp only [occurrence]; omega
    rw [hd, m.drop_eq, List.append_assoc, List.drop_left, hn, List.take_left]
  rw [substitute, hopen, substitute_advance _ _ _ (by simp only [occurrence]; omega) hps, hclose]
  simp [Hit.text]

/-- Rendering the pieces replaces the occurrences and nothing else. -/
theorem render_pieces_eq_substitute (old new : Text) (kind : Enclosure) (t : Text) (start : Nat) :
    render new (pieces old kind 0 (t.drop start)) =
      substitute old.length new t start
        ((hitsFrom old start (pieces old kind 0 (t.drop start))).map occurrence) := by
  induction hn : t.length - start using Nat.strongRecOn generalizing start with
  | ind n ih =>
    cases hd : t.drop start with
    | nil => simp [pieces, render, hitsFrom, substitute, hd]
    | cons c rest =>
      have hlt : start < t.length := by
        have := congrArg List.length hd
        rw [List.length_drop, List.length_cons] at this
        omega
      have later : ∀ n, ∀ p ∈ (hitsFrom old n (pieces old kind 0 (t.drop n))).map occurrence, n ≤ p := by
        intro n p hp
        obtain ⟨m, hm, rfl⟩ := List.mem_map.mp hp
        have := (leftmost_pieces old kind t n).start_le m hm
        simp only [occurrence]; omega
      cases hh : hit? old kind (c :: rest) with
      | some h =>
        have m : MatchAt old kind t start h := ⟨of_hit? hh, hd ▸ isPrefix_of_hit? hh⟩
        have hl := length_text old h
        rw [pieces_of_hit? hh, hitsFrom, ← hd, List.drop_drop, List.map_cons, substitute_match m (later _),
          ← ih _ (by omega) _ rfl]
        rfl
      | none =>
        have hrest : t.drop (start + 1) = rest := by rw [← List.drop_drop, hd]; rfl
        have hps : pieces old kind 0 (c :: rest) = .char c :: pieces old kind 0 rest := by
          simp only [pieces, hh]
        rw [hps, hitsFrom, ← hrest, substitute_advance _ _ _ (Nat.le_succ start) (later _),
          ← ih _ (by omega) _ rfl, hd]
        simp [render, Piece.text]

/-! ## A replacement always shows -/

theorem length_render (a b : Text) (ps : List Piece) :
    (render a ps).length + (ps.countP Piece.isHit) * b.length =
      (render b ps).length + (ps.countP Piece.isHit) * a.length := by
  induction ps with
  | nil => simp [render]
  | cons p ps ih =>
    simp only [render, List.flatMap_cons, List.length_append] at ih ⊢
    cases p with
    | char c => simp [Piece.text, Piece.isHit] at ih ⊢; omega
    | hit h =>
      simp only [Piece.text, Piece.isHit, List.countP_cons, if_true, length_text, Nat.add_mul, Nat.one_mul]
      omega

/-- With texts of one length inside, the pieces can be told apart from the left. -/
theorem eq_of_render_eq {a b : Text} (hl : a.length = b.length) {ps : List Piece}
    (hps : ps.any Piece.isHit = true) (h : render a ps = render b ps) : a = b := by
  induction ps with
  | nil => simp at hps
  | cons p ps ih =>
    simp only [render, List.flatMap_cons] at h ih
    cases p with
    | char c =>
      simp only [Piece.text, List.cons_append, List.nil_append, List.cons.injEq, true_and] at h
      exact ih (by simpa [Piece.isHit] using hps) h
    | hit h' =>
      simp only [Piece.text, Hit.text, List.cons_append, List.append_assoc, List.cons.injEq, true_and,
        List.append_cancel_left_eq] at h
      exact (List.append_inj h hl).1

theorem render_ne {a b : Text} (hne : a ≠ b) {ps : List Piece} (hps : ps.any Piece.isHit = true) :
    render a ps ≠ render b ps := by
  intro h
  have hlen := length_render a b ps
  rw [h] at hlen
  have hpos : 0 < ps.countP Piece.isHit := by
    obtain ⟨p, hp, hit⟩ := List.any_eq_true.mp hps
    exact List.countP_pos_iff.mpr ⟨p, hp, hit⟩
  have hl : b.length = a.length := Nat.eq_of_mul_eq_mul_left hpos (by omega)
  exact hne (eq_of_render_eq hl.symm hps h)

/-- The scope itself is never what comes out of replacing a match. -/
theorem render_pieces_ne {old new scope : Text} {kind : Enclosure} (hne : old ≠ new)
    (h : Occurs old kind scope) : render new (pieces old kind 0 scope) ≠ scope := by
  intro he
  have := render_ne hne ((any_isHit_iff old kind scope).mpr h)
  rw [render_pieces, he] at this
  exact this rfl

end LiveEdit.TextEdit
