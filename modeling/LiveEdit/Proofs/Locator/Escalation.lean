/-
  LiveEdit.Proofs.Locator.Escalation — what happens when the fast path comes to nothing and there is a generator.

  The generator is asked once, about a window of at least one line around a line of the document (`locate_asks`). Its
  snippet takes the place of the window, and there is a patch iff that is another text (`patchOfReply_eq_some_iff`).
-/

import LiveEdit.Proofs.Locator.FastPath

namespace LiveEdit

/-! ## The window -/

/-- The window reaches as far as the context, and not beyond the document. -/
theorem window_eq (settings : Settings) (count target : Nat) :
    window settings count target =
      (target - settings.fallbackContextLines.val, min count (target + settings.fallbackContextLines.val)) := by
  simp only [window, Fallback.snippetWindow, Prod.mk.injEq]
  omega

/-- The window around a line of the document holds this line and lies in the document. -/
theorem window_around (settings : Settings) {count target : Nat} (h1 : 1 ≤ target) (h2 : target ≤ count) :
    (window settings count target).1 < target ∧ target ≤ (window settings count target).2 ∧
      (window settings count target).2 ≤ count := by
  have hc := settings.fallbackContextLines.property
  rw [window_eq]
  omega

theorem slice_eq (lines : List Text) (start stop : Nat) :
    Fallback.slice lines start stop = (lines.take stop).drop start := by
  have hbound : ∀ n : Nat, Fallback.sliceBound lines.length n = n := by
    intro n
    rw [Fallback.sliceBound, if_neg (by omega), Int.toNat_natCast]
  rw [Fallback.slice, hbound, hbound]

/-- The text of a window of the source. -/
def windowText (source : Text) (start stop : Nat) : Text :=
  Text.unlines (((Text.lines source).take stop).drop start)

/-- It is the snippet of a brief for the window. -/
theorem snippet_ofLines (source : Text) (start stop target : Nat) (reliable : Bool) (element : Element)
    (change : Change) (sourceFile : Text) :
    (Fallback.Brief.ofLines (Text.lines source) start stop target reliable element change sourceFile).snippet =
      windowText source start stop := by
  show Text.unlines (Fallback.slice (Text.lines source) start stop) = _
  rw [slice_eq]
  rfl

/-- The source around a window of it. -/
theorem whole_windowText {source : Text} {start stop : Nat} (hlt : start < stop)
    (hle : stop ≤ (Text.lines source).length) :
    Text.above ((Text.lines source).take start) ++ windowText source start stop ++
      Text.below ((Text.lines source).drop stop) = source := by
  have hinside : ((Text.lines source).take stop).drop start ≠ [] := by
    rw [← List.length_pos_iff, List.length_drop, List.length_take]
    omega
  have hparts : (Text.lines source).take start ++ ((Text.lines source).take stop).drop start ++
      (Text.lines source).drop stop = Text.lines source := by
    have ht : (Text.lines source).take start = ((Text.lines source).take stop).take start := by
      rw [List.take_take, Nat.min_eq_left (by omega)]
    rw [ht, List.take_append_drop, List.take_append_drop]
  exact (Text.whole_around hinside hparts).trans (Text.unlines_lines source)

/-! ## The reply -/

/-- The source with a snippet in the place of a window. -/
def withSnippet (source : Text) (start stop : Nat) (snippet : Text) : Text :=
  Text.above ((Text.lines source).take start) ++ snippet ++ Text.below ((Text.lines source).drop stop)

theorem withSnippet_eq_iff {source snippet : Text} {start stop : Nat} (hlt : start < stop)
    (hle : stop ≤ (Text.lines source).length) :
    withSnippet source start stop snippet = source ↔ snippet = windowText source start stop := by
  have hwhole := whole_windowText hlt hle
  constructor
  · intro h
    have he : withSnippet source start stop snippet = withSnippet source start stop (windowText source start stop) :=
      h.trans hwhole.symm
    simpa only [withSnippet, List.append_cancel_right_eq, List.append_cancel_left_eq] using he
  · rintro rfl
    exact hwhole

/-- A reply with a snippet in it makes a patch unless it leaves the source as it is. -/
theorem patchOfReply_of_parse (r : Request) (filePath provider : Text) (start stop target : Nat) {response snippet : Text}
    (h : Fallback.parse response = .ok snippet) :
    patchOfReply r filePath provider start stop target (.text response) =
      if withSnippet r.sourceText start stop snippet = r.sourceText then .ok none
      else .ok (some {
        filePath := filePath
        content := withSnippet r.sourceText start stop snippet
        line := target
        generatedBy := "fallback".toList
        strategy := r.change.kind ++ ":fallback:".toList ++ provider }) := by
  rw [patchOfReply, h]
  simp only [Text.unlines_lines_around]
  rfl

section

variable {r : Request} {filePath provider : Text} {start stop target : Nat} {reply : Reply}

theorem patchOfReply_eq_error_iff {e : LocatorError} :
    patchOfReply r filePath provider start stop target reply = .error e ↔
      ∃ message, reply = .failure message ∧ e = .generator message := by
  cases reply with
  | failure message => simp [patchOfReply, eq_comm]
  | nothing => simp [patchOfReply]
  | text response =>
    cases hparse : Fallback.parse response with
    | error e' => simp [patchOfReply, hparse]
    | ok snippet =>
      rw [patchOfReply_of_parse r filePath provider start stop target hparse]
      split
      · simp
      · simp

/-- A patch is made of a reply with a snippet in it that changes the source. -/
theorem patchOfReply_eq_some_iff {p : Patch} :
    patchOfReply r filePath provider start stop target reply = .ok (some p) ↔
      ∃ response snippet, reply = .text response ∧ Fallback.parse response = .ok snippet ∧
        withSnippet r.sourceText start stop snippet ≠ r.sourceText ∧
        p = ⟨filePath, withSnippet r.sourceText start stop snippet, target, "fallback".toList,
          r.change.kind ++ ":fallback:".toList ++ provider⟩ := by
  cases reply with
  | failure message => simp [patchOfReply]
  | nothing => simp [patchOfReply]
  | text response =>
    cases hparse : Fallback.parse response with
    | error e => simp [patchOfReply, hparse]
    | ok snippet =>
      rw [patchOfReply_of_parse r filePath provider start stop target hparse]
      by_cases hsame : withSnippet r.sourceText start stop snippet = r.sourceText
      · simp [hsame, hparse]
      · rw [if_neg hsame]
        constructor
        · intro h
          cases h
          exact ⟨response, snippet, rfl, hparse, hsame, rfl⟩
        · intro h
          obtain ⟨response', snippet', hr, hp, -, rfl⟩ := h
          cases hr
          obtain rfl : snippet = snippet' := Except.ok.inj (hparse.symm.trans hp)
          rfl

end

/-- A reply with a text in it makes no patch iff there is no snippet in the text, or this is the window as it was.
A patch is the source with the snippet in the place of the window. -/
theorem patchOfReply_text (r : Request) (filePath provider : Text) {start stop : Nat} (target : Nat)
    (hlt : start < stop) (hle : stop ≤ (Text.lines r.sourceText).length) (response : Text) :
    (patchOfReply r filePath provider start stop target (.text response) = .ok none ↔
      ∀ snippet, Fallback.parse response = .ok snippet → snippet = windowText r.sourceText start stop) ∧
    ∀ p, patchOfReply r filePath provider start stop target (.text response) = .ok (some p) →
      ∃ snippet, Fallback.parse response = .ok snippet ∧ p.content = withSnippet r.sourceText start stop snippet := by
  constructor
  · cases hparse : Fallback.parse response with
    | error e => simp [patchOfReply, hparse]
    | ok snippet =>
      have hsame : withSnippet r.sourceText start stop snippet = r.sourceText ↔ _ := withSnippet_eq_iff hlt hle
      rw [patchOfReply_of_parse r filePath provider start stop target hparse]
      split
      · rename_i he
        simp [hsame.mp he]
      · rename_i he
        simp [mt hsame.mpr he]
  · intro p hp
    obtain ⟨response', snippet, hreply, hparse, -, rfl⟩ := patchOfReply_eq_some_iff.mp hp
    cases hreply
    exact ⟨snippet, hparse, rfl⟩

/-! ## The request -/

/-- The file may not be edited. -/
def Blocked (settings : Settings) (filePath : Text) : Prop :=
  Path.isBlocked filePath settings.blockedPathFragments settings.allowedPathFragments = true

theorem not_blocked_nil (settings : Settings) : ¬ Blocked settings [] := by
  unfold Blocked Path.isBlocked
  simp [Text.occurs]

/-- A request for a file that may be edited, on which the fast path ends without an error and without a change. -/
structure FastDeclines (settings : Settings) (project : Option Text) (r : Request) (filePath : Text) (fast : FastPath) :
    Prop where
  file : fileOf project r.filePath = .ok filePath
  allowed : filePath = [] ∨
    Path.isBlocked filePath settings.blockedPathFragments settings.allowedPathFragments = false
  ended : fastPath settings r = .ok fast
  unchanged : ∀ content, fast.edited = some content → content = r.sourceText

/-- What is known of an attempt whose fast path has declined. -/
def declinedAttempt (r : Request) (filePath : Text) (fast : FastPath) : Attempt :=
  { attemptFor r filePath with
    effectiveLine := fast.line, strategy := fast.strategy, detail := "fast path declined".toList }

variable {settings : Settings} {project : Option Text} {r : Request} {filePath : Text} {fast : FastPath}

theorem FastDeclines.not_blocked (h : FastDeclines settings project r filePath fast) : ¬ Blocked settings filePath := by
  rcases h.allowed with hnil | hb
  · rw [hnil]
    exact not_blocked_nil settings
  · exact Bool.eq_false_iff.mp hb

theorem locate_of_allowed (hfile : fileOf project r.filePath = .ok filePath) (hb : ¬ Blocked settings filePath)
    (generator : Option Generator) (calls : Nat) :
    locate settings project generator calls r = patch settings generator calls r (attemptFor r filePath) := by
  have hblocked : Path.isBlocked filePath settings.blockedPathFragments settings.allowedPathFragments = false :=
    Bool.eq_false_iff.mpr hb
  simp only [locate, hfile, hblocked, Bool.and_false, Bool.false_eq_true, if_false]

/-- A request on which the fast path declines goes on to the generator, if there is one. -/
theorem locate_of_fastDeclines (h : FastDeclines settings project r filePath fast) (generator : Option Generator)
    (calls : Nat) :
    locate settings project generator calls r =
      escalate settings generator calls r (declinedAttempt r filePath fast) := by
  have hchanged : fast.changed? r.sourceText = none := by
    rw [FastPath.changed?, Option.filter_eq_none_iff]
    intro content hc
    simp [h.unchanged content hc]
  rw [locate_of_allowed h.file h.not_blocked, patch, h.ended]
  simp only [hchanged]
  rfl

/-- The line around which a generator is asked: that of the fast path, or the reported one if the fast path gave
none. -/
def Targets (r : Request) (line : Option Nat) (target : Nat) : Prop :=
  line = some target ∨ line = none ∧ Line.clamp (Text.lines r.sourceText).length (lineValue r.reportedLine) = .ok target

/-- The window that a generator is shown after a fast path that gave the line `line`, and the prompt that shows it. -/
structure Shown (settings : Settings) (r : Request) (filePath : Text) (line : Option Nat) (start stop target : Nat)
    (p : Prompt) : Prop where
  targets : Targets r line target
  around : window settings (Text.lines r.sourceText).length target = (start, stop)
  inside : start < target ∧ target ≤ stop ∧ stop ≤ (Text.lines r.sourceText).length
  prompt : ∃ reliable, Line.isReliable settings (lineValue r.reportedLine) = .ok reliable ∧
    p = promptFor r filePath start stop target reliable

/-- There is such a window whenever the fast path ends without an error. -/
theorem shown_of_fastPath (h : fastPath settings r = .ok fast) (filePath : Text) :
    ∃ start stop target p, Shown settings r filePath fast.line start stop target p := by
  have hpos : 1 ≤ (Text.lines r.sourceText).length := List.length_pos_iff.mpr (Text.lines_ne_nil _)
  have htarget : ∃ target, Targets r fast.line target ∧ 1 ≤ target ∧ target ≤ (Text.lines r.sourceText).length := by
    cases hl : fast.line with
    | some n => exact ⟨n, .inl rfl, line_of_fastPath h hl⟩
    | none =>
      obtain ⟨target, ht⟩ := Line.clamp_of_readable (Text.lines r.sourceText).length (readable_of_fastPath h)
      exact ⟨target, .inr ⟨rfl, ht⟩, Line.clamp_bounds hpos ht⟩
  obtain ⟨target, ht, h1, h2⟩ := htarget
  obtain ⟨reliable, hr⟩ := Line.isReliable_of_readable settings (readable_of_fastPath h)
  exact ⟨_, _, target, _, ht, rfl, window_around settings h1 h2, reliable, hr, rfl⟩

/-- About a window the generator is asked once, and its reply is made a patch. -/
theorem ask_of_shown {line : Option Nat} {start stop target : Nat} {p : Prompt}
    (hs : Shown settings r filePath line start stop target p) (g : Generator) (calls : Nat) :
    ask settings g calls r filePath line =
      .ok ⟨patchOfReply r filePath g.provider start stop target (g.answer calls p), [p]⟩ := by
  obtain ⟨htarget, hw, hinside, reliable, hr, rfl⟩ := hs
  have hopen : ¬ stop ≤ start := by omega
  refine bind_eq_ok_iff.mpr ⟨reliable, hr, ?_⟩
  rcases htarget with rfl | ⟨rfl, hclamp⟩
  · refine bind_eq_ok_iff.mpr ⟨target, rfl, ?_⟩
    simp only [hw, hopen, if_false]
    rfl
  · refine bind_eq_ok_iff.mpr ⟨target, hclamp, ?_⟩
    simp only [hw, hopen, if_false]
    rfl

/-- How a request ends when a generator has been asked. -/
def answered (a : Attempt) (p : Prompt) : Except LocatorError (Option Patch) → Outcome
  | .error e => refuse a e [p]
  | .ok none => decline a [p]
  | .ok (some patch) => succeed a patch [p]

section

variable (a : Attempt) (p : Prompt) (result : Except LocatorError (Option Patch))

@[simp] theorem answered_result : (answered a p result).result = result := by
  rcases result with e | _ | patch
  · rfl
  · rfl
  · rfl

@[simp] theorem answered_prompts : (answered a p result).prompts = [p] := by
  rcases result with e | _ | patch
  · rfl
  · rfl
  · rfl

end

/-- When the fast path has declined and there is something to show, what the generator answers decides. -/
theorem locate_of_shown (h : FastDeclines settings project r filePath fast) {start stop target : Nat} {p : Prompt}
    (hs : Shown settings r filePath fast.line start stop target p) (g : Generator) (calls : Nat) :
    locate settings project (some g) calls r =
      answered (declinedAttempt r filePath fast) p
        (patchOfReply r filePath g.provider start stop target (g.answer calls p)) := by
  have hask : ask settings g calls r (declinedAttempt r filePath fast).filePath
      (declinedAttempt r filePath fast).effectiveLine = _ := ask_of_shown hs g calls
  rw [locate_of_fastDeclines h, escalate]
  simp only [hask]
  rcases patchOfReply r filePath g.provider start stop target (g.answer calls p) with e | _ | patch
  · rfl
  · rfl
  · rfl

/-- Then the generator is asked once, about a window around a line of the document. -/
theorem locate_asks (h : FastDeclines settings project r filePath fast) (g : Generator) (calls : Nat) :
    ∃ start stop target p, Shown settings r filePath fast.line start stop target p ∧
      (locate settings project (some g) calls r).prompts = [p] ∧
      (locate settings project (some g) calls r).result =
        patchOfReply r filePath g.provider start stop target (g.answer calls p) := by
  obtain ⟨start, stop, target, p, hs⟩ := shown_of_fastPath h.ended filePath
  rw [locate_of_shown h hs]
  exact ⟨start, stop, target, p, hs, answered_prompts _ _ _, answered_result _ _ _⟩

end LiveEdit
