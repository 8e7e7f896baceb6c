/-
  LiveEdit.Proofs.Locator.Refusal — which requests end with an error, and with which.

  A line that can be read leads to a line of the document in every step of the fast path, and a text edit needs nothing
  else. An edit of a tag needs the tag's name (`fastPath_eq_error_iff`). Behind the fast path only the generator may
  fail (`Ends.result_eq_error_iff`), so these two are all the errors that there are (`locate_refuses_iff`).
-/

import LiveEdit.Proofs.Edit.UniqueCandidate
import LiveEdit.Proofs.Locator.Prompted

namespace LiveEdit

/-! ## Edits of a tag -/

theorem Candidate.locate_eq_error_iff {settings : Settings} {lines : List Text} {line : Nat} {element : Element}
    {e : EditError} :
    Candidate.locate settings lines (.ok line) element = .error e ↔ e = .missingTagName ∧ element.tagName = [] := by
  by_cases htag : element.tagName = []
  · have hlower : Text.lower element.tagName = [] := (Candidate.lower_eq_nil_iff _).mpr htag
    have hmissing : Candidate.locate settings lines (.ok line) element = .error .missingTagName := by
      unfold Candidate.locate
      simp only [hlower, List.isEmpty_nil, if_true]
    rw [hmissing, Except.error.injEq, eq_comm]
    simp [htag]
  · rw [Candidate.locate_ok settings lines line htag]
    simp [htag]

theorem TagEdit.apply_eq_error_iff {settings : Settings} {content : Text} {line : Nat} {element : Element}
    {edit : Markup.OpeningTag → Option TagEdit} {e : EditError} :
    TagEdit.apply settings content (.ok line) element edit = .error e ↔
      e = .missingTagName ∧ element.tagName = [] := by
  unfold TagEdit.apply
  rw [map_eq_error_iff, Candidate.locate_eq_error_iff]

/-- Changes that are made in the element's tag. A style change without properties is none. -/
def NeedsTag : Change → Prop
  | .text .. => False
  | .style css => css ≠ []
  | .attribute .. => True

/-! ## The fast path -/

section

variable {settings : Settings} {r : Request}

theorem Derivation.effectiveLine_of_readable (settings : Settings) (lines : List Text) (element : Element)
    (h : Line.Readable r.reportedLine) :
    ∃ line, Derivation.effectiveLine settings lines (lineValue r.reportedLine) element = .ok line := by
  refine exists_bind_ok (Line.isReliable_of_readable settings h) fun reliable => ?_
  split
  · exact Line.clamp_of_readable _ h
  · exact ⟨_, rfl⟩

theorem TextEdit.apply_of_readable (settings : Settings) (old new : Text) (h : Line.Readable r.reportedLine) :
    ∃ edited, TextEdit.apply settings r.sourceText old new (lineValue r.reportedLine) = .ok edited := by
  have hwindow : ∃ line, TextEdit.windowLine? r.sourceText (lineValue r.reportedLine) = .ok line := by
    refine exists_bind_ok (Line.isUsable_of_readable h) fun usable => ?_
    split
    · obtain ⟨n, hn⟩ := Line.clamp_of_readable (Text.lines r.sourceText).length h
      exact ⟨some n, map_eq_ok_iff.mpr ⟨n, hn, rfl⟩⟩
    · exact ⟨none, rfl⟩
  obtain ⟨line, hline⟩ := hwindow
  unfold TextEdit.apply
  split
  · exact ⟨none, rfl⟩
  · exact ⟨_, map_eq_ok_iff.mpr ⟨line, hline, rfl⟩⟩

theorem fastText_of_readable (settings : Settings) (old new : Text) (h : Line.Readable r.reportedLine) :
    ∃ fast, fastText settings r old new = .ok fast := by
  refine exists_bind_ok (TextEdit.apply_of_readable settings old new h) fun edited => exists_bind_ok ?_ fun kept => ?_
  · split
    · exact ⟨true, rfl⟩
    · exact Line.isReliable_of_readable settings h
  · split
    · split
      · obtain ⟨n, hn⟩ := Line.clamp_of_readable (Text.lines r.sourceText).length h
        exact exists_bind_ok ⟨some n, map_eq_ok_iff.mpr ⟨n, hn, rfl⟩⟩ fun line => ⟨_, rfl⟩
      · exact ⟨_, rfl⟩
    · split
      · exact ⟨_, rfl⟩
      · exact ⟨_, rfl⟩

/-- Of a fast path for a tag only the edit itself may fail. -/
theorem fastTag_eq_error_iff {edit : Except EditError Nat → Except EditError (Option Text)} {e : EditError}
    (h : Line.Readable r.reportedLine) {p : Prop} (hedit : ∀ line, edit (.ok line) = .error e ↔ p) :
    fastTag settings r edit = .error e ↔ p := by
  obtain ⟨line, hline⟩ := Derivation.effectiveLine_of_readable settings (Text.lines r.sourceText) r.element h
  obtain ⟨reliable, hreliable⟩ := Line.isReliable_of_readable settings h
  have hfast : fastTag settings r edit = (edit (.ok line)).map fun edited =>
      ⟨edited, fastStrategy r.change (if reliable then .reported else .derived), some line⟩ := by
    rw [fastTag, hline, hreliable]
    rfl
  rw [hfast, map_eq_error_iff]
  exact hedit line

/-- A fast path fails just when a tag is to be edited and the tag has no name. -/
theorem fastPath_eq_error_iff (h : Line.Readable r.reportedLine) {e : EditError} :
    fastPath settings r = .error e ↔ e = .missingTagName ∧ r.element.tagName = [] ∧ NeedsTag r.change := by
  unfold fastPath
  rcases r.change with ⟨old, new⟩ | css | ⟨name, new, old⟩
  · obtain ⟨fast, hfast⟩ := fastText_of_readable settings old new h
    simp [hfast, NeedsTag]
  · refine fastTag_eq_error_iff h fun line => ?_
    unfold StyleEdit.apply
    cases css with
    | nil => simp [NeedsTag]
    | cons change css => simp [NeedsTag, TagEdit.apply_eq_error_iff]
  · refine fastTag_eq_error_iff h fun line => ?_
    simp [NeedsTag, AttributeEdit.apply, TagEdit.apply_eq_error_iff]

end

/-! ## The request -/

variable {settings : Settings} {project : Option Text} {generator : Option Generator} {calls : Nat} {r : Request}
  {outcome : Outcome}

/-- The file of the request is not blocked. -/
def Allowed (settings : Settings) (project : Option Text) (r : Request) : Prop :=
  ∃ filePath, fileOf project r.filePath = .ok filePath ∧ ¬ Blocked settings filePath

/-- A request ends with an error if the fast path does, or if the generator fails on a prompt that it is given. -/
theorem Ends.result_eq_error_iff (h : Ends settings project generator calls r outcome) {e : LocatorError} :
    outcome.result = .error e ↔
      (∃ e', e = .edit e' ∧ Allowed settings project r ∧ fastPath settings r = .error e') ∨
      ∃ message, e = .generator message ∧
        ∃ g, generator = some g ∧ ∃ p ∈ outcome.prompts, g.answer calls p = .failure message := by
  cases h with
  | blocked hfile hb =>
    refine ⟨nofun, fun h => ?_⟩
    rcases h with ⟨e', -, ⟨filePath, hfile', hallowed⟩, -⟩ | ⟨message, -, g, -, p, hp, -⟩
    · cases hfile.symm.trans hfile'
      exact absurd hb hallowed
    · cases hp
  | failed hfile hb hfast =>
    constructor
    · intro h
      cases h
      exact .inl ⟨_, rfl, ⟨_, hfile, hb⟩, hfast⟩
    · intro h
      rcases h with ⟨e', rfl, -, hfast'⟩ | ⟨message, -, g, -, p, hp, -⟩
      · cases hfast.symm.trans hfast'
        rfl
      · cases hp
  | edited hfile hb hfast hedit hne =>
    refine ⟨nofun, fun h => ?_⟩
    rcases h with ⟨e', -, -, hfast'⟩ | ⟨message, -, g, -, p, hp, -⟩
    · cases hfast.symm.trans hfast'
    · cases hp
  | alone hg h =>
    refine ⟨nofun, fun h' => ?_⟩
    rcases h' with ⟨e', -, -, hfast'⟩ | ⟨message, -, g, -, p, hp, -⟩
    · cases h.ended.symm.trans hfast'
    · cases hp
  | asked hg h hs =>
    rw [answered_result, answered_prompts, patchOfReply_eq_error_iff]
    constructor
    · intro h'
      obtain ⟨message, hreply, rfl⟩ := h'
      exact .inr ⟨message, rfl, _, hg, _, List.mem_singleton.mpr rfl, hreply⟩
    · intro h'
      rcases h' with ⟨e', -, -, hfast'⟩ | ⟨message, rfl, g', hg', p', hp', hreply⟩
      · cases h.ended.symm.trans hfast'
      · cases hg.symm.trans hg'
        cases List.mem_singleton.mp hp'
        exact ⟨message, hreply, rfl⟩

/-- A request with a line that can be read is refused just when its file is not blocked, it is about a tag and the tag
has no name; and the generator's failure is reported just when it was asked and failed. There is no other error. -/
theorem locate_refuses_iff (settings : Settings) (project : Option Text) (generator : Option Generator) (calls : Nat)
    (r : Request) (hline : Line.Readable r.reportedLine) :
    let outcome := locate settings project generator calls r
    (outcome.result = .error (.edit .missingTagName) ↔
      Allowed settings project r ∧ r.element.tagName = [] ∧ NeedsTag r.change) ∧
    (∀ message, outcome.result = .error (.generator message) ↔
      ∃ g, generator = some g ∧ ∃ p ∈ outcome.prompts, g.answer calls p = .failure message) ∧
    ∀ e, outcome.result = .error e → e = .edit .missingTagName ∨ ∃ message, e = .generator message := by
  intro outcome
  have hends : Ends settings project generator calls r outcome := locate_ends settings project generator calls r
  refine ⟨?_, fun message => ?_, fun e he => ?_⟩
  · rw [hends.result_eq_error_iff]
    simp [fastPath_eq_error_iff hline]
  · rw [hends.result_eq_error_iff]
    simp
  · rcases hends.result_eq_error_iff.mp he with ⟨e', rfl, -, hfast⟩ | ⟨message, rfl, -⟩
    · exact .inl (by rw [((fastPath_eq_error_iff hline).mp hfast).1])
    · exact .inr ⟨message, rfl⟩

/-- A style change for an element without a tag name is refused before the generator is asked; without properties it
goes to the generator, whose failure is reported. -/
theorem style_without_tag_is_refused :
    let failing : Generator := { answer := fun _ _ => .failure "no quota".toList }
    let request (css : Assoc Text) : Request :=
      { sourceText := "<p>Hi</p>".toList, change := .style css, reportedLine := some (.int 1) }
    (∀ css, Line.Readable (request css).reportedLine) ∧
      (locate {} none (some failing) 0 (request [("color".toList, "red".toList)])).result =
        .error (.edit .missingTagName) ∧
      (locate {} none (some failing) 0 (request [])).result = .error (.generator "no quota".toList) ∧
      (locate {} none (some failing) 0 (request [])).prompts ≠ [] := by
  intro failing request
  have hline : ∀ css, Line.Readable (request css).reportedLine := fun css => ⟨_, rfl⟩
  obtain ⟨htag, -, -⟩ :=
    locate_refuses_iff {} none (some failing) 0 (request [("color".toList, "red".toList)]) (hline _)
  obtain ⟨-, hgenerator, -⟩ := locate_refuses_iff {} none (some failing) 0 (request []) (hline _)
  have hfails : (locate {} none (some failing) 0 (request [])).result = .error (.generator "no quota".toList) := by rfl
  obtain ⟨g, -, p, hp, -⟩ := (hgenerator _).mp hfails
  have hallowed : ∀ css, Allowed {} none (request css) := fun css => ⟨[], rfl, not_blocked_nil _⟩
  exact ⟨hline, htag.mpr ⟨hallowed _, rfl, List.cons_ne_nil _ _⟩, hfails, List.ne_nil_of_mem hp⟩

end LiveEdit
