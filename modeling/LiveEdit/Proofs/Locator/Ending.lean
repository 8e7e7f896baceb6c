/-
  LiveEdit.Proofs.Locator.Ending — the ways in which a request ends.

  The file of a request is always found. It is blocked, or the fast path fails or edits, or it declines; then the
  generator is asked about a window of the source, if there is one. `Ends` lists these ways with all that is known
  in each, and every request ends in one of them (`locate_ends`).
-/

import LiveEdit.Proofs.Locator.Escalation

namespace LiveEdit

/-! ## The file -/

/-- Only a relative path without a project has no file, and such a path is not resolved. -/
theorem fileOf_eq_ok (project : Option Text) (path : Text) : ∃ filePath, fileOf project path = .ok filePath := by
  unfold fileOf
  split
  · exact ⟨path, rfl⟩
  · rename_i hrel
    unfold Path.resolve
    by_cases habs : Path.isAbsolute path = true
    · exact ⟨path, by rw [if_pos habs]⟩
    · rw [if_neg habs]
      rcases project with _ | _ | ⟨c, root⟩
      · simp [habs] at hrel
      · simp [habs] at hrel
      · exact ⟨_, rfl⟩

/-! ## The request -/

variable {settings : Settings} {project : Option Text} {r : Request} {filePath : Text} {fast : FastPath}

theorem locate_of_blocked (hfile : fileOf project r.filePath = .ok filePath) (hb : Blocked settings filePath)
    (generator : Option Generator) (calls : Nat) :
    locate settings project generator calls r =
      decline { attemptFor r filePath with detail := "blocked path".toList } [] := by
  have hne : filePath.isEmpty = false := by
    cases filePath with
    | nil => exact absurd hb (not_blocked_nil settings)
    | cons c t => rfl
  have hblocked : Path.isBlocked filePath settings.blockedPathFragments settings.allowedPathFragments = true := hb
  simp only [locate, hfile, hne, hblocked, Bool.not_false, Bool.and_self, if_true]

theorem locate_of_error (hfile : fileOf project r.filePath = .ok filePath) (hb : ¬ Blocked settings filePath)
    {e : EditError} (hfast : fastPath settings r = .error e) (generator : Option Generator) (calls : Nat) :
    locate settings project generator calls r = refuse (attemptFor r filePath) (.edit e) [] := by
  rw [locate_of_allowed hfile hb, patch, hfast]

/-- The patch of a fast path that gave another text. -/
def fastPatch (filePath : Text) (fast : FastPath) (content : Text) : Patch :=
  ⟨filePath, content, fast.line.getD 0, "fast-path".toList, fast.strategy⟩

theorem locate_of_edited (hfile : fileOf project r.filePath = .ok filePath) (hb : ¬ Blocked settings filePath)
    (hfast : fastPath settings r = .ok fast) {content : Text} (hedit : fast.edited = some content)
    (hne : content ≠ r.sourceText) (generator : Option Generator) (calls : Nat) :
    locate settings project generator calls r =
      succeed { attemptFor r filePath with effectiveLine := fast.line, strategy := fast.strategy }
        (fastPatch filePath fast content) [] := by
  have hchanged : fast.changed? r.sourceText = some content := by
    simp [FastPath.changed?, hedit, hne]
  rw [locate_of_allowed hfile hb, patch, hfast]
  simp only [hchanged]
  rfl

/-- The outcomes of a request. -/
inductive Ends (settings : Settings) (project : Option Text) (generator : Option Generator) (calls : Nat)
    (r : Request) : Outcome → Prop
  | blocked {filePath : Text} (hfile : fileOf project r.filePath = .ok filePath) (hb : Blocked settings filePath) :
      Ends settings project generator calls r
        (decline { attemptFor r filePath with detail := "blocked path".toList } [])
  | failed {filePath : Text} {e : EditError} (hfile : fileOf project r.filePath = .ok filePath)
      (hb : ¬ Blocked settings filePath) (hfast : fastPath settings r = .error e) :
      Ends settings project generator calls r (refuse (attemptFor r filePath) (.edit e) [])
  | edited {filePath content : Text} {fast : FastPath} (hfile : fileOf project r.filePath = .ok filePath)
      (hb : ¬ Blocked settings filePath) (hfast : fastPath settings r = .ok fast)
      (hedit : fast.edited = some content) (hne : content ≠ r.sourceText) :
      Ends settings project generator calls r
        (succeed { attemptFor r filePath with effectiveLine := fast.line, strategy := fast.strategy }
          (fastPatch filePath fast content) [])
  | alone {filePath : Text} {fast : FastPath} (hg : generator = none)
      (h : FastDeclines settings project r filePath fast) :
      Ends settings project generator calls r (decline (declinedAttempt r filePath fast) [])
  | asked {filePath : Text} {fast : FastPath} {g : Generator} {start stop target : Nat} {p : Prompt}
      (hg : generator = some g) (h : FastDeclines settings project r filePath fast)
      (hs : Shown settings r filePath fast.line start stop target p) :
      Ends settings project generator calls r
        (answered (declinedAttempt r filePath fast) p
          (patchOfReply r filePath g.provider start stop target (g.answer calls p)))

theorem locate_ends (settings : Settings) (project : Option Text) (generator : Option Generator) (calls : Nat)
    (r : Request) : Ends settings project generator calls r (locate settings project generator calls r) := by
  obtain ⟨filePath, hfile⟩ := fileOf_eq_ok project r.filePath
  by_cases hb : Blocked settings filePath
  · rw [locate_of_blocked hfile hb]
    exact .blocked hfile hb
  cases hfast : fastPath settings r with
  | error e =>
    rw [locate_of_error hfile hb hfast]
    exact .failed hfile hb hfast
  | ok fast =>
    by_cases hedit : ∃ content, fast.edited = some content ∧ content ≠ r.sourceText
    · obtain ⟨content, hedit, hne⟩ := hedit
      rw [locate_of_edited hfile hb hfast hedit hne]
      exact .edited hfile hb hfast hedit hne
    · have hdeclines : FastDeclines settings project r filePath fast := by
        refine ⟨hfile, .inr (Bool.eq_false_iff.mpr hb), hfast, ?_⟩
        intro content hc
        by_cases he : content = r.sourceText
        · exact he
        · exact absurd ⟨content, hc, he⟩ hedit
      cases generator with
      | none =>
        rw [locate_of_fastDeclines hdeclines]
        exact .alone rfl hdeclines
      | some g =>
        obtain ⟨start, stop, target, p, hs⟩ := shown_of_fastPath hfast filePath
        rw [locate_of_shown hdeclines hs]
        exact .asked rfl hdeclines hs

end LiveEdit
