/-
  LiveEdit.Proofs.Locator.Log — the log of a session tells what became of each request.

  However a request ends, it comes to one attempt, and the record of this attempt agrees with the outcome
  (`Ends.logs`). Whether the attempt can be written is a matter of its lines (`Attempt.isWritable_iff`). A session only
  adds to its log, so after any requests the log has such an attempt for each of them that can be written, in their
  order (`Session.log_of_run`). A request with too long a line leaves none, and what it led to is not known
  (`long_line_is_not_logged`).
-/

import Mathlib.Algebra.Group.Int.Defs
import LiveEdit.Proofs.Audit
import LiveEdit.Proofs.Locator.Ending

namespace LiveEdit

/-- An error of the locator. A line that is too large is an error of the arithmetic that it does. -/
def LocatorError.IsOwn (e : LocatorError) : Prop := e ≠ .edit .lineTooLarge

theorem LocatorError.detail_of_isOwn {e : LocatorError} (h : e.IsOwn) (before : Text) : e.detail before = e.message := by
  unfold detail
  split
  · exact absurd rfl h
  · rfl

/-! ## Records -/

namespace Audit.Record

/-- What a record tells of the patch that a request ended with. -/
structure TellsPatch (record : Record) (r : Request) (p : Patch) : Prop where
  file : record.filePath = .str p.filePath
  generator : record.generatedBy = .str p.generatedBy
  strategy : record.strategy = .str p.strategy
  detail : record.detail = .str []
  changed : p.content ≠ r.sourceText
  line : record.effectiveLine = .null ∨ record.effectiveLine = .int p.line

/-- Why there is no patch: the file may not be edited, and nobody is asked, or the fast path declined. -/
inductive TellsDecline (settings : Settings) (filePath : Text) (prompts : List Prompt) : Value → Prop
  | blocked (hb : Blocked settings filePath) (hasked : prompts = []) :
      TellsDecline settings filePath prompts (.str "blocked path".toList)
  | declined (hb : ¬ Blocked settings filePath) :
      TellsDecline settings filePath prompts (.str "fast path declined".toList)

/-- What a record tells of a request and its outcome. -/
structure Tells (record : Record) (settings : Settings) (project : Option Text) (r : Request) (outcome : Outcome) :
    Prop where
  file : ∃ filePath, fileOf project r.filePath = .ok filePath ∧ record.filePath = .str filePath
  kind : record.changeKind = .str r.change.kind
  reported : record.reportedLine = lineValue r.reportedLine
  success : ∃ b, record.success = .bool b ∧ (b = true ↔ ∃ p, outcome.result = .ok (some p))
  patched : ∀ p, outcome.result = .ok (some p) → record.TellsPatch r p
  declined : outcome.result = .ok none → record.generatedBy = .str [] ∧
    ∀ filePath, record.filePath = .str filePath → TellsDecline settings filePath outcome.prompts record.detail
  failed : ∀ e, outcome.result = .error e → record.generatedBy = .str [] ∧
    (e.IsOwn → record.detail = .str e.message) ∧ (¬ e.IsOwn → record.detail = .str [])

end Audit.Record

/-! ## One request -/

/-- The outcome comes to the attempt, and every record of it tells of the outcome. Its line is one of the document. -/
structure Logs (settings : Settings) (project : Option Text) (r : Request) (outcome : Outcome) (a : Attempt) : Prop where
  one : outcome.attempts = [a]
  tells : ∀ duration, (a.record duration).Tells settings project r outcome
  reported : a.reportedLine = r.reportedLine
  inside : ∀ n, a.effectiveLine = some n → n ≤ (Text.lines r.sourceText).length

/-- An attempt for a request of which no patch is known yet. -/
structure Attempt.Pending (a : Attempt) (r : Request) (filePath : Text) : Prop where
  path : a.filePath = filePath
  kind : a.kind = r.change.kind
  reported : a.reportedLine = r.reportedLine
  inside : ∀ n, a.effectiveLine = some n → n ≤ (Text.lines r.sourceText).length
  generator : a.generatedBy = []
  success : a.success = false

/-- Before the fast path has ended, nothing is known of the line. -/
theorem pending_attemptFor (r : Request) (filePath detail : Text) :
    { attemptFor r filePath with detail := detail }.Pending r filePath :=
  ⟨rfl, rfl, rfl, nofun, rfl, rfl⟩

/-- Then it is a line of the document. -/
theorem pending_of_fastPath {settings : Settings} {r : Request} {fast : FastPath} (h : fastPath settings r = .ok fast)
    (filePath detail : Text) :
    { attemptFor r filePath with effectiveLine := fast.line, strategy := fast.strategy, detail := detail }.Pending r
      filePath :=
  ⟨rfl, rfl, rfl, fun _ hn => (line_of_fastPath h hn).2, rfl, rfl⟩

variable {settings : Settings} {project : Option Text} {r : Request} {filePath : Text} {a : Attempt} {prompts : List Prompt}

theorem succeed_logs (ha : a.Pending r filePath) (hfile : fileOf project r.filePath = .ok filePath) {p : Patch}
    (hpath : p.filePath = filePath) (hne : p.content ≠ r.sourceText)
    (hline : ∀ n, a.effectiveLine = some n → p.line = n) :
    ∃ a', Logs settings project r (succeed a p prompts) a' := by
  refine ⟨_, rfl, ?_, ha.reported, ha.inside⟩
  intro duration
  refine ⟨⟨filePath, hfile, congrArg Value.str ha.path⟩, congrArg Value.str ha.kind, congrArg lineValue ha.reported,
    ⟨true, rfl, fun _ => ⟨p, rfl⟩, fun _ => rfl⟩, ?_, nofun, nofun⟩
  intro p' hp
  cases hp
  refine ⟨congrArg Value.str (ha.path.trans hpath.symm), rfl, rfl, rfl, hne, ?_⟩
  show (a.effectiveLine.map fun n => Value.int n).getD .null = .null ∨ _ = Value.int p.line
  cases hl : a.effectiveLine with
  | none => exact .inl rfl
  | some n => exact .inr (by rw [hline n hl]; rfl)

theorem decline_logs (ha : a.Pending r filePath) (hfile : fileOf project r.filePath = .ok filePath)
    (hdetail : Audit.Record.TellsDecline settings filePath prompts (.str a.detail)) :
    Logs settings project r (decline a prompts) a := by
  refine ⟨rfl, ?_, ha.reported, ha.inside⟩
  intro duration
  refine ⟨⟨filePath, hfile, congrArg Value.str ha.path⟩, congrArg Value.str ha.kind, congrArg lineValue ha.reported,
    ⟨false, congrArg Value.bool ha.success, nofun, nofun⟩, nofun, ?_, nofun⟩
  intro _
  refine ⟨congrArg Value.str ha.generator, ?_⟩
  intro filePath' hpath'
  obtain rfl : filePath = filePath' := Value.str.inj ((congrArg Value.str ha.path).symm.trans hpath')
  exact hdetail

/-- A line that is too large leaves the detail empty only when it is found before there is any. -/
theorem refuse_logs (ha : a.Pending r filePath) (hfile : fileOf project r.filePath = .ok filePath) {e : LocatorError}
    (hdetail : e.IsOwn ∨ a.detail = []) :
    ∃ a', Logs settings project r (refuse a e prompts) a' := by
  refine ⟨_, rfl, ?_, ha.reported, ha.inside⟩
  intro duration
  refine ⟨⟨filePath, hfile, congrArg Value.str ha.path⟩, congrArg Value.str ha.kind, congrArg lineValue ha.reported,
    ⟨false, congrArg Value.bool ha.success, nofun, nofun⟩, nofun, nofun, ?_⟩
  intro e' he
  cases he
  refine ⟨congrArg Value.str ha.generator, ?_, ?_⟩
  · intro hown
    exact congrArg Value.str (LocatorError.detail_of_isOwn hown a.detail)
  · intro hnot
    obtain rfl : e = .edit .lineTooLarge := Classical.not_not.mp hnot
    exact congrArg Value.str (hdetail.resolve_left hnot)

/-- However a request ends, it comes to an attempt that tells how. -/
theorem Ends.logs {generator : Option Generator} {calls : Nat} {outcome : Outcome}
    (h : Ends settings project generator calls r outcome) : ∃ a, Logs settings project r outcome a := by
  cases h with
  | blocked hfile hb => exact ⟨_, decline_logs (pending_attemptFor r _ _) hfile (.blocked hb rfl)⟩
  | failed hfile hb hfast => exact refuse_logs (pending_attemptFor r _ []) hfile (.inr rfl)
  | @edited filePath content fast hfile hb hfast hedit hne =>
    refine succeed_logs (pending_of_fastPath hfast filePath []) hfile rfl hne ?_
    intro n hn
    have hline : fast.line = some n := hn
    show fast.line.getD 0 = n
    rw [hline]
    rfl
  | alone hg h => exact ⟨_, decline_logs (pending_of_fastPath h.ended _ _) h.file (.declined h.not_blocked)⟩
  | @asked filePath fast g start stop target p hg h hs =>
    have ha : (declinedAttempt r filePath fast).Pending r filePath := pending_of_fastPath h.ended _ _
    cases hresult : patchOfReply r filePath g.provider start stop target (g.answer calls p) with
    | error e =>
      obtain ⟨message, -, rfl⟩ := patchOfReply_eq_error_iff.mp hresult
      exact refuse_logs ha h.file (.inl nofun)
    | ok result =>
      cases result with
      | none => exact ⟨_, decline_logs ha h.file (.declined h.not_blocked)⟩
      | some patch =>
        obtain ⟨response, snippet, -, -, hne, rfl⟩ := patchOfReply_eq_some_iff.mp hresult
        refine succeed_logs ha h.file rfl hne ?_
        intro n hn
        rcases hs.targets with ht | ⟨ht, -⟩
        · exact Option.some.inj (ht.symm.trans hn)
        · cases ht.symm.trans hn

/-! ## Writing -/

/-- What can be written of an attempt does not depend on how long it took. -/
theorem Attempt.line_record_iff (a : Attempt) (milliseconds : Double) :
    (∃ line, (a.record (.float milliseconds)).line = .ok line) ↔ a.isWritable = true := by
  have hsame : (a.record (.float milliseconds)).value.isWritable = a.isWritable := rfl
  rw [Audit.Record.line, hsame]
  split
  · rename_i h
    exact iff_of_true ⟨_, rfl⟩ h
  · rename_i h
    exact iff_of_false nofun h

/-- An attempt can be written if its lines can; all else in it are texts and truth values. -/
theorem Attempt.isWritable_iff (a : Attempt) : a.isWritable = true ↔ (lineValue a.reportedLine).isWritable = true ∧
    ∀ n : Nat, a.effectiveLine = some n → (Value.int n).isWritable = true := by
  have hline : ((a.effectiveLine.map fun n => Value.int n).getD .null).isWritable = true ↔
      ∀ n : Nat, a.effectiveLine = some n → (Value.int n).isWritable = true := by
    cases a.effectiveLine with
    | none => simp [Value.isWritable]
    | some n => exact ⟨fun h _ hn => Option.some.inj hn ▸ h, fun h => h n rfl⟩
  rw [isWritable, Audit.isWritable_value_iff, ← hline]
  simp only [Audit.Record.members, record, List.forall_mem_cons]
  constructor
  · rintro ⟨-, -, hreported, heffective, -⟩
    exact ⟨hreported, heffective⟩
  · rintro ⟨hreported, heffective⟩
    exact ⟨rfl, rfl, hreported, heffective, rfl, rfl, rfl, rfl, rfl, fun _ h => absurd h List.not_mem_nil⟩

/-- Of a document whose lines can be counted in writing, an attempt can be written iff the reported line can. -/
theorem Logs.isWritable_eq {outcome : Outcome} (h : Logs settings project r outcome a)
    (hshort : (Text.lines r.sourceText).length < Value.tooLong) :
    a.isWritable = (lineValue r.reportedLine).isWritable := by
  have hline : ∀ n : Nat, a.effectiveLine = some n → (Value.int n).isWritable = true := by
    intro n hn
    exact (Value.isWritable_natCast_iff n).mpr (Nat.lt_of_le_of_lt (h.inside n hn) hshort)
  rw [Bool.eq_iff_iff, Attempt.isWritable_iff, h.reported]
  exact and_iff_left hline

/-! ## A session -/

/-- What becomes of requests in a session, and the attempts that they leave in the log: one for each request whose
attempt can be written, and it tells of the outcome; none for the others, of which only the failure of the log is
known. -/
inductive Logged (settings : Settings) (project : Option Text) :
    List Request → List (Except Value.DigitError Outcome) → List Attempt → Prop
  | nil : Logged settings project [] [] []
  | logged {r : Request} {outcome : Outcome} {a : Attempt} {rs : List Request}
      {outcomes : List (Except Value.DigitError Outcome)} {attempts : List Attempt}
      (h : Logs settings project r outcome a) (hwritable : a.isWritable = true)
      (hrest : Logged settings project rs outcomes attempts) :
      Logged settings project (r :: rs) (.ok outcome :: outcomes) (a :: attempts)
  | lost {r : Request} {outcome : Outcome} {a : Attempt} {rs : List Request}
      {outcomes : List (Except Value.DigitError Outcome)} {attempts : List Attempt}
      (h : Logs settings project r outcome a) (hwritable : a.isWritable = false)
      (hrest : Logged settings project rs outcomes attempts) :
      Logged settings project (r :: rs) (.error .tooMany :: outcomes) attempts

section

variable {rs : List Request} {outcomes : List (Except Value.DigitError Outcome)} {attempts : List Attempt}

theorem Logged.length_le (h : Logged settings project rs outcomes attempts) : attempts.length ≤ rs.length := by
  induction h with
  | nil => exact Nat.le_refl 0
  | logged _ _ _ ih => exact Nat.succ_le_succ ih
  | lost _ _ _ ih => exact Nat.le_succ_of_le ih

/-- No attempt is missing in the log iff every reported line can be written. -/
theorem Logged.length_eq_iff (h : Logged settings project rs outcomes attempts)
    (hshort : ∀ r ∈ rs, (Text.lines r.sourceText).length < Value.tooLong) :
    attempts.length = rs.length ↔ ∀ r ∈ rs, (lineValue r.reportedLine).isWritable = true := by
  induction h with
  | nil => exact iff_of_true rfl nofun
  | logged ha hwritable hrest ih =>
    obtain ⟨hr, hrs⟩ := List.forall_mem_cons.mp hshort
    rw [ha.isWritable_eq hr] at hwritable
    rw [List.forall_mem_cons, and_iff_right hwritable, ← ih hrs]
    exact Nat.succ_inj
  | lost ha hwritable hrest ih =>
    obtain ⟨hr, -⟩ := List.forall_mem_cons.mp hshort
    rw [ha.isWritable_eq hr] at hwritable
    refine iff_of_false ?_ ?_
    · have hle := hrest.length_le
      rw [List.length_cons]
      omega
    · intro hall
      have hline := hall _ List.mem_cons_self
      rw [hwritable] at hline
      cases hline

end

/-- A request adds its attempt to the log if this can be written, and fails otherwise. -/
theorem Session.log_of_handle (s : Session) (r : Request) :
    ∃ outcome a, Logs s.settings s.project r outcome a ∧
      (s.handle r).1 = (if a.isWritable then .ok outcome else .error .tooMany) ∧
      (s.handle r).2.log = if a.isWritable then s.log ++ [a] else s.log := by
  obtain ⟨a, ha⟩ := (locate_ends s.settings s.project s.generator s.calls r).logs
  refine ⟨_, a, ha, ?_⟩
  simp only [handle, ha.one, List.all_cons, List.all_nil, Bool.and_true, and_self]

theorem Session.logged_of_run (s : Session) (rs : List Request) :
    ∃ attempts, (s.run rs).2.log = s.log ++ attempts ∧ Logged s.settings s.project rs (s.run rs).1 attempts := by
  induction rs generalizing s with
  | nil => exact ⟨[], (List.append_nil s.log).symm, .nil⟩
  | cons r rs ih =>
    obtain ⟨outcome, a, ha, hresult, hlog⟩ := s.log_of_handle r
    obtain ⟨attempts, hrest, hlogged⟩ := ih (s.handle r).2
    have houtcomes : (s.run (r :: rs)).1 = (s.handle r).1 :: ((s.handle r).2.run rs).1 := rfl
    have hwhole : (s.run (r :: rs)).2.log = ((s.handle r).2.run rs).2.log := rfl
    rw [houtcomes, hwhole, hrest, hresult, hlog]
    cases hwritable : a.isWritable with
    | true => exact ⟨a :: attempts, by simp, .logged ha hwritable hlogged⟩
    | false => exact ⟨attempts, rfl, .lost ha hwritable hlogged⟩

/-- Requests add to the log one attempt each, in their order, that tells what became of its request, as far as the
attempts can be written. If no document has more lines than can be counted in writing, an attempt is missing only for
reported lines that are too long. -/
theorem Session.log_of_run (s : Session) (rs : List Request) :
    ∃ attempts, (s.run rs).2.log = s.log ++ attempts ∧ Logged s.settings s.project rs (s.run rs).1 attempts ∧
      ((∀ r ∈ rs, (Text.lines r.sourceText).length < Value.tooLong) →
        (attempts.length = rs.length ↔ ∀ r ∈ rs, (lineValue r.reportedLine).isWritable = true)) := by
  obtain ⟨attempts, hlog, hlogged⟩ := s.logged_of_run rs
  exact ⟨attempts, hlog, hlogged, hlogged.length_eq_iff⟩

/-- Every way to end, one after the other: a blocked file, an element without a tag name, a line that is too large, an
edit, and a text that is not there, for which the generator fails, gives nothing, and gives a snippet. -/
theorem log_of_all_endings :
    let busy : Reply := .failure "busy".toList
    let g : Generator := {
      answer := fun calls _ => [busy, .nothing, .text "<p>Hey</p>".toList].getD calls .nothing }
    let s : Session := { settings := { blockedPathFragments := ["/lib/".toList] }, generator := some g }
    let paragraph (old : String) (line : Option ReportedLine) (path : String) : Request := {
      sourceText := "<p>Hi</p>".toList
      change := .text old.toList "Hey".toList
      reportedLine := line
      filePath := path.toList }
    let untagged : Request := { sourceText := [], change := .style [("color".toList, "red".toList)] }
    let rs := [paragraph "Hi" none "/lib/a.tsx", untagged, paragraph "Hi" (some (.int (2 ^ 1024))) "",
      paragraph "Hi" none "", paragraph "Bye" none "", paragraph "Bye" none "", paragraph "Bye" none ""]
    ∃ attempts, (s.run rs).2.log = attempts ∧ Logged s.settings none rs (s.run rs).1 attempts ∧
      attempts.length = rs.length ∧
      attempts.map Attempt.detail = ["blocked path".toList, "Element descriptor has no tag name".toList, [], [],
        "Fallback generator failed: busy".toList, "fast path declined".toList, []] ∧
      attempts.map Attempt.generatedBy = [[], [], [], "fast-path".toList, [], [], "fallback".toList] := by
  intro busy g s paragraph untagged rs
  obtain ⟨attempts, hlog, hlogged, hall⟩ := s.log_of_run rs
  obtain rfl : (s.run rs).2.log = attempts := hlog
  exact ⟨_, rfl, hlogged, (hall (by decide +kernel)).mpr (by decide +kernel), by decide +kernel, by decide +kernel⟩

/-- A line that is too long to be written. Without a log the request is refused, as for any line that is too large, and
comes to an attempt. With a log there is no record of it, and what the caller is told is that the log has failed. -/
theorem long_line_is_not_logged :
    let r : Request := {
      sourceText := "<p>Hi</p>".toList
      change := .text "Hi".toList "Hey".toList
      reportedLine := some (.int Value.tooLong) }
    let s : Session := {}
    (s.run [r]).1 = [.error .tooMany] ∧ (s.run [r]).2.log = [] ∧
      (locate s.settings s.project s.generator s.calls r).result = .error (.edit .lineTooLarge) ∧
      (locate s.settings s.project s.generator s.calls r).attempts.length = 1 := by
  intro r s
  obtain ⟨outcome, a, ha, hresult, hlog⟩ := s.log_of_handle r
  have hwritable : a.isWritable = false := by
    rw [ha.isWritable_eq (by decide +kernel)]
    exact Value.isWritable_tooLong
  rw [hwritable] at hresult hlog
  exact ⟨congrArg (· :: []) hresult, hlog, by decide +kernel, by decide +kernel⟩

end LiveEdit
