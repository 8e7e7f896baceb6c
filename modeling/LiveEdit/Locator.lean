/-
  LiveEdit.Locator — from a request to a patch: the fast path, then a generator if there is one.

  The fast path edits the source by the evidence in it. When it declines, the generator is shown a window of
  the source and asked for the window as it should be. Every request that gets this far comes to one attempt,
  whatever came of it. `locate` is this for a locator without a log; a `Session` also logs its attempts, which
  fails where an attempt cannot be written.
-/

import LiveEdit.Audit
import LiveEdit.Derivation
import LiveEdit.Edit.AttributeEdit
import LiveEdit.Edit.StyleEdit
import LiveEdit.Edit.TextEdit
import LiveEdit.Fallback.Prompt
import LiveEdit.Fallback.Response
import LiveEdit.Path

namespace LiveEdit

/-! ## Generator -/

structure Prompt where
  system : Text
  user : Text
  deriving DecidableEq

/-- What a generator answers: a text, nothing, or a failure with its message. An answer of another type, and an
interruption that is no failure of the generator and passes through the locator, do not belong to its interface and
are left out. -/
inductive Reply where
  | text (t : Text)
  | nothing
  | failure (message : Text)
  deriving DecidableEq

/-- A generator of snippets. Its answer may depend on how many calls there were before. -/
structure Generator where
  provider : Text := "unknown".toList
  answer : Nat → Prompt → Reply

/-! ## Outcome -/

structure Patch where
  filePath : Text
  content : Text
  /-- The line the patch was made around, 0 if there is none. -/
  line : Nat
  generatedBy : Text
  strategy : Text
  deriving DecidableEq

inductive LocatorError where
  | path (e : PathError)
  | edit (e : EditError)
  | generator (message : Text)
  deriving DecidableEq

def LocatorError.message : LocatorError → Text
  | .path e => e.message
  | .edit e => e.message
  | .generator message => "Fallback generator failed: ".toList ++ message

/-- An attempt as it goes into the log. -/
structure Attempt where
  filePath : Text
  kind : Text
  reportedLine : Option ReportedLine
  effectiveLine : Option Nat
  strategy : Text
  generatedBy : Text
  success : Bool
  detail : Text
  deriving DecidableEq

/-- The record of an attempt that took `duration`. -/
def Attempt.record (a : Attempt) (duration : Value) : Audit.Record where
  filePath := .str a.filePath
  changeKind := .str a.kind
  reportedLine := lineValue a.reportedLine
  effectiveLine := (a.effectiveLine.map fun n => Value.int n).getD .null
  strategy := .str a.strategy
  generatedBy := .str a.generatedBy
  success := .bool a.success
  duration := duration
  detail := .str a.detail

/-- What one request leads to: a patch, none, or an error; the attempts for the log; and the prompts that the generator
is given. -/
structure Outcome where
  result : Except LocatorError (Option Patch)
  attempts : List Attempt := []
  prompts : List Prompt := []

/-! ## Fast path -/

/-- Where the line of an edit comes from. -/
inductive LineSource where
  | reported
  | derived
  deriving DecidableEq

def LineSource.name : LineSource → Text
  | .reported => "reported-line".toList
  | .derived => "derived-line".toList

structure FastPath where
  edited : Option Text
  strategy : Text
  line : Option Nat
  deriving DecidableEq

def fastStrategy (change : Change) (source : LineSource) : Text := change.kind ++ ':' :: source.name

/-- A text is looked for around the reported line. If that fails and the line is not reliable, it is looked
for around its first place in markup. -/
def fastText (settings : Settings) (r : Request) (old new : Text) : Except EditError FastPath := do
  let lines := Text.lines r.sourceText
  let reported := lineValue r.reportedLine
  let edited ← TextEdit.apply settings r.sourceText old new reported
  if ← (if edited.isSome then .ok true else Line.isReliable settings reported) then
    let line ← match r.reportedLine with
      | some _ => some <$> Line.clamp lines.length reported
      | none => .ok none
    return ⟨edited, fastStrategy r.change .reported, line⟩
  else
    match Derivation.textLine? lines old with
    | none => return ⟨none, fastStrategy r.change .derived, none⟩
    | some line =>
      return ⟨TextEdit.atLine? settings r.sourceText old new (some line), fastStrategy r.change .derived,
        some line⟩

/-- A tag is looked for around the reported line if that is reliable, and around its derived line if not. -/
def fastTag (settings : Settings) (r : Request)
    (edit : Except EditError Nat → Except EditError (Option Text)) : Except EditError FastPath := do
  let reported := lineValue r.reportedLine
  let line ← Derivation.effectiveLine settings (Text.lines r.sourceText) reported r.element
  let source := if ← Line.isReliable settings reported then LineSource.reported else .derived
  let edited ← edit (.ok line)
  return ⟨edited, fastStrategy r.change source, some line⟩

def fastPath (settings : Settings) (r : Request) : Except EditError FastPath :=
  match r.change with
  | .text old new => fastText settings r old new
  | .style css =>
    fastTag settings r fun line => StyleEdit.apply settings r.sourceText line r.element css
  | .attribute name new _ =>
    fastTag settings r fun line => AttributeEdit.apply settings r.sourceText line r.element name new

/-! ## Fallback -/

/-- What came of asking the generator. -/
structure Asked where
  result : Except LocatorError (Option Patch)
  prompts : List Prompt

/-- The window of the source that the generator is shown, as the count of lines before it and the count up to
its end. -/
def window (settings : Settings) (lineCount target : Nat) : Nat × Nat :=
  let (start, stop) := Fallback.snippetWindow lineCount target settings.fallbackContextLines.val
  (start.toNat, stop.toNat)

def promptFor (r : Request) (filePath : Text) (start stop target : Nat) (reliable : Bool) : Prompt where
  system := Fallback.systemPrompt
  user := (Fallback.Brief.ofLines (Text.lines r.sourceText) start stop target reliable r.element r.change
    filePath).prompt

/-- The patch that a reply makes of the window. A reply without a usable snippet makes none, nor does one that
changes nothing. -/
def patchOfReply (r : Request) (filePath provider : Text) (start stop target : Nat) :
    Reply → Except LocatorError (Option Patch)
  | .failure message => .error (.generator message)
  | .nothing => .ok none
  | .text response =>
    match Fallback.parse response with
    | .error _ => .ok none
    | .ok snippet =>
      let lines := Text.lines r.sourceText
      let content := Text.unlines (lines.take start ++ Text.lines snippet ++ lines.drop stop)
      if content = r.sourceText then .ok none
      else
        .ok (some {
          filePath := filePath
          content := content
          line := target
          generatedBy := "fallback".toList
          strategy := r.change.kind ++ ":fallback:".toList ++ provider })

/-- Asks the generator about the window around the line of the fast path, or around the reported line. -/
def ask (settings : Settings) (generator : Generator) (calls : Nat) (r : Request) (filePath : Text)
    (line : Option Nat) : Except EditError Asked := do
  let lines := Text.lines r.sourceText
  let reported := lineValue r.reportedLine
  let reliable ← Line.isReliable settings reported
  let target ← match line with
    | some n => .ok n
    | none => Line.clamp lines.length reported
  let (start, stop) := window settings lines.length target
  if stop ≤ start then return ⟨.ok none, []⟩
  else
    let prompt := promptFor r filePath start stop target reliable
    return ⟨patchOfReply r filePath generator.provider start stop target (generator.answer calls prompt),
      [prompt]⟩

/-! ## Request -/

/-- The file of a request. Without a project a relative path stays as it is. -/
def fileOf (project : Option Text) (path : Text) : Except PathError Text :=
  if path.isEmpty || !((project.any fun p => !p.isEmpty) || Path.isAbsolute path) then .ok path
  else Path.resolve project path

/-- The detail of an attempt that an error ends. A line that is too large leaves it as it was. -/
def LocatorError.detail (before : Text) : LocatorError → Text
  | .edit .lineTooLarge => before
  | e => e.message

/-- What is known of an attempt before it has been tried. -/
def attemptFor (r : Request) (filePath : Text) : Attempt where
  filePath := filePath
  kind := r.change.kind
  reportedLine := r.reportedLine
  effectiveLine := none
  strategy := []
  generatedBy := []
  success := false
  detail := []

/-- A request that ends with a patch. -/
def succeed (a : Attempt) (p : Patch) (prompts : List Prompt) : Outcome where
  result := .ok (some p)
  attempts :=
    [{ a with strategy := p.strategy, generatedBy := p.generatedBy, success := true, detail := [] }]
  prompts := prompts

/-- A request that ends without a patch. -/
def decline (a : Attempt) (prompts : List Prompt) : Outcome where
  result := .ok none
  attempts := [a]
  prompts := prompts

/-- A request that ends with an error. -/
def refuse (a : Attempt) (e : LocatorError) (prompts : List Prompt) : Outcome where
  result := .error e
  attempts := [{ a with detail := e.detail a.detail }]
  prompts := prompts

/-- What happens when the fast path has declined. -/
def escalate (settings : Settings) (generator : Option Generator) (calls : Nat) (r : Request) (a : Attempt) :
    Outcome :=
  match generator with
  | none => decline a []
  | some g =>
    match ask settings g calls r a.filePath a.effectiveLine with
    | .error e => refuse a (.edit e) []
    | .ok ⟨.error e, prompts⟩ => refuse a e prompts
    | .ok ⟨.ok none, prompts⟩ => decline a prompts
    | .ok ⟨.ok (some p), prompts⟩ => succeed a p prompts

/-- An edited text that differs from the source. -/
def FastPath.changed? (fast : FastPath) (source : Text) : Option Text :=
  fast.edited.filter fun content => decide (content ≠ source)

/-- Tries the fast path and escalates if it declines. -/
def patch (settings : Settings) (generator : Option Generator) (calls : Nat) (r : Request) (a : Attempt) :
    Outcome :=
  match fastPath settings r with
  | .error e => refuse a (.edit e) []
  | .ok fast =>
    let tried := { a with effectiveLine := fast.line, strategy := fast.strategy }
    match fast.changed? r.sourceText with
    | some content =>
      succeed tried
        { filePath := a.filePath
          content := content
          line := fast.line.getD 0
          generatedBy := "fast-path".toList
          strategy := fast.strategy } []
    | none =>
      escalate settings generator calls r { tried with detail := "fast path declined".toList }

/-- Handles one request without a log; `calls` tells how often the generator has been asked before. -/
def locate (settings : Settings) (project : Option Text) (generator : Option Generator) (calls : Nat)
    (r : Request) : Outcome :=
  match fileOf project r.filePath with
  | .error e => { result := .error (.path e) }
  | .ok filePath =>
    let a := attemptFor r filePath
    if !filePath.isEmpty && Path.isBlocked filePath settings.blockedPathFragments settings.allowedPathFragments
    then decline { a with detail := "blocked path".toList } []
    else patch settings generator calls r a

/-! ## Session -/

/-- A locator at work: how it is set up, how often it has asked its generator, and its log. -/
structure Session where
  settings : Settings := {}
  project : Option Text := none
  generator : Option Generator := none
  calls : Nat := 0
  log : List Attempt := []

/-- The attempt can be logged. How long it took is a number that can be written, whatever it is. -/
def Attempt.isWritable (a : Attempt) : Bool := (a.record .null).value.isWritable

namespace Session

/-- Handles one request and logs its attempt, which is the last thing to be done. If the attempt cannot be written, the
log stays as it is, and the error of the log takes the place of what the request has led to. -/
def handle (s : Session) (r : Request) : Except Value.DigitError Outcome × Session :=
  let outcome := locate s.settings s.project s.generator s.calls r
  let written := outcome.attempts.all Attempt.isWritable
  (if written then .ok outcome else .error .tooMany,
    { s with
      calls := s.calls + outcome.prompts.length
      log := if written then s.log ++ outcome.attempts else s.log })

/-- Handles requests one after the other. -/
def run (s : Session) : List Request → List (Except Value.DigitError Outcome) × Session
  | [] => ([], s)
  | r :: rs =>
    let (outcome, next) := s.handle r
    let (outcomes, last) := next.run rs
    (outcome :: outcomes, last)

end Session

end LiveEdit
