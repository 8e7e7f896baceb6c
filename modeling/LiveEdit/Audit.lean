/-
  LiveEdit.Audit — the log of attempts, one line of JSON for each.

  There is no log before the first record. A record with an integer that is too long to be written has no line; the
  log is opened for it all the same, so it exists from then on. Reading gives back one mapping for each line that is
  not blank.
-/

import LiveEdit.Json.Reader
import LiveEdit.Json.Writer

namespace LiveEdit.Audit

/-- What is kept of an attempt. -/
structure Record where
  filePath : Value
  changeKind : Value
  reportedLine : Value
  effectiveLine : Value
  strategy : Value
  generatedBy : Value
  success : Value
  duration : Value
  detail : Value := .str []

def Record.value (r : Record) : Value := .map [
  ("file_path".toList, r.filePath),
  ("change_kind".toList, r.changeKind),
  ("reported_line".toList, r.reportedLine),
  ("effective_line".toList, r.effectiveLine),
  ("strategy".toList, r.strategy),
  ("generated_by".toList, r.generatedBy),
  ("success".toList, r.success),
  ("duration_ms".toList, r.duration),
  ("detail".toList, r.detail)]

/-- The line of a record, if it can be written. -/
def Record.line (r : Record) : Except Value.DigitError Text :=
  if r.value.isWritable then .ok (Json.line r.value) else .error .tooMany

/-- Writes a record behind a log; none stands for a log that does not exist yet. The log afterwards is given also if
the record could not be written. -/
def write (log : Option Text) (r : Record) : Except Value.DigitError Unit × Option Text :=
  match r.line with
  | .ok line => (.ok (), some (log.getD [] ++ line ++ ['\n']))
  | .error e => (.error e, some (log.getD []))

/-- Writes records one after the other, up to the first that cannot be written. -/
def writeAll (log : Option Text) : List Record → Except Value.DigitError Unit × Option Text
  | [] => (.ok (), log)
  | r :: rs =>
    match write log r with
    | (.ok (), next) => writeAll next rs
    | failed => failed

/-- The records of a log. -/
def read (log : Option Text) : Except Json.Problem (List Value) :=
  ((Text.lines (Json.normalizeNewlines (log.getD []))).filter fun line => !Text.allBlank line).mapM Json.read

end LiveEdit.Audit
