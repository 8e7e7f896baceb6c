/-
  LiveEdit.Proofs.Audit — nothing that is written into the log is lost.

  A record is one line, since its text holds no line end of its own. Writing puts that line behind the log and leaves the
  log as it was, also when it fails (`writeAll_prefix`). So the lines of the log are those of the records in their order,
  and reading gives mappings in which the fields of the records stand under their keys (`log_reads_back`).
-/

import Mathlib.Data.List.Forall2
import LiveEdit.Audit
import LiveEdit.Proofs.Text.Lines
import LiveEdit.Proofs.Value

namespace LiveEdit.Audit

theorem normalizeNewlines_of_not_mem {t : Text} (h : '\r' ∉ t) : Json.normalizeNewlines t = t := by
  induction t with
  | nil => rfl
  | cons c t ih =>
    obtain ⟨hc, ht⟩ := not_or.mp (mt List.mem_cons.mpr h)
    rw [Json.normalizeNewlines]
    · rw [ih ht]
    · exact fun s he _ => hc he.symm
    · exact fun he => hc he.symm

/-! ## Records -/

/-- Each field of the record stands in the mapping under its key, in the order of the fields, and nothing else does. -/
structure Record.StandsIn (r : Record) (entries : Assoc Value) : Prop where
  keys : Assoc.keys entries = ["file_path", "change_kind", "reported_line", "effective_line", "strategy",
    "generated_by", "success", "duration_ms", "detail"].map String.toList
  filePath : Assoc.get? "file_path".toList entries = some r.filePath
  changeKind : Assoc.get? "change_kind".toList entries = some r.changeKind
  reportedLine : Assoc.get? "reported_line".toList entries = some r.reportedLine
  effectiveLine : Assoc.get? "effective_line".toList entries = some r.effectiveLine
  strategy : Assoc.get? "strategy".toList entries = some r.strategy
  generatedBy : Assoc.get? "generated_by".toList entries = some r.generatedBy
  success : Assoc.get? "success".toList entries = some r.success
  duration : Assoc.get? "duration_ms".toList entries = some r.duration
  detail : Assoc.get? "detail".toList entries = some r.detail

/-- The value of a record is such a mapping. -/
theorem Record.value_standsIn (r : Record) : ∃ entries, r.value = .map entries ∧ r.StandsIn entries :=
  ⟨_, rfl, rfl, rfl, rfl, rfl, rfl, rfl, rfl, rfl, rfl, rfl⟩

/-- The values of a record, in the order of its fields. -/
def Record.members (r : Record) : List Value :=
  [r.filePath, r.changeKind, r.reportedLine, r.effectiveLine, r.strategy, r.generatedBy, r.success, r.duration, r.detail]

theorem plain_value {r : Record} (h : ∀ v ∈ r.members, v.Plain) : r.value.Plain := by
  refine .map (fun e he => h e.2 ?_) (by simp [Assoc.keys])
  exact List.mem_map_of_mem (f := Prod.snd) he

theorem isWritable_value_iff (r : Record) : r.value.isWritable = true ↔ ∀ v ∈ r.members, v.isWritable = true := by
  rw [Record.value, Value.isWritable_map_iff]
  simp [Record.members]

theorem line_of_writable {r : Record} (h : ∀ v ∈ r.members, v.isWritable = true) : r.line = .ok (Json.line r.value) :=
  if_pos ((isWritable_value_iff r).mpr h)

theorem line_value_not_mem {r : Record} (h : ∀ v ∈ r.members, v.Plain) :
    '\n' ∉ Json.line r.value ∧ '\r' ∉ Json.line r.value :=
  have hprintable := Json.line_printable (plain_value h)
  ⟨hprintable.feed_not_mem, hprintable.return_not_mem⟩

/-! ## The log -/

/-- The lines of some records. -/
def linesOf (rs : List Record) : List Text := rs.map fun r => Json.line r.value

/-- A write leaves the log as it was, whether it fails or not. -/
theorem write_prefix (log : Option Text) (r : Record) : log.getD [] <+: (write log r).2.getD [] := by
  unfold write
  split
  · rw [List.append_assoc]
    exact List.prefix_append _ _
  · exact List.prefix_rfl

theorem writeAll_prefix (log : Option Text) (rs : List Record) : log.getD [] <+: (writeAll log rs).2.getD [] := by
  induction rs generalizing log with
  | nil => exact List.prefix_rfl
  | cons r rs ih =>
    have hwrite := write_prefix log r
    unfold writeAll
    split
    · rename_i next hnext
      rw [hnext] at hwrite
      exact hwrite.trans (ih next)
    · exact hwrite

/-- Records that can be written go behind the log, each as a line of its own. -/
theorem writeAll_of_writable {rs : List Record} (h : ∀ r ∈ rs, ∀ v ∈ r.members, v.isWritable = true) (log : Option Text) :
    ∃ next, next.getD [] = log.getD [] ++ Text.above (linesOf rs) ∧
      ∀ more, writeAll log (rs ++ more) = writeAll next more := by
  induction rs generalizing log with
  | nil => exact ⟨log, by simp [linesOf, Text.above], fun _ => rfl⟩
  | cons r rs ih =>
    have hline := line_of_writable (h r List.mem_cons_self)
    have hwrite : write log r = (.ok (), some (log.getD [] ++ Json.line r.value ++ ['\n'])) := by rw [write, hline]
    obtain ⟨next, hnext, hmore⟩ :=
      ih (fun r' hr' => h r' (List.mem_cons_of_mem r hr')) (some (log.getD [] ++ Json.line r.value ++ ['\n']))
    refine ⟨next, ?_, fun more => ?_⟩
    · rw [hnext]
      simp [linesOf, Text.above]
    · rw [← hmore more, List.cons_append, writeAll, hwrite]

theorem read_lines {rs : List Record} (h : ∀ r ∈ rs, ∀ v ∈ r.members, v.Plain) :
    (linesOf rs).mapM Json.read = .ok (rs.map Record.value) := by
  induction rs with
  | nil => rfl
  | cons r rs ih =>
    have hr : Json.read (Json.line r.value) = .ok r.value := Json.read_line (plain_value (h r List.mem_cons_self))
    have hrest := ih fun r' hr' => h r' (List.mem_cons_of_mem r hr')
    rw [linesOf, List.map_cons, List.mapM_cons, hr, ← linesOf, hrest]
    rfl

/-- The lines of a log as they are when it is read as the text of a file. -/
theorem lines_above {rs : List Record} (h : ∀ r ∈ rs, ∀ v ∈ r.members, v.Plain) :
    Text.lines (Json.normalizeNewlines (Text.above (linesOf rs))) = linesOf rs ++ [[]] := by
  have hline : ∀ l ∈ linesOf rs, '\n' ∉ l ∧ '\r' ∉ l := by
    intro l hl
    obtain ⟨r, hr, rfl⟩ := List.mem_map.mp hl
    exact line_value_not_mem (h r hr)
  have hreturn : '\r' ∉ Text.above (linesOf rs) := by
    intro hmem
    obtain ⟨l, hl, hc⟩ := List.mem_flatMap.mp hmem
    rcases List.mem_append.mp hc with hc | hc
    · exact (hline l hl).2 hc
    · exact absurd (List.mem_singleton.mp hc) (by decide)
  rw [normalizeNewlines_of_not_mem hreturn, Text.lines_above fun l hl => (hline l hl).1]

theorem read_above {rs : List Record} (h : ∀ r ∈ rs, ∀ v ∈ r.members, v.Plain) {log : Option Text}
    (hlog : log.getD [] = Text.above (linesOf rs)) : read log = .ok (rs.map Record.value) := by
  have hkept : (linesOf rs ++ [[]]).filter (fun l => !Text.allBlank l) = linesOf rs := by
    have hall : (linesOf rs).filter (fun l => !Text.allBlank l) = linesOf rs := by
      refine List.filter_eq_self.mpr fun l hl => ?_
      obtain ⟨r, -, rfl⟩ := List.mem_map.mp hl
      rfl
    rw [List.filter_append, hall]
    exact List.append_nil _
  rw [read, hlog, lines_above h, hkept, read_lines h]

/-- Records with values that are read back and can be written are all written. The log then has a line for each of them,
keeps what it holds when more is written, and gives back a mapping for each, in their order, in which its fields stand. -/
theorem log_reads_back (rs : List Record) (hplain : ∀ r ∈ rs, ∀ v ∈ r.members, v.Plain)
    (hwritable : ∀ r ∈ rs, ∀ v ∈ r.members, v.isWritable = true) :
    ∃ log, writeAll none rs = (.ok (), log) ∧
      Text.lines (Json.normalizeNewlines (log.getD [])) = rs.map (fun r => Json.line r.value) ++ [[]] ∧
      (∀ more, log.getD [] <+: (writeAll none (rs ++ more)).2.getD []) ∧
      ∃ mappings, read log = .ok (mappings.map Value.map) ∧ List.Forall₂ Record.StandsIn rs mappings := by
  obtain ⟨log, hlog, hmore⟩ := writeAll_of_writable hwritable none
  rw [Option.getD_none, List.nil_append] at hlog
  refine ⟨log, ?_, ?_, fun more => ?_, ?_⟩
  · have hall := hmore []
    rw [List.append_nil] at hall
    rw [hall]
    rfl
  · rw [hlog, lines_above hplain]
    rfl
  · rw [hmore more]
    exact writeAll_prefix log more
  · choose entries hvalue hstands using Record.value_standsIn
    refine ⟨rs.map entries, ?_, ?_⟩
    · rw [read_above hplain hlog, List.map_map]
      exact congrArg Except.ok (List.map_congr_left fun r _ => hvalue r)
    · rw [List.forall₂_map_right_iff, List.forall₂_same]
      exact fun r _ => hstands r

/-- A record whose members hold line ends. -/
def untidy : Record where
  filePath := .str "a\r\nb".toList
  changeKind := .str "text".toList
  reportedLine := .int (-3)
  effectiveLine := .null
  strategy := .list [.bool true, .map [("\n".toList, .str "\r".toList)]]
  generatedBy := .str "\"\\".toList
  success := .bool false
  duration := .int 0

theorem untidy_reads_back :
    ∃ log, writeAll none [untidy] = (.ok (), log) ∧
      Text.lines (Json.normalizeNewlines (log.getD [])) = [Json.line untidy.value, []] ∧
      (∀ more, log.getD [] <+: (writeAll none ([untidy] ++ more)).2.getD []) ∧
      ∃ mappings, read log = .ok (mappings.map Value.map) ∧ List.Forall₂ Record.StandsIn [untidy] mappings := by
  have hentry : (Value.map [("\n".toList, .str "\r".toList)]).Plain :=
    .map (List.forall_mem_singleton.mpr (.str _)) (by decide)
  have hlist : (Value.list [.bool true, .map [("\n".toList, .str "\r".toList)]]).Plain :=
    .list (List.forall_mem_cons.mpr ⟨.bool _, List.forall_mem_singleton.mpr hentry⟩)
  refine log_reads_back [untidy] ?_ ?_
  · intro r hr v hv
    rw [List.mem_singleton.mp hr] at hv
    simp only [Record.members, untidy, List.mem_cons, List.not_mem_nil, or_false] at hv
    rcases hv with rfl | rfl | rfl | rfl | rfl | rfl | rfl | rfl | rfl
    · exact .str _
    · exact .str _
    · exact .int _
    · exact .null
    · exact hlist
    · exact .str _
    · exact .bool _
    · exact .int _
    · exact .str _
  · intro r hr
    rw [List.mem_singleton.mp hr]
    decide +kernel

end LiveEdit.Audit
