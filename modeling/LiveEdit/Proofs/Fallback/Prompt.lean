/-
  LiveEdit.Proofs.Fallback.Prompt — a prompt can be taken apart again.

  The request is indented, so no line of it is empty, and the caption in front of the snippet begins with an empty line:
  whatever the request holds, the first caption is the one that ends it (`Brief.cut?_prompt`). In front of the caption
  stands the payload without its snippet as JSON, behind it the snippet in its fence (`prompt_reads_back`).
-/

import LiveEdit.Proofs.Fallback.Fence
import LiveEdit.Proofs.Json.Layout

namespace LiveEdit.Fallback

open Json

theorem plain_orNull (t : Text) : (Brief.orNull t).Plain := by
  unfold Brief.orNull
  split
  · exact .null
  · exact .str t

theorem plain_elementValue {e : Element} (h : (Assoc.keys e.attributes).Nodup) : (Brief.elementValue e).Plain := by
  have hattributes : (Value.map (e.attributes.map fun p => (p.1, .str p.2))).Plain := by
    refine .map (fun entry hentry => ?_) ?_
    · obtain ⟨_, -, rfl⟩ := List.mem_map.mp hentry
      exact .str _
    · simpa [Assoc.keys, Function.comp_def] using h
  refine .map ?_ (by simp [Assoc.keys])
  simp only [List.forall_mem_cons]
  exact ⟨.str e.tagName, plain_orNull _, plain_orNull _, plain_orNull _, hattributes, fun _ h => absurd h List.not_mem_nil⟩

/-- The payload holds its snippet under its key, and the request what else there is. -/
theorem Brief.request_eq (b : Brief) : Assoc.get? "snippet".toList b.payload = some (.str b.snippet) ∧
    b.request = .map [
      ("source_file".toList, .str b.sourceFile),
      ("snippet_lines".toList, .list [.int b.firstLine, .int b.lastLine]),
      ("target_line".toList, (b.target.map Value.int).getD .null),
      ("element".toList, elementValue b.element),
      ("change_kind".toList, .str b.change.kind),
      ("change".toList, .str (describe b.change))] :=
  ⟨rfl, rfl⟩

theorem plain_request {b : Brief} (h : (Assoc.keys b.element.attributes).Nodup) : b.request.Plain := by
  have hlines : (Value.list [.int b.firstLine, .int b.lastLine]).Plain := by
    refine .list ?_
    simp only [List.forall_mem_cons]
    exact ⟨.int _, .int _, fun _ h => absurd h List.not_mem_nil⟩
  have htarget : ((b.target.map Value.int).getD .null).Plain := by
    cases b.target with
    | none => exact .null
    | some n => exact .int n
  rw [b.request_eq.2]
  refine .map ?_ (by simp [Assoc.keys])
  simp only [List.forall_mem_cons]
  exact ⟨.str _, hlines, htarget, plain_elementValue h, .str _, .str _, fun _ h => absurd h List.not_mem_nil⟩

/-- The text in front of the caption: no line of it is empty. -/
theorem feedsFollowed_request {v : Value} (h : v.Plain) :
    Text.FeedsFollowed ("Request:\n".toList ++ Json.pretty v) := by
  have hpretty := feedsFollowed_indented (plain_sorted h) 0
  obtain ⟨c, s, hs, hspace, -⟩ := (spells_indented (plain_sorted h) 0).leads
  have hc : c ≠ '\n' := fun he => by simp [he, isJsonSpace] at hspace
  have hcaption : Printable "Request:".toList := by decide
  have hbehind : Text.FeedsFollowed ('\n' :: Json.pretty v) := ⟨fun _ => ⟨c, s, hs, hc⟩, hpretty⟩
  simpa using hcaption.feedsFollowed.append hbehind

/-- The first caption of a prompt stands between the request and the snippet. -/
theorem Brief.cut?_prompt {b : Brief} (h : (Assoc.keys b.element.attributes).Nodup) :
    Text.cut? "\n\nCode snippet:\n".toList b.prompt =
      some ("Request:\n".toList ++ Json.pretty b.request, inFence b.snippet) := by
  have hcaption : "\n\nCode snippet:\n".toList = '\n' :: '\n' :: "Code snippet:\n".toList := by simp
  rw [Brief.prompt_eq, hcaption]
  exact Text.cut?_of_feedsFollowed (feedsFollowed_request (plain_request h)) _ _

/-- The request as it is read, with its members in the order of their keys. -/
theorem Brief.read_request {b : Brief} (h : (Assoc.keys b.element.attributes).Nodup) :
    Json.read (Json.pretty b.request) = .ok (.map [
      ("change".toList, .str (describe b.change)),
      ("change_kind".toList, .str b.change.kind),
      ("element".toList, sorted (elementValue b.element)),
      ("snippet_lines".toList, .list [.int b.firstLine, .int b.lastLine]),
      ("source_file".toList, .str b.sourceFile),
      ("target_line".toList, (b.target.map Value.int).getD .null)]) := by
  have htarget : sorted ((b.target.map Value.int).getD .null) = (b.target.map Value.int).getD .null := by
    cases b.target <;> rfl
  rw [read_pretty (plain_request h), b.request_eq.2]
  conv_rhs => rw [← htarget]
  rfl

/-- Cut at the first caption, a prompt has in front of it a request that is read as the payload without its snippet, and
behind it the snippet of the payload in its fence, whatever the texts of the payload are. -/
theorem prompt_reads_back (lines : List Text) (start stop target : Int) (reliable : Bool) (element : Element)
    (change : Change) (sourceFile : Text) (hkeys : (Assoc.keys element.attributes).Nodup) :
    ∃ json v,
      Assoc.get? "snippet".toList (Brief.ofLines lines start stop target reliable element change sourceFile).payload =
        some (.str (Text.unlines (slice lines start stop))) ∧
      Text.cut? "\n\nCode snippet:\n".toList
          (Brief.ofLines lines start stop target reliable element change sourceFile).prompt =
        some ("Request:\n".toList ++ json,
          "\x60\x60\x60tsx\n".toList ++ Text.unlines (slice lines start stop) ++ "\n\x60\x60\x60".toList) ∧
      Json.read json = .ok v ∧
      v.SameData (.map
        ((Brief.ofLines lines start stop target reliable element change sourceFile).payload.filter
          fun entry => entry.1 ≠ "snippet".toList)) := by
  have hplain : (Brief.ofLines lines start stop target reliable element change sourceFile).request.Plain :=
    plain_request hkeys
  have hfence : inFence (Text.unlines (slice lines start stop)) =
      "\x60\x60\x60tsx\n".toList ++ Text.unlines (slice lines start stop) ++ "\n\x60\x60\x60".toList := by
    simp [inFence, fence]
  refine ⟨_, _, (Brief.request_eq _).1, ?_, read_pretty hplain, sorted_sameData hplain⟩
  rw [← hfence]
  exact Brief.cut?_prompt hkeys

/-- A caption in the request is none of the prompt. -/
theorem captions_in_request_read_back :
    ∃ json v,
      Assoc.get? "snippet".toList
          (Brief.ofLines ["<p>".toList, "</p>".toList] 0 1 1 true
            { tagName := "p".toList, attributes := [("title".toList, "\n\nCode snippet:\n".toList)] }
            (.text "\n\nCode snippet:\n".toList "\"".toList) "a.tsx".toList).payload = some (.str "<p>".toList) ∧
      Text.cut? "\n\nCode snippet:\n".toList
          (Brief.ofLines ["<p>".toList, "</p>".toList] 0 1 1 true
            { tagName := "p".toList, attributes := [("title".toList, "\n\nCode snippet:\n".toList)] }
            (.text "\n\nCode snippet:\n".toList "\"".toList) "a.tsx".toList).prompt =
        some ("Request:\n".toList ++ json, "\x60\x60\x60tsx\n<p>\n\x60\x60\x60".toList) ∧
      Json.read json = .ok v ∧
      v.SameData (.map
        ((Brief.ofLines ["<p>".toList, "</p>".toList] 0 1 1 true
          { tagName := "p".toList, attributes := [("title".toList, "\n\nCode snippet:\n".toList)] }
          (.text "\n\nCode snippet:\n".toList "\"".toList) "a.tsx".toList).payload.filter
            fun entry => entry.1 ≠ "snippet".toList)) :=
  prompt_reads_back ["<p>".toList, "</p>".toList] 0 1 1 true
    { tagName := "p".toList, attributes := [("title".toList, "\n\nCode snippet:\n".toList)] }
    (.text "\n\nCode snippet:\n".toList "\"".toList) "a.tsx".toList (by decide)

end LiveEdit.Fallback
