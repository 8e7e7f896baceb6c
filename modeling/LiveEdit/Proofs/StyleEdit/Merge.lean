/-
  LiveEdit.Proofs.StyleEdit.Merge — which properties a style object has after an edit has merged new ones into it.

  The entries that were there keep their places, with the new value where the change has the same key, and the other new
  ones follow (`Merged`). Keys are compared as they are spelled: a property that is there in quotes and changed without
  them, or the other way round, is written a second time. If no property has two keys before, none has two afterwards
  just when the change has no two keys for one, and for each property that is there the key that it has there
  (`apply_merges_apart_iff`).
-/

import LiveEdit.Proofs.Style.PropertyName
import LiveEdit.Proofs.StyleEdit.WrittenObject

namespace LiveEdit

/-! ## Entries that are merged -/

namespace Style

/-- What becomes of the entries of an object when changes are merged into it; `between` is what is written between the
double braces. -/
structure Merged (css own entries : Assoc Text) (between : Text) : Prop where
  overwrites : entries = own.updated (ofChanges css) ++ (ofChanges css).filter fun e => e.1 ∉ Assoc.keys own
  apart_iff : Apart entries ↔ Apart (ofChanges css) ∧
    ∀ k ∈ Assoc.keys own, ∀ property ∈ Assoc.keys css, propertyOf k = propertyOf (key property) → k = key property
  /-- Of names without quotes a change makes one key for each property. -/
  changes_apart : (∀ property ∈ Assoc.keys css, '\'' ∉ property ∧ '"' ∉ property) → Apart (ofChanges css)
  /-- What is written is read as these entries, none of them dropped as a repeated one. -/
  reads : (∀ property ∈ Assoc.keys css, IsKey (key property)) → entries? between.length between = some entries

theorem merged_putAll {t : Text} {own : Assoc Text} (css : Assoc Text) (h : entries? t.length t = some own)
    (hapart : Apart own) : Merged css own (own.putAll (ofChanges css)) (inside (own.putAll (ofChanges css))) where
  overwrites := Assoc.putAll_eq hapart.nodup (nodup_keys_ofChanges css)
  apart_iff := by
    rw [apart_putAll_iff hapart.nodup (nodup_keys_ofChanges css), and_iff_right hapart]
    refine and_congr_right fun _ => forall₂_congr fun k _ => ?_
    constructor
    · exact fun hkeys property hp => hkeys _ (mem_keys_ofChanges.mpr ⟨property, hp, rfl⟩)
    · intro hkeys k' hk'
      obtain ⟨property, hp, rfl⟩ := mem_keys_ofChanges.mp hk'
      exact hkeys property hp
  changes_apart := apart_ofChanges
  reads := by
    intro hkeys
    refine entries?_inside fun e he => ?_
    rcases Assoc.mem_putAll he with he | he
    · exact isEntry_of_entries? h e he
    · have hnew := keyedBy_ofChanges css
      exact ⟨hnew.keys.mpr hkeys _ (Assoc.mem_keys_of_mem he), hnew.values e he⟩

end Style

/-! ## Edits of an object -/

namespace StyleEdit

open Markup TagEdit Text.Passage

/-- The own entries of an object are those that are read from it, repeated keys included. -/
theorem Writes.merges {css entries : Assoc Text} {tag : OpeningTag} {place : Text.Passage} {body text : Text}
    (h : Writes (Style.ofChanges css) tag place (some (.object body)) entries text) :
    ∃ own, Style.entries? body.length body = some own ∧
      (Style.Apart own → Style.Merged css own entries (Style.inside entries)) := by
  cases h with
  | merged _ hold =>
    obtain ⟨own, hown, rfl⟩ := Option.map_eq_some_iff.mp hold
    refine ⟨own, hown, fun hapart => ?_⟩
    -- No own key is repeated, so that the mapping is the entries themselves and none of them is lost.
    rw [Assoc.ofPairs_of_nodup hapart.nodup]
    exact Style.merged_putAll css hown hapart

/-- A style edit rewrites an object in which no property has two keys as another such object just when no two keys of
the change name one property, and the change spells the key of each property that is there as it is spelled there. -/
theorem apply_merges_apart_iff (settings : Settings) (content : Text) (line : Except EditError Nat) (element : Element)
    (css : Assoc Text) {r : Text} (h : apply settings content line element css = .ok (some r)) (hr : r ≠ content) :
    ∃ c tag place found entries text,
      Candidate.locate settings (Text.lines content) line element = .ok (some c) ∧
      c.openingTag? settings element = some tag ∧ Writes (Style.ofChanges css) tag place found entries text ∧
      content = front content c tag ++ place.whole ++ back content c tag ∧
      r = front content c tag ++ place.replace text ++ back content c tag ∧
      ∀ body, found = some (.object body) →
        ∃ own between, Style.entries? body.length body = some own ∧
          text = "style=\x7b\x7b".toList ++ between ++ "\x7d\x7d".toList ∧
          (Style.Apart own → Style.Merged css own entries between) := by
  obtain ⟨c, tag, place, found, entries, text, hc, ht, hw, hbefore, hafter⟩ := apply_writes h hr
  refine ⟨c, tag, place, found, entries, text, hc, ht, hw, hbefore, hafter, ?_⟩
  rintro body rfl
  obtain ⟨own, hown, hmerged⟩ := hw.merges
  exact ⟨own, Style.inside entries, hown, hw.assigns.trans (assignment_eq entries), hmerged⟩

/-- A property that is there is overwritten in its place, and a custom property follows; the quotes of a key that is
there stay. -/
theorem merged_object_stays_apart :
    let content := "<a href='/x' style=\x7b\x7b 'margin': 0, color: 'blue' \x7d\x7d>".toList
    let link : Element := { tagName := "a".toList, attributes := [("href".toList, "/x".toList)] }
    let css : Assoc Text := [("color".toList, "red".toList), ("--accent".toList, "#fff".toList)]
    let r := "<a href='/x' style=\x7b\x7b 'margin': 0, color: 'red', '--accent': '#fff' \x7d\x7d>".toList
    apply {} content (.ok 1) link css = .ok (some r) ∧ r ≠ content ∧
      ∃ c tag place entries text body own, Candidate.locate {} (Text.lines content) (.ok 1) link = .ok (some c) ∧
        c.openingTag? {} link = some tag ∧
        Writes (Style.ofChanges css) tag place (some (.object body)) entries text ∧
        Style.entries? body.length body = some own ∧ Style.Apart own ∧ Style.Apart entries := by
  intro content link css r
  have hedit : apply {} content (.ok 1) link css = .ok (some r) := by decide +kernel
  have hr : r ≠ content := by decide
  obtain ⟨c, tag, place, found, entries, text, hc, ht, hw, -, -, hmerge⟩ :=
    apply_merges_apart_iff {} content (.ok 1) link css hedit hr
  have hlocate : Candidate.locate {} (Text.lines content) (.ok 1) link =
      .ok (some (Candidate.atLine {} (Text.lines content) (Evidence.rank {} link.attributes) 0)) := by decide +kernel
  cases hc.symm.trans hlocate
  cases ht.symm.trans (show _ = some (OpeningTag.ofOffset 1 content 0) by decide +kernel)
  have hread : first? written? none (OpeningTag.ofOffset 1 content 0).head =
      some (⟨"<a href='/x' ".toList, "style=\x7b\x7b 'margin': 0, color: 'blue' \x7d\x7d".toList, ">".toList⟩,
        .object " 'margin': 0, color: 'blue' ".toList) := by decide +kernel
  have hfound : found = some (.object " 'margin': 0, color: 'blue' ".toList) := by
    cases hw with
    | inserted hnone => cases hnone.symm.trans hread
    | merged hsome _ =>
      cases hsome.symm.trans hread
      rfl
  subst hfound
  obtain ⟨own, between, hown, -, hmerged⟩ := hmerge _ rfl
  cases hown.symm.trans (show _ = some [("'margin'".toList, "0".toList), ("color".toList, "'blue'".toList)]
    by decide +kernel)
  have hapart : Style.Apart [("'margin'".toList, "0".toList), ("color".toList, "'blue'".toList)] := by decide
  have hm := hmerged hapart
  refine ⟨hedit, hr, _, _, place, entries, text, _, _, hc, ht, hw, hown, hapart, hm.apart_iff.mpr ⟨?_, ?_⟩⟩
  · exact hm.changes_apart (by decide)
  · decide +kernel

/-- A property that is there in quotes is repeated, and not overwritten. -/
theorem quoted_color_repeated :
    let content := "<a href='/x' style=\x7b\x7b 'color': 'blue' \x7d\x7d>".toList
    let link : Element := { tagName := "a".toList, attributes := [("href".toList, "/x".toList)] }
    let css : Assoc Text := [("color".toList, "red".toList)]
    let r := "<a href='/x' style=\x7b\x7b 'color': 'blue', color: 'red' \x7d\x7d>".toList
    apply {} content (.ok 1) link css = .ok (some r) ∧ r ≠ content ∧
      ∃ c tag place body own written entries, Candidate.locate {} (Text.lines content) (.ok 1) link = .ok (some c) ∧
        c.openingTag? {} link = some tag ∧
        Writes (Style.ofChanges css) tag place (some (.object body)) entries
          ("style=\x7b\x7b".toList ++ written ++ "\x7d\x7d".toList) ∧
        Style.entries? body.length body = some own ∧ Style.Apart own ∧
        Style.entries? written.length written = some entries ∧ ¬ Style.Apart entries := by
  intro content link css r
  let own : Assoc Text := [("'color'".toList, "'blue'".toList)]
  let entries : Assoc Text := [("'color'".toList, "'blue'".toList), ("color".toList, "'red'".toList)]
  have hsome : first? written? none (OpeningTag.ofOffset 1 content 0).head =
      some (⟨"<a href='/x' ".toList, "style=\x7b\x7b 'color': 'blue' \x7d\x7d".toList, ">".toList⟩,
        .object " 'color': 'blue' ".toList) := by decide +kernel
  have hold : entriesOf? (.object " 'color': 'blue' ".toList) = some own := by decide +kernel
  have hentries : own.putAll (Style.ofChanges css) = entries := by decide +kernel
  have htext : assignment entries =
      "style=\x7b\x7b".toList ++ " 'color': 'blue', color: 'red' ".toList ++ "\x7d\x7d".toList := by decide +kernel
  have hw : Writes (Style.ofChanges css) _ _ _ _ _ := .merged hsome hold
  rw [hentries, htext] at hw
  exact ⟨by decide +kernel, by decide, Candidate.atLine {} (Text.lines content) (Evidence.rank {} link.attributes) 0,
    OpeningTag.ofOffset 1 content 0, _, _, own, _, entries, by decide +kernel, by decide +kernel, hw, by decide +kernel,
    by decide, by decide +kernel, by decide⟩

end StyleEdit

end LiveEdit
