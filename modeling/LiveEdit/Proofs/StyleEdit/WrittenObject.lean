/-
  LiveEdit.Proofs.StyleEdit.WrittenObject — whether the object that a style edit writes is read as the entries meant.

  Values are quoted so that they are whole, names of properties are not looked at. `KeyedBy` says of entries that all
  is well with them but for the keys, which come from given properties; it holds of what the request brings, of what is
  found in a tag, and of both together. So what is written is read back iff the properties, those of a style string
  included, have keys of the grammar (`apply_writes_readable_iff`).
-/

import LiveEdit.Proofs.Style.Key
import LiveEdit.Proofs.Style.RoundTrip
import LiveEdit.Proofs.StyleEdit.Reading

namespace LiveEdit

/-! ## Entries and the properties that they come from -/

namespace Style

/-- A custom property needs a name without single quotes; another one is itself a key, in camel case. -/
theorem isKey_key_iff (property : Text) : IsKey (key property) ↔
    if ['-', '-'].isPrefixOf (Text.strip property) then '\'' ∉ Text.strip property
    else IsKey (camelCase (Text.strip property)) := by
  unfold key
  simp only
  split
  · constructor
    · intro h hm
      generalize hkey : '\'' :: Text.strip property ++ ['\''] = written at h
      cases h with
      | identifier hc _ =>
        obtain ⟨rfl, -⟩ := List.cons.inj hkey
        exact absurd hc (by decide)
      | quoted hq ht =>
        obtain ⟨rfl, hbody⟩ := List.cons.inj hkey
        rw [List.append_cancel_right hbody] at hm
        exact ht hm
    · intro h
      exact .quoted (.inl rfl) h
  · rfl

/-- The entries have keys that are apart and values of the grammar, and their keys are of the grammar just when those
of the properties are. -/
structure KeyedBy (properties : List Text) (entries : Assoc Text) : Prop where
  apart : (Assoc.keys entries).Nodup
  values : ∀ e ∈ entries, IsValue e.2
  keys : (∀ k ∈ Assoc.keys entries, IsKey k) ↔ ∀ property ∈ properties, IsKey (key property)

theorem keyedBy_ofChanges (css : Assoc Text) : KeyedBy (Assoc.keys css) (ofChanges css) where
  apart := nodup_keys_ofChanges css
  values := by
    intro e he
    rcases Assoc.mem_putAll he with he | he
    · cases he
    · obtain ⟨change, -, rfl⟩ := List.mem_map.mp he
      exact isValue_literal _
  keys := by
    constructor
    · intro h property hp
      exact h _ (mem_keys_ofChanges.mpr ⟨property, hp, rfl⟩)
    · intro h k hk
      obtain ⟨property, hp, rfl⟩ := mem_keys_ofChanges.mp hk
      exact h property hp

/-- What has been read has keys of the grammar already. -/
theorem keyedBy_of_parse? {t : Text} {entries : Assoc Text} (h : parse? t = some entries) : KeyedBy [] entries where
  apart := (isEntry_of_parse? h).1
  values := fun e he => ((isEntry_of_parse? h).2 e he).value
  keys := by
    refine ⟨fun _ _ hp => absurd hp List.not_mem_nil, fun _ k hk => ?_⟩
    obtain ⟨e, he, rfl⟩ := List.mem_map.mp hk
    exact ((isEntry_of_parse? h).2 e he).key

theorem KeyedBy.putAll {properties properties' : List Text} {old new : Assoc Text} (ho : KeyedBy properties old)
    (hn : KeyedBy properties' new) : KeyedBy (properties ++ properties') (old.putAll new) where
  apart := Assoc.nodup_putAll ho.apart new
  values := by
    intro e he
    rcases Assoc.mem_putAll he with he | he
    · exact ho.values e he
    · exact hn.values e he
  keys := by
    rw [List.forall_mem_append, ← ho.keys, ← hn.keys, ← List.forall_mem_append]
    refine forall_congr' fun k => ?_
    rw [Assoc.mem_keys_putAll, List.mem_append]

/-- Printed, the entries are read back iff the properties have keys of the grammar. -/
theorem KeyedBy.parse?_inside_iff {properties : List Text} {entries : Assoc Text} (h : KeyedBy properties entries) :
    parse? (inside entries) = some entries ↔ ∀ property ∈ properties, IsKey (key property) :=
  (Style.parse?_inside_iff h.apart h.values).trans h.keys

end Style

namespace StyleEdit

open Markup TagEdit Text.Passage

/-- The properties that are declared in a style, whose names are rewritten with it. Keys of an object stay as they
are. -/
def declared : Option Written → List Text
  | some (.string body) => Assoc.keys ((Text.splitOn ';' body).filterMap Style.declaration?)
  | _ => []

theorem keyedBy_of_entriesOf? {w : Written} {old : Assoc Text} (h : entriesOf? w = some old) :
    Style.KeyedBy (declared (some w)) old := by
  cases w with
  | object body => exact Style.keyedBy_of_parse? h
  | string body =>
    cases h
    exact Style.keyedBy_ofChanges _
  | other => cases h

theorem Writes.keyedBy {css entries : Assoc Text} {tag : OpeningTag} {place : Text.Passage} {found : Option Written}
    {text : Text} (h : Writes (Style.ofChanges css) tag place found entries text) :
    Style.KeyedBy (declared found ++ Assoc.keys css) entries := by
  cases h with
  | inserted _ => exact Style.keyedBy_ofChanges css
  | merged _ hold => exact (keyedBy_of_entriesOf? hold).putAll (Style.keyedBy_ofChanges css)

theorem Writes.assigns {new entries : Assoc Text} {tag : OpeningTag} {place : Text.Passage} {found : Option Written}
    {text : Text} (h : Writes new tag place found entries text) :
    text = if found.isNone then ' ' :: assignment entries else assignment entries := by
  cases h with
  | inserted _ => rfl
  | merged _ _ => rfl

theorem assignment_eq (entries : Assoc Text) :
    assignment entries = "style=\x7b\x7b".toList ++ Style.inside entries ++ "\x7d\x7d".toList := by
  rw [assignment, Style.print_eq]
  rfl

/-- A style edit that changes the document writes an object with the entries that were there and the new ones. What
stands between its double braces is read as these entries, in their order, just when the names of the new properties
and of those in a style string that was there have keys of the grammar. -/
theorem apply_writes_readable_iff (settings : Settings) (content : Text) (line : Except EditError Nat)
    (element : Element) (css : Assoc Text) {r : Text}
    (h : apply settings content line element css = .ok (some r)) (hr : r ≠ content) :
    ∃ c tag place found entries text between,
      Candidate.locate settings (Text.lines content) line element = .ok (some c) ∧
      c.openingTag? settings element = some tag ∧ Writes (Style.ofChanges css) tag place found entries text ∧
      content = front content c tag ++ place.whole ++ back content c tag ∧
      r = front content c tag ++ place.replace text ++ back content c tag ∧
      text = (if found.isNone then ' ' :: assignment entries else assignment entries) ∧
      assignment entries = "style=\x7b\x7b".toList ++ between ++ "\x7d\x7d".toList ∧
      (Style.parse? between = some entries ↔
        ∀ property ∈ declared found ++ Assoc.keys css, Style.IsKey (Style.key property)) := by
  obtain ⟨c, tag, place, found, entries, text, hc, ht, hw, hbefore, hafter⟩ := apply_writes h hr
  exact ⟨c, tag, place, found, entries, text, Style.inside entries, hc, ht, hw, hbefore, hafter, hw.assigns,
    assignment_eq entries, hw.keyedBy.parse?_inside_iff⟩

/-- A string is rewritten as an object, with a value that holds a quote and a custom property among the new ones. -/
theorem rewritten_string_is_read :
    let content := "<a href='/x' style=\"margin: 0\">".toList
    let link : Element := { tagName := "a".toList, attributes := [("href".toList, "/x".toList)] }
    let css : Assoc Text := [("font-family".toList, "it's".toList), ("--accent".toList, "#fff".toList)]
    let r := "<a href='/x' style=\x7b\x7b margin: '0', fontFamily: 'it\\'s', '--accent': '#fff' \x7d\x7d>".toList
    apply {} content (.ok 1) link css = .ok (some r) ∧ r ≠ content ∧
      ∃ c tag place found entries text, Candidate.locate {} (Text.lines content) (.ok 1) link = .ok (some c) ∧
        c.openingTag? {} link = some tag ∧ Writes (Style.ofChanges css) tag place found entries text ∧
        ∃ between, assignment entries = "style=\x7b\x7b".toList ++ between ++ "\x7d\x7d".toList ∧
          Style.parse? between = some entries := by
  intro content link css r
  have hedit : apply {} content (.ok 1) link css = .ok (some r) := by rfl
  have hr : r ≠ content := by decide
  obtain ⟨c, tag, place, found, entries, text, between, hc, ht, hw, -, -, -, hbetween, hiff⟩ :=
    apply_writes_readable_iff {} content (.ok 1) link css hedit hr
  refine ⟨hedit, hr, c, tag, place, found, entries, text, hc, ht, hw, between, hbetween, hiff.mpr ?_⟩
  have hlocate : Candidate.locate {} (Text.lines content) (.ok 1) link =
      .ok (some (Candidate.atLine {} (Text.lines content) (Evidence.rank {} link.attributes) 0)) := by rfl
  cases hc.symm.trans hlocate
  cases ht.symm.trans (show _ = some (OpeningTag.ofOffset 1 content 0) by rfl)
  have hread : first? written? none (OpeningTag.ofOffset 1 content 0).head =
      some (⟨"<a href='/x' ".toList, "style=\"margin: 0\"".toList, ">".toList⟩, .string "margin: 0".toList) := by rfl
  have hproperties : declared found ++ Assoc.keys css =
      ["margin".toList, "font-family".toList, "--accent".toList] := by
    cases hw with
    | inserted hnone => cases hnone.symm.trans hread
    | merged hsome hold =>
      cases hsome.symm.trans hread
      rfl
  rw [hproperties]
  intro property hp
  simp only [List.mem_cons, List.not_mem_nil, or_false] at hp
  rcases hp with rfl | rfl | rfl
  · exact .identifier (c := 'm') (by decide) (by decide)
  · exact .identifier (c := 'f') (by decide) (by decide)
  · have hname : Text.strip "--accent".toList = "--accent".toList := by rfl
    rw [Style.isKey_key_iff, hname, if_pos (by decide)]
    decide

/-- A property without a name is written all the same, and the object is none. -/
theorem nameless_property_written :
    let content := "<a href='/x'>".toList
    let link : Element := { tagName := "a".toList, attributes := [("href".toList, "/x".toList)] }
    let css : Assoc Text := [([], "red".toList)]
    let r := "<a style=\x7b\x7b : 'red' \x7d\x7d href='/x'>".toList
    apply {} content (.ok 1) link css = .ok (some r) ∧ r ≠ content ∧
      ∃ c tag place entries text, Candidate.locate {} (Text.lines content) (.ok 1) link = .ok (some c) ∧
        c.openingTag? {} link = some tag ∧ Writes (Style.ofChanges css) tag place none entries text ∧
        assignment entries = "style=\x7b\x7b : 'red' \x7d\x7d".toList ∧
        Style.parse? " : 'red' ".toList = none := by
  intro content link css r
  exact ⟨by rfl, by decide, Candidate.atLine {} (Text.lines content) (Evidence.rank {} link.attributes) 0,
    OpeningTag.ofOffset 1 content 0, _, _, _, by rfl, by rfl, .inserted (by rfl), by rfl, by decide⟩

end StyleEdit

end LiveEdit
