/-
  LiveEdit.Proofs.Locator.Prompted — when the generator is asked, what it is shown, and where its answer goes.

  The line that a request is about is counted from one, the window around it by the lines before it, the prompt gives
  its first and its last line, and the answer goes between the lines before and the lines behind. All four agree
  (`locate_asks_once`): the prompt shows the lines that the answer replaces (`Asks`, `Splices`), and nothing but the
  answer to this one prompt is known of the generator.
-/

import LiveEdit.Proofs.Fallback.Prompt
import LiveEdit.Proofs.Locator.Ending

namespace LiveEdit

/-! ## The prompt -/

/-- The members of a request tell which lines are shown, and name the target iff the reported line is reliable. -/
structure TellsLines (settings : Settings) (r : Request) (first last target : Nat) (members : Assoc Value) : Prop where
  shown : Assoc.get? "snippet_lines".toList members = some (.list [.int first, .int last])
  target : Assoc.get? "target_line".toList members = some (.int target) ↔
    Line.isReliable settings (lineValue r.reportedLine) = .ok true
  noTarget : Assoc.get? "target_line".toList members = some .null ↔
    Line.isReliable settings (lineValue r.reportedLine) = .ok false

/-- The prompt shows the lines from `first` to `last` of the source around the line `target`, as far as the context
reaches. It tells which lines these are, and names the target iff the reported line is reliable; this is also what is
read in front of its first caption. -/
structure Asks (settings : Settings) (r : Request) (line : Option Nat) (first last target : Nat) (p : Prompt) :
    Prop where
  targets : Targets r line target
  inside : 1 ≤ first ∧ first ≤ target ∧ target ≤ last ∧ last ≤ (Text.lines r.sourceText).length
  reach : first = target - settings.fallbackContextLines.val + 1 ∧
    last = min (Text.lines r.sourceText).length (target + settings.fallbackContextLines.val)
  system : p.system = Fallback.systemPrompt
  user : ∃ entries, p.user = "Request:\n".toList ++ Json.pretty (.map entries) ++ "\n\nCode snippet:\n".toList ++
      Fallback.inFence (windowText r.sourceText (first - 1) last) ∧
    TellsLines settings r first last target entries
  reads : (Assoc.keys r.element.attributes).Nodup → ∃ json members,
    Text.cut? "\n\nCode snippet:\n".toList p.user =
      some ("Request:\n".toList ++ json, Fallback.inFence (windowText r.sourceText (first - 1) last)) ∧
    Json.read json = .ok (.map members) ∧ TellsLines settings r first last target members

variable {settings : Settings} {project : Option Text} {r : Request} {filePath : Text} {fast : FastPath}

/-- Members that hold the lines of a brief tell them. -/
theorem tellsLines_of_get? {first last target : Nat} {reliable : Bool} {members : Assoc Value}
    (hreliable : Line.isReliable settings (lineValue r.reportedLine) = .ok reliable)
    (hshown : Assoc.get? "snippet_lines".toList members = some (.list [.int first, .int last]))
    (htarget : Assoc.get? "target_line".toList members = some (if reliable then .int target else .null)) :
    TellsLines settings r first last target members := by
  refine ⟨hshown, ?_, ?_⟩
  · rw [hreliable, htarget]
    cases reliable with
    | true => exact iff_of_true rfl rfl
    | false => exact iff_of_false nofun nofun
  · rw [hreliable, htarget]
    cases reliable with
    | true => exact iff_of_false nofun nofun
    | false => exact iff_of_true rfl rfl

theorem Shown.asks {line : Option Nat} {start stop target : Nat} {p : Prompt}
    (h : Shown settings r filePath line start stop target p) : Asks settings r line (start + 1) stop target p := by
  obtain ⟨htargets, haround, hinside, reliable, hreliable, rfl⟩ := h
  rw [window_eq] at haround
  obtain ⟨hstart, hstop⟩ := Prod.mk.inj haround
  let b := Fallback.Brief.ofLines (Text.lines r.sourceText) start stop target reliable r.element r.change filePath
  have hsnippet : b.snippet = windowText r.sourceText start stop := snippet_ofLines _ _ _ _ _ _ _ _
  have htarget : (b.target.map Value.int).getD .null = if reliable then .int target else .null := by
    cases reliable <;> rfl
  refine ⟨htargets, by omega, ⟨by omega, hstop.symm⟩, rfl, ?_, fun hkeys => ?_⟩
  · have hprompt := b.prompt_eq
    rw [hsnippet, b.request_eq.2] at hprompt
    exact ⟨_, hprompt, tellsLines_of_get? hreliable rfl (congrArg some htarget)⟩
  · have hcut := Fallback.Brief.cut?_prompt (b := b) hkeys
    rw [hsnippet] at hcut
    exact ⟨_, _, hcut, Fallback.Brief.read_request (b := b) hkeys,
      tellsLines_of_get? hreliable rfl (congrArg some htarget)⟩

/-! ## The answer -/

/-- A patch is the source with a snippet taken from the reply in the place of the lines from `first` to `last`; there
is one iff the snippet is not what these lines were. -/
structure Splices (r : Request) (first last target : Nat) (reply : Reply) (result : Except LocatorError (Option Patch)) :
    Prop where
  patched : ∀ patch, result = .ok (some patch) → ∃ response snippet, reply = .text response ∧
    Fallback.parse response = .ok snippet ∧
    Text.lines patch.content = (Text.lines r.sourceText).take (first - 1) ++ Text.lines snippet ++
      (Text.lines r.sourceText).drop last ∧
    patch.line = target
  changed : ∀ response snippet, reply = .text response → Fallback.parse response = .ok snippet →
    ((∃ patch, result = .ok (some patch)) ↔ snippet ≠ windowText r.sourceText (first - 1) last)

theorem patchOfReply_splices (filePath provider : Text) {start stop : Nat} (target : Nat) (hlt : start < stop)
    (hle : stop ≤ (Text.lines r.sourceText).length) (reply : Reply) :
    Splices r (start + 1) stop target reply (patchOfReply r filePath provider start stop target reply) := by
  constructor
  · intro patch hpatch
    obtain ⟨response, snippet, hreply, hparse, -, rfl⟩ := patchOfReply_eq_some_iff.mp hpatch
    exact ⟨response, snippet, hreply, hparse, Text.lines_around r.sourceText snippet start stop, rfl⟩
  · intro response snippet hreply hparse
    show _ ↔ snippet ≠ windowText r.sourceText start stop
    rw [Ne, ← withSnippet_eq_iff hlt hle]
    constructor
    · intro h
      obtain ⟨patch, hpatch⟩ := h
      obtain ⟨response', snippet', hreply', hparse', hne, -⟩ := patchOfReply_eq_some_iff.mp hpatch
      obtain rfl : response = response' := Reply.text.inj (hreply.symm.trans hreply')
      obtain rfl : snippet = snippet' := Except.ok.inj (hparse.symm.trans hparse')
      exact hne
    · intro hne
      exact ⟨_, patchOfReply_eq_some_iff.mpr ⟨response, snippet, hreply, hparse, hne, rfl⟩⟩

/-! ## The request -/

variable {generator : Option Generator} {calls : Nat} {outcome : Outcome}

/-- A prompt is shown when a fast path has declined, and what is answered to it is the outcome. -/
theorem Ends.asked_of_mem (h : Ends settings project generator calls r outcome) {p : Prompt}
    (hp : p ∈ outcome.prompts) :
    outcome.prompts = [p] ∧ ∃ g filePath fast start stop target, generator = some g ∧
      FastDeclines settings project r filePath fast ∧ Shown settings r filePath fast.line start stop target p ∧
      outcome.result = patchOfReply r filePath g.provider start stop target (g.answer calls p) := by
  cases h with
  | blocked | failed | edited | alone => exact absurd hp List.not_mem_nil
  | asked hg h hs =>
    rw [answered_prompts] at hp ⊢
    obtain rfl := List.mem_singleton.mp hp
    exact ⟨rfl, _, _, _, _, _, _, hg, h, hs, answered_result _ _ _⟩

/-- A request ends in the same way with a generator of the same name that answers the prompts alike. -/
theorem Ends.locate_eq {g g' : Generator} (h : Ends settings project (some g) calls r outcome)
    (hprovider : g'.provider = g.provider) (hanswer : ∀ p ∈ outcome.prompts, g'.answer calls p = g.answer calls p) :
    locate settings project (some g') calls r = outcome := by
  cases h with
  | blocked hfile hb => exact locate_of_blocked hfile hb _ _
  | failed hfile hb hfast => exact locate_of_error hfile hb hfast _ _
  | edited hfile hb hfast hedit hne => exact locate_of_edited hfile hb hfast hedit hne _ _
  | alone hg h => cases hg
  | asked hg h hs =>
    cases hg
    rw [answered_prompts] at hanswer
    rw [locate_of_shown h hs, hprovider, hanswer _ (List.mem_singleton.mpr rfl)]

/-- A generator is asked at most once, and just when there is one and the fast path declines. It is shown the lines
around the target, and its answer takes their place. With another answer to another prompt nothing would be
different. -/
theorem locate_asks_once (settings : Settings) (project : Option Text) (generator : Option Generator) (calls : Nat)
    (r : Request) :
    let outcome := locate settings project generator calls r
    outcome.prompts.length ≤ 1 ∧
    (outcome.prompts ≠ [] ↔ generator.isSome = true ∧ ∃ filePath fast, FastDeclines settings project r filePath fast) ∧
    ∀ g, generator = some g →
      (∀ p ∈ outcome.prompts, ∃ filePath fast first last target, FastDeclines settings project r filePath fast ∧
        Asks settings r fast.line first last target p ∧
        Splices r first last target (g.answer calls p) outcome.result) ∧
      ∀ g' : Generator, g'.provider = g.provider → (∀ p ∈ outcome.prompts, g'.answer calls p = g.answer calls p) →
        locate settings project (some g') calls r = outcome := by
  intro outcome
  have hends : Ends settings project generator calls r outcome := locate_ends settings project generator calls r
  refine ⟨?_, ?_, ?_⟩
  · cases hprompts : outcome.prompts with
    | nil => exact Nat.zero_le 1
    | cons p rest =>
      have hp : p ∈ outcome.prompts := by rw [hprompts]; exact List.mem_cons_self
      rw [← hprompts, (hends.asked_of_mem hp).1]
      exact Nat.le_refl 1
  · constructor
    · intro hne
      obtain ⟨p, hp⟩ := List.exists_mem_of_ne_nil _ hne
      obtain ⟨-, g, filePath, fast, _, _, _, rfl, hdeclines, -⟩ := hends.asked_of_mem hp
      exact ⟨rfl, filePath, fast, hdeclines⟩
    · intro h
      obtain ⟨hg, filePath, fast, hdeclines⟩ := h
      obtain ⟨g, rfl⟩ := Option.isSome_iff_exists.mp hg
      obtain ⟨_, _, _, p, -, hprompts, -⟩ := locate_asks hdeclines g calls
      show (locate settings project (some g) calls r).prompts ≠ []
      rw [hprompts]
      exact List.cons_ne_nil p []
  · intro g hg
    subst hg
    refine ⟨?_, ?_⟩
    · intro p hp
      obtain ⟨-, g', filePath, fast, start, stop, target, hg, hdeclines, hs, hresult⟩ := hends.asked_of_mem hp
      cases hg
      obtain ⟨hlt, hle, hin⟩ := hs.inside
      rw [hresult]
      exact ⟨filePath, fast, start + 1, stop, target, hdeclines, hs.asks,
        patchOfReply_splices filePath g.provider target (Nat.lt_of_lt_of_le hlt hle) hin _⟩
    · intro g' hprovider hanswer
      exact hends.locate_eq hprovider hanswer

/-- An item of a list that nothing tells from the other: its line and the next one are shown, and replaced. -/
theorem item_is_shown_and_replaced :
    let settings : Settings := { fallbackContextLines := ⟨1, by decide⟩, reliableLineFloor := 2 }
    let r : Request := {
      sourceText := "<ul>\n<li>A</li>\n<li>B</li>\n</ul>".toList
      element := { tagName := "li".toList }
      change := .style [("color".toList, "red".toList)]
      reportedLine := some (.int 3) }
    let g : Generator := { answer := fun _ _ => .text "<li style='color:red'>B</li>\n</ul>".toList }
    let outcome := locate settings none (some g) 0 r
    (∃ p, outcome.prompts = [p] ∧ Asks settings r (some 3) 3 4 3 p) ∧
      ∃ patch, outcome.result = .ok (some patch) ∧ patch.line = 3 ∧
        patch.content = "<ul>\n<li>A</li>\n<li style='color:red'>B</li>\n</ul>".toList := by
  intro settings r g outcome
  have h : FastDeclines settings none r [] ⟨none, "style:reported-line".toList, some 3⟩ :=
    ⟨rfl, .inl rfl, by decide +kernel, nofun⟩
  obtain ⟨hone, hiff, hall⟩ := locate_asks_once settings none (some g) 0 r
  have hne : outcome.prompts ≠ [] := hiff.mpr ⟨rfl, [], _, h⟩
  obtain ⟨p, hp⟩ := List.length_eq_one_iff.mp (Nat.le_antisymm hone (List.length_pos_iff.mpr hne))
  have hmem : p ∈ outcome.prompts := by rw [hp]; exact List.mem_singleton.mpr rfl
  obtain ⟨filePath, fast, first, last, target, h', hasks, hsplices⟩ := (hall g rfl).1 p hmem
  obtain rfl := Except.ok.inj (h'.ended.symm.trans h.ended)
  obtain rfl : target = 3 := by
    rcases hasks.targets with ht | ⟨ht, -⟩
    · exact (Option.some.inj ht).symm
    · cases ht
  obtain ⟨rfl, rfl⟩ : first = 3 ∧ last = 4 := hasks.reach
  refine ⟨⟨p, hp, hasks⟩, ?_⟩
  have hparse : Fallback.parse "<li style='color:red'>B</li>\n</ul>".toList =
      .ok "<li style='color:red'>B</li>\n</ul>".toList := by decide +kernel
  obtain ⟨patch, hpatch⟩ := (hsplices.changed _ _ rfl hparse).mpr (by decide)
  obtain ⟨response, snippet, hreply, hparse', hlines, hline⟩ := hsplices.patched patch hpatch
  cases hreply
  obtain rfl := Except.ok.inj (hparse'.symm.trans hparse)
  refine ⟨patch, hpatch, hline, ?_⟩
  rw [← Text.unlines_lines patch.content, hlines]
  decide +kernel

end LiveEdit
