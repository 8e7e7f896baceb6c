/-
  LiveEdit.Settings — the limits within which the locator works without help.

  Radii, caps and the context are at least one; the score and the line floor may be zero.
-/

import LiveEdit.Text.Basic

namespace LiveEdit

/-- A whole number of at least one. -/
abbrev Positive := { n : Nat // 0 < n }

structure Settings where
  /-- How many lines above and below the reported one a text change may look at. -/
  textScopeRadius : Positive := ⟨80, by decide⟩
  /-- How many lines above and below the target one is searched for the element's tag. -/
  styleScanRadius : Positive := ⟨40, by decide⟩
  /-- How many lines an opening tag may be wrapped over. -/
  tagBlockMaxLines : Positive := ⟨12, by decide⟩
  minScore : Nat := 50
  maxStableAttributes : Positive := ⟨3, by decide⟩
  /-- Reported lines below this one are not trusted. -/
  reliableLineFloor : Nat := 5
  fallbackContextLines : Positive := ⟨100, by decide⟩
  /-- Attributes that the inspector itself puts on elements. -/
  instrumentationAttributes : List Text :=
    ["data-cluso-id".toList, "data-cluso-name".toList, "data-cluso-ui".toList]
  blockedPathFragments : List Text := []
  allowedPathFragments : List Text := []
  deriving DecidableEq

end LiveEdit
