/-
  LiveEdit.Fallback.Response — the snippet in an answer of the generator.

  If the answer holds a closed fence, the snippet is what stands inside the first one. An empty snippet and
  prose are refused.
-/

import LiveEdit.Text.Basic
import LiveEdit.Text.Blank
import LiveEdit.Text.Case

namespace LiveEdit.Fallback

inductive ResponseError where
  | empty
  | prose
  deriving DecidableEq, Repr

def ResponseError.message : ResponseError → Text
  | .empty => "Fallback returned an empty snippet".toList
  | .prose => "Fallback returned prose instead of code".toList

def fence : Text := ['\x60', '\x60', '\x60']

/-- Language tags of a fence; where one begins another, the longer stands first. -/
def languages : List Text := [
  "tsx".toList, "ts".toList, "jsx".toList, "js".toList, "typescript".toList, "javascript".toList]

def afterLanguage (t : Text) : Text := (languages.findSome? (Text.afterStart? · t)).getD t

/-- What stands in the first closed fence. -/
def fenced? (t : Text) : Option Text := do
  let (_, rest) ← Text.cut? fence t
  let (body, _) ← Text.cut? fence ((afterLanguage rest).dropWhile Text.isBlank)
  return body

/-! ## Prose -/

/-- Beginnings of answers that are not code. -/
def proseStarts : List Text := [
  "The provided".toList, "I cannot".toList, "I apologize".toList, "Unfortunately".toList,
  "This code".toList, "This update".toList, "This change".toList,
  "Here's how".toList, "Heres how".toList, "Here's an example".toList, "Heres an example".toList]

/-- Phrases that do not occur in code. -/
def prosePhrases : List Text := [
  "does not make sense".toList, "is not valid".toList, "is not a valid".toList,
  "you should".toList, "you can".toList, "you need to".toList]

def startsIgnoringCase (t phrase : Text) : Bool := (Text.afterStartIgnoringCase? phrase t).isSome

def occursIgnoringCase (phrase : Text) : Text → Bool
  | [] => false
  | c :: t => startsIgnoringCase (c :: t) phrase || occursIgnoringCase phrase t

def firstLine (t : Text) : Text := (Text.strip t).takeWhile (· ≠ '\n')

/-- The first line reads like an explanation. -/
def looksLikeProse (t : Text) : Bool :=
  proseStarts.any (startsIgnoringCase (firstLine t)) ||
    prosePhrases.any fun phrase => occursIgnoringCase phrase (firstLine t)

/-! ## Snippet -/

/-- The text that is taken for the snippet. -/
def snippetText (response : Text) : Text :=
  match fenced? (Text.strip response) with
  | some body => Text.strip body
  | none => Text.strip response

def parse (response : Text) : Except ResponseError Text :=
  let snippet := snippetText response
  if snippet.isEmpty then .error .empty
  else if looksLikeProse snippet then .error .prose
  else .ok snippet

end LiveEdit.Fallback
