/-
  LiveEdit.Fallback.Prompt — what the generator is told: the rules, the request as JSON, and the snippet.

  The snippet stands behind the JSON in a fence of its own, so that its line breaks are real ones.
-/

import LiveEdit.Json.Writer
import LiveEdit.Request
import LiveEdit.Text.Case

namespace LiveEdit.Fallback

/-- The rules, the same for every request. -/
def systemPrompt : Text := Text.unlines [
  ("You are a React/TypeScript code modifier. Given a code snippet and a requested change, " ++
    "output ONLY the modified snippet.").toList,
  "Rules:".toList,
  "1. Modify the existing element in place. Do not duplicate or remove elements.".toList,
  "2. For style changes, add or merge a style prop on the element's opening tag.".toList,
  "3. For text changes, update only the element's text content.".toList,
  "4. Preserve exact indentation and formatting of every untouched line.".toList,
  "5. Output the full snippet with no explanation, no prose, and no markdown.".toList]

/-! ## Window -/

/-- The lines around a target line, as the count of lines before them and the count up to their end. -/
def snippetWindow (lineCount target context : Int) : Int × Int :=
  (max 0 (target - context), min lineCount (target + context))

/-- A bound of a slice; a negative one counts from the end. -/
def sliceBound (count : Nat) (bound : Int) : Nat :=
  if bound < 0 then (count + bound).toNat else bound.toNat

def slice (lines : List Text) (start stop : Int) : List Text :=
  (lines.take (sliceBound lines.length stop)).drop (sliceBound lines.length start)

/-! ## Change -/

/-- A property in small letters, with a hyphen before each ASCII capital. -/
def kebabCase (property : Text) : Text :=
  Text.lower (property.flatMap fun c => if c.isUpper then ['-', c] else [c])

/-- The change in words. -/
def describe : Change → Text
  | .style css =>
    "CSS changes to apply: ".toList ++
      Text.joinWith "; ".toList (css.map fun (property, value) =>
        kebabCase property ++ ':' :: ' ' :: value)
  | .attribute name new _ =>
    "Set the ".toList ++ name ++ " attribute to ".toList ++ Text.quoted new
  | .text old new =>
    "Change the text ".toList ++ Text.quoted old ++ " to ".toList ++ Text.quoted new

/-! ## Request -/

/-- What the generator learns of a request: the members of its payload. -/
structure Brief where
  sourceFile : Text
  snippet : Text
  /-- The first and the last line of the snippet, counted from one. -/
  firstLine : Int
  lastLine : Int
  /-- The line to look at, if it can be trusted. -/
  target : Option Int
  element : Element
  change : Change

namespace Brief

/-- A brief for the lines from `start` up to `stop`. -/
def ofLines (lines : List Text) (start stop target : Int) (reliable : Bool) (element : Element)
    (change : Change) (sourceFile : Text) : Brief where
  sourceFile := sourceFile
  snippet := Text.unlines (slice lines start stop)
  firstLine := start + 1
  lastLine := stop
  target := if reliable then some target else none
  element := element
  change := change

/-- An empty text as null. -/
def orNull (t : Text) : Value := if t.isEmpty then .null else .str t

def elementValue (e : Element) : Value := .map [
  ("tag".toList, .str e.tagName),
  ("classes".toList, orNull e.className),
  ("id".toList, orNull e.id),
  ("text".toList, orNull (e.text.take 100)),
  ("attributes".toList, .map (e.attributes.map fun (name, t) => (name, .str t)))]

/-- All of it as one mapping. -/
def payload (b : Brief) : Assoc Value := [
  ("source_file".toList, .str b.sourceFile),
  ("snippet".toList, .str b.snippet),
  ("snippet_lines".toList, .list [.int b.firstLine, .int b.lastLine]),
  ("target_line".toList, (b.target.map Value.int).getD .null),
  ("element".toList, elementValue b.element),
  ("change_kind".toList, .str b.change.kind),
  ("change".toList, .str (describe b.change))]

/-- The payload without its snippet. -/
def request (b : Brief) : Value := .map (b.payload.filter fun entry => entry.1 ≠ "snippet".toList)

/-- The request followed by the snippet. -/
def prompt (b : Brief) : Text :=
  "Request:\n".toList ++ Json.pretty b.request ++ "\n\nCode snippet:\n\x60\x60\x60tsx\n".toList ++
    b.snippet ++ "\n\x60\x60\x60".toList

end Brief

end LiveEdit.Fallback
