/-
  LiveEdit.Path — file paths as the browser reports them, and the files of the project they mean.

  A path of a dev server loses its host, its leading slashes and its query, and is then taken below the
  project. Absolute paths stay as they are.
-/

import LiveEdit.Text.Blank
import LiveEdit.Text.Digit
import LiveEdit.Text.Passage

namespace LiveEdit

inductive PathError where
  /-- A relative path, and no project to take it from. -/
  | noProject (path : Text)
  deriving DecidableEq, Repr

def PathError.message : PathError → Text
  | .noProject path => "No project path provided for relative path: ".toList ++ path

namespace Path

def absoluteRoots : List Text := ["/Users/".toList, "/home/".toList, "/var/".toList]

/-- A capital ASCII letter, a colon and a backslash. -/
def startsWithDrive : Text → Bool
  | letter :: ':' :: '\\' :: _ => letter.isUpper
  | _ => false

def isAbsolute (path : Text) : Bool :=
  absoluteRoots.any (·.isPrefixOf path) || startsWithDrive path

/-- A text that is one line, perhaps with a line feed at its end, without it. -/
def onlyLine? (t : Text) : Option Text :=
  let line := t.takeWhile (· ≠ '\n')
  if !line.isEmpty && (t.drop line.length).length ≤ 1 then some line else none

/-- What follows the host of a dev server, its number and a slash at the start of a text. -/
def serverPath? (t : Text) : Option Text := do
  let rest ← Text.afterStart? "localhost:".toList t
  let number := rest.takeWhile Text.isDecimalDigit
  match rest.drop number.length with
  | '/' :: path => if number.isEmpty then none else onlyLine? path
  | _ => none

/-- The path on a dev server, wherever its host stands; otherwise the whole text. -/
def withoutServer (path : Text) : Text :=
  match Text.Passage.first? (fun _ t => (serverPath? t).map fun p => (p, [])) none path with
  | some (_, p) => p
  | none => path

/-- A reported path relative to the project. -/
def clean (path : Text) : Text :=
  ((withoutServer path).dropWhile (· = '/')).takeWhile (· ≠ '?')

/-- The file that a path means. -/
def resolve (project : Option Text) (path : Text) : Except PathError Text :=
  if isAbsolute path then .ok path
  else
    match project with
    | some (c :: root) => .ok (Text.dropEndWhile (· = '/') (c :: root) ++ '/' :: clean path)
    | _ => .error (.noProject path)

/-- The path lies in a tree that is never edited: it holds a blocked fragment and no allowed one. Empty
fragments say nothing. -/
def isBlocked (path : Text) (blocked allowed : List Text) : Bool :=
  let holds (fragment : Text) : Bool := !fragment.isEmpty && Text.occurs fragment path
  !allowed.any holds && blocked.any holds

end Path

end LiveEdit
