import Diagrams.Text.Lines

/-!
# Paths

* `Start` — where a way starts: at the working folder or at the root.
* `Path` — the names on the way to a file.
* `Path.ofText`, `Path.verbatim` — a written path with the steps left out that lead nowhere, and
  with all of them.
* `Path.text`, `Path.parent`, `Path.stem`, `Path.within` — the written form and parts of a path.
* `Path.resolve` — the path from the root, with every step up taken.
-/

namespace Diagrams.Files

/-- Where a way starts. -/
inductive Start where
  /-- At the working folder. -/
  | here
  /-- At the root, written with one slash. -/
  | root
  /-- At the root, written with two slashes, which a system may tell from one. -/
  | doubleRoot
  deriving DecidableEq, Repr

namespace Start

/-- The written form. -/
def text : Start → String
  | here => ""
  | root => "/"
  | doubleRoot => "//"

/-- The start of a written path. More than two slashes are as good as one. -/
def ofText : List Char → Start
  | '/' :: '/' :: '/' :: _ => root
  | '/' :: '/' :: _ => doubleRoot
  | '/' :: _ => root
  | _ => here

end Start

/-- The names on the way to a file. -/
structure Path where
  /-- The start. -/
  start : Start := .here
  /-- The steps. -/
  steps : List String := []
  deriving DecidableEq, Repr

namespace Path

/-- The step to the folder above. -/
def up : String := ".."

/-- Whether the way starts at the root. -/
def isAbsolute (p : Path) : Bool := p.start != .here

/-- The path as it is written, with empty steps and steps that stay. -/
def verbatim (text : String) : Path :=
  let steps := (Text.split '/' text.toList).map String.ofList
  match steps with
  | "" :: second :: rest => ⟨.root, second :: rest⟩
  | steps => ⟨.here, steps⟩

/-- Whether a step stays where it is. -/
def stays (step : String) : Bool := step == "" || step == "."

/-- The path of a text, without the steps that stay. -/
def ofText (text : String) : Path :=
  ⟨.ofText text.toList, (verbatim text).steps.filter fun s => !stays s⟩

/-- The written form. -/
def text (p : Path) : String :=
  if p.steps = [] ∧ p.start = .here then "." else p.start.text ++ "/".intercalate p.steps

/-- Whether a name in the path holds the null character, which no file's name does. -/
def hasNull (p : Path) : Bool := p.steps.any fun s => s.toList.contains '\x00'

/-- The folder in which the path ends; a path without steps is its own. -/
def parent (p : Path) : Path := { p with steps := p.steps.dropLast }

/-- The path with one more step. -/
def within (folder : Path) (name : String) : Path :=
  { folder with steps := folder.steps ++ [name] }

/-- The last step. -/
def name (p : Path) : String := p.steps.getLast?.getD ""

/-- The part of a name before its last point. A point at the start or the end of the name does not
count. -/
def stemOf (name : List Char) : List Char :=
  let tail := (name.reverse.takeWhile (· != '.')).reverse
  let start := name.take (name.length - tail.length - 1)
  if tail.length < name.length ∧ tail ≠ [] ∧ start ≠ [] then start else name

/-- The last name without its ending. -/
def stem (p : Path) : String := String.ofList (stemOf p.name.toList)

/-- The steps with every step up taken: each takes back the step before it. -/
def climb (steps : List String) : List String :=
  steps.foldl (fun way s => if s = up then way.dropLast else way ++ [s]) []

/-- The path from the root, for a path from the given working folder. -/
def resolve (p home : Path) : Path :=
  if p.isAbsolute then ⟨.root, climb p.steps⟩
  else { home with steps := climb (home.steps ++ p.steps) }

/-- The folder and all folders above it, the nearest first, up to the root. Above the working folder
they are reached by steps up, as many as the working folder's own path has steps. -/
def andAbove (home folder : Path) : List Path :=
  let below := (List.range (folder.steps.length + 1)).map fun n =>
    folder.steps.take (folder.steps.length - n)
  let above := (List.range home.steps.length).map fun n => List.replicate (n + 1) up
  (below ++ if folder.isAbsolute then [] else above).map fun steps => { folder with steps }

end Path

end Diagrams.Files
