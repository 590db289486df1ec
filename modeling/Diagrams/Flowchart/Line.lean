import Diagrams.Arrow
import Diagrams.Text.Scan

/-!
# Lines of a flowchart

A line is a group's start, a group's end, a connection or the declaration of a node, tried in this
order; any other line has no effect.

* `Flowchart.Line` — what a line says.
* `Flowchart.Target` — the end of a connection: a name and perhaps a shape.
* `Flowchart.Line.ofText` — the reading of a line.

The shape of a connection's source is the shortest bracketed text after which an arrow follows, so a
label may hold arrows. The shape of a target must reach to the end of the line; when more text
follows it the target is its name alone.
-/

namespace Diagrams.Flowchart

open Text

/-- A character that opens a shape. -/
def isOpening (c : Char) : Bool := c == '[' || c == '(' || c == '{'

/-- A character that closes a shape. -/
def isClosing (c : Char) : Bool := c == ']' || c == ')' || c == '}'

/-- The end of a connection. -/
structure Target where
  /-- The name. -/
  id : String
  /-- The shape as written, when there is one. -/
  fragment : Option (List Char)
  deriving DecidableEq, Repr

/-- What a line says. -/
inductive Line where
  /-- A group starts. -/
  | groupStart (id label : String)
  /-- A group ends. -/
  | groupEnd
  /-- An edge from a node, whose shape may be written too, to another. -/
  | connection (source : Target) (arrow : Arrow) (label : String) (target : Target)
  /-- A node with its shape. -/
  | declaration (id : String) (fragment : List Char)
  /-- Nothing that counts. -/
  | ignored
  deriving DecidableEq, Repr

/-! ## Shapes -/

/-- Every way of cutting the text after a closing character, the shortest first. The part before
the cut holds no newline. -/
def cuts : List Char → List (List Char × List Char)
  | [] => []
  | c :: cs =>
    if c = '\n' then []
    else
      let later := (cuts cs).map fun p => (c :: p.1, p.2)
      if isClosing c then ([c], cs) :: later else later

/-- Every way of splitting off a shape from the start of the text, the shortest first; when no
shape opens there, the text without a shape. -/
def shapeSplits : List Char → List (Option (List Char) × List Char)
  | [] => [(none, [])]
  | c :: cs =>
    if isOpening c then (cuts cs).map fun p => (some (c :: p.1), p.2) else [(none, c :: cs)]

/-- Whether the whole text is one line that opens a shape at its start and closes it at its end,
with at least `inside` characters between. -/
def isWhole (inside : Nat) (cs : List Char) : Bool :=
  cs.head?.any isOpening && cs.getLast?.any isClosing && inside + 2 ≤ cs.length &&
    !cs.contains '\n'

/-! ## Connections -/

/-- A target without the semicolons after it. -/
def bareTarget (cs : List Char) : List Char := trim (dropTrailing (· == ';') (trim cs))

/-- The target that a text names. -/
def Target.ofText? (cs : List Char) : Option Target := do
  let (id, rest) ← name? (bareTarget cs)
  return ⟨String.ofList id, if isWhole 0 rest then some rest else none⟩

/-- The text of a target: what is left of the line after white space. -/
def targetText? (cs : List Char) : Option (List Char) := line? (trimLeft cs)

/-- The label in bars right after an arrow and the text of the target after it. When the bars are
not closed, or no single line follows, the target starts with the bar. -/
def labelled? (cs : List Char) : Option (List Char × List Char) :=
  let plain := (targetText? cs).map fun t => ([], t)
  match cs with
  | '|' :: rest =>
    match rest.dropWhile (· != '|') with
    | _ :: rest' =>
      match targetText? rest' with
      | some t => some (rest.takeWhile (· != '|'), t)
      | none => plain
    | [] => plain
  | _ => plain

/-- The arrow after white space, the label after it and the text of the target. -/
def link? (cs : List Char) : Option (Arrow × List Char × List Char) := do
  let (arrow, rest) ← Arrow.ofStart? (trimLeft cs)
  let (label, target) ← labelled? rest
  return (arrow, label, target)

/-- The parts of a connection: the source, its shape, and the link. The first way of splitting off
the shape that leaves a link counts. -/
def connection? (cs : List Char) :
    Option (List Char × Option (List Char) × Arrow × List Char × List Char) := do
  let (id, rest) ← name? cs
  let (fragment, arrow, label, target) ← (shapeSplits rest).findSome? fun s =>
    (link? s.2).map fun l => (s.1, l)
  return (id, fragment, arrow, label, target)

/-! ## Lines -/

/-- The text after the keyword of a group's start. -/
def afterGroupKeyword? (cs : List Char) : Option (List Char) := do
  let rest ← after? "subgraph".toList cs
  if rest.head?.any isWord then none else some rest

/-- The name of a group and its label, which is the name unless one is given in square brackets. -/
def groupHeader? (cs : List Char) : Option (List Char × List Char) := do
  let (id, rest) ← name? (← gap? cs)
  match trimLeft rest with
  | '[' :: rest =>
    let label := rest.takeWhile (· != ']')
    if label ≠ [] ∧ label.length < rest.length then some (id, label) else some (id, id)
  | _ => some (id, id)

/-- The name of a node and the shape that reaches to the end of the line. -/
def declaration? (cs : List Char) : Option (List Char × List Char) := do
  let (id, rest) ← name? cs
  if isWhole 1 (chomp rest) then some (id, chomp rest) else none

/-- What a line says. A line that starts a group without a name, and a connection to no name, are
ignored. -/
def Line.ofText (cs : List Char) : Line :=
  match afterGroupKeyword? cs with
  | some rest =>
    match groupHeader? rest with
    | some (id, label) => groupStart (String.ofList id) (String.ofList label)
    | none => ignored
  | none =>
    if cs = ['e', 'n', 'd'] then groupEnd
    else
      match connection? cs with
      | some (id, fragment, arrow, label, text) =>
        match Target.ofText? text with
        | some target =>
          connection ⟨String.ofList id, fragment⟩ arrow (String.ofList (trim label)) target
        | none => ignored
      | none =>
        match declaration? cs with
        | some (id, fragment) => declaration (String.ofList id) fragment
        | none => ignored

end Diagrams.Flowchart
