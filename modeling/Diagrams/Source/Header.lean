import Diagrams.Diagram
import Diagrams.Source.Fence

/-!
# Header lines

The first line that counts says what kind of diagram the text holds.

* `Declared` — the kinds that a header can name; four of them are dialects.
* `Declared.ofLine?` — the kind that a line names.
* `directionIn?` — the first direction in a line that stands as a word of its own.
-/

namespace Diagrams.Source

open Text

/-- The kinds of diagram that a header can name. -/
inductive Declared where
  | flowchart
  | sequence
  | classes
  | entityRelationship
  | states
  | gitGraph
  | mindmap
  deriving DecidableEq, Repr

namespace Declared

/-- A kind's word. -/
def word : Declared → String
  | flowchart => "flowchart"
  | sequence => "sequence"
  | classes => "class"
  | entityRelationship => "erDiagram"
  | states => "state"
  | gitGraph => "gitgraph"
  | mindmap => "mindmap"

/-- The keywords in small letters, in the order in which they are tried. -/
def keywords : List (List Char × Declared) :=
  [("flowchart".toList, flowchart), ("graph".toList, flowchart),
   ("sequencediagram".toList, sequence), ("classdiagram".toList, classes),
   ("erdiagram".toList, entityRelationship), ("statediagram".toList, states),
   ("gitgraph".toList, gitGraph), ("mindmap".toList, mindmap)]

/-- The kind whose keyword the line starts with, in letters of either case. Whatever follows the
keyword, even without a gap, does not matter. -/
def ofLine? (line : List Char) : Option Declared :=
  (keywords.find? fun k => startsWith k.1 (lower (trim line))).map (·.2)

end Declared

/-! ## Directions -/

/-- The direction of two letters of either case. -/
def direction? (a b : Char) : Option Direction :=
  match a.toLower, b.toLower with
  | 't', 'd' => some .td
  | 't', 'b' => some .tb
  | 'b', 't' => some .bt
  | 'l', 'r' => some .lr
  | 'r', 'l' => some .rl
  | _, _ => none

/-- Whether the text starts with a character that is no word character, or is empty. -/
def wordEnds : List Char → Bool
  | [] => true
  | c :: _ => !isWord c

/-- The first direction that is a whole word, given whether a word character stands before the
text. -/
def directionFrom? (inWord : Bool) : List Char → Option Direction
  | [] => none
  | [_] => none
  | a :: b :: rest =>
    match if !inWord && wordEnds rest then direction? a b else none with
    | some d => some d
    | none => directionFrom? (isWord a) (b :: rest)

/-- The first direction in the text that is a whole word. -/
def directionIn? (cs : List Char) : Option Direction := directionFrom? false cs

/-- The direction that a flowchart's header gives, top-down when it gives none. -/
def headerDirection (line : List Char) : Direction :=
  (directionIn? (lower (trim line))).getD .td

end Diagrams.Source
