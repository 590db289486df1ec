import Diagrams.Vocabulary
import Diagrams.Text.Lines

/-!
# Arrows

* `LinePattern`, `ArrowHead`, `ArrowStyle` — how a line is drawn, what it ends in, and both.
* `Arrow` — the arrows of flowchart connections, with their written form.
* `ArrowStyle.ofToken` — the style of the first known mark that a piece of text holds.
-/

namespace Diagrams

/-- How a line is drawn. -/
inductive LinePattern where
  | solid
  | dashed
  | thick
  deriving DecidableEq, Repr

/-- A pattern's word. -/
def LinePattern.word : LinePattern → String
  | solid => "solid"
  | dashed => "dashed"
  | thick => "thick"

instance : Vocabulary LinePattern where
  all := [.solid, .dashed, .thick]
  name := LinePattern.word
  mem_all a := by cases a <;> decide
  name_injective a b h := by cases a <;> cases b <;> revert h <;> decide

/-- What a line ends in. -/
inductive ArrowHead where
  | classic
  | absent
  deriving DecidableEq, Repr

/-- A head's word. -/
def ArrowHead.word : ArrowHead → String
  | classic => "classic"
  | absent => "none"

instance : Vocabulary ArrowHead where
  all := [.classic, .absent]
  name := ArrowHead.word
  mem_all a := by cases a <;> decide
  name_injective a b h := by cases a <;> cases b <;> revert h <;> decide

/-- The style of an edge. -/
structure ArrowStyle where
  /-- How the line is drawn. -/
  line : Term LinePattern := LinePattern.solid
  /-- What it ends in. -/
  head : Term ArrowHead := ArrowHead.classic
  /-- Whether the mark announces a label. -/
  hasLabel : Bool := false
  deriving DecidableEq, Repr

/-- The word with its first letter large and the others small. -/
def capitalized (word : String) : String :=
  match word.toList with
  | [] => ""
  | c :: cs => String.ofList (c.toUpper :: cs.map Char.toLower)

/-- Line and head in one word, such as `dashedClassic`. -/
def ArrowStyle.kind (s : ArrowStyle) : String := s.line.name ++ capitalized s.head.name

/-- The arrows of connections. -/
inductive Arrow where
  | solid
  | solidOpen
  | dotted
  | dottedOpen
  | thick
  deriving DecidableEq, Repr

namespace Arrow

/-- The arrows, the dotted one with a head before the one without, whose form it starts with. -/
def all : List Arrow := [solid, solidOpen, dotted, dottedOpen, thick]

/-- The written form. -/
def token : Arrow → List Char
  | solid => ['-', '-', '>']
  | solidOpen => ['-', '-', '-']
  | dotted => ['-', '.', '-', '>']
  | dottedOpen => ['-', '.', '-']
  | thick => ['=', '=', '>']

/-- The style that the arrow draws. -/
def style : Arrow → ArrowStyle
  | solid => ⟨LinePattern.solid, ArrowHead.classic, false⟩
  | solidOpen => ⟨LinePattern.solid, ArrowHead.absent, false⟩
  | dotted => ⟨LinePattern.dashed, ArrowHead.classic, false⟩
  | dottedOpen => ⟨LinePattern.dashed, ArrowHead.absent, false⟩
  | thick => ⟨LinePattern.thick, ArrowHead.classic, false⟩

/-- The arrow at the start of the text, and the rest. -/
def ofStart? (cs : List Char) : Option (Arrow × List Char) :=
  all.findSome? fun a => (Text.after? a.token cs).map fun rest => (a, rest)

end Arrow

/-- The marks that name a style, in the order in which they are looked for: the arrows, and the
two marks that announce a label. -/
def arrowMarks : List (List Char × ArrowStyle) :=
  Arrow.all.map (fun a => (a.token, a.style)) ++
    [(['-', '-', '>', '|'], ⟨LinePattern.solid, ArrowHead.classic, true⟩),
     (['-', '-', '|'], ⟨LinePattern.solid, ArrowHead.absent, true⟩)]

/-- The style of the first mark in the list that the text holds anywhere; a solid line with a head
when it holds none. -/
def ArrowStyle.ofToken (text : List Char) : ArrowStyle :=
  match arrowMarks.find? fun m => Text.contains m.1 text with
  | some m => m.2
  | none => {}

/-- An arrow's own form names its style. -/
theorem ArrowStyle.ofToken_token (a : Arrow) : ArrowStyle.ofToken a.token = a.style := by
  cases a <;> rfl

end Diagrams
