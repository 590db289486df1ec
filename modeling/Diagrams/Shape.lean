import Diagrams.Vocabulary
import Diagrams.Text.Scan

/-!
# Shapes of nodes

* `Shape` — the six shapes, `Shape.look` how each is drawn.
* `Bracket` — the brackets in which a node's label is written, tried in a fixed order.
* `ShapedLabel.ofFragment` — the shape and label that a written fragment stands for.
* `levelLook` — the palette of mindmap levels.

The brackets overlap: `([x])` also opens with the round bracket and `[[x]]` with the square one.
The doubled and mixed brackets therefore come first, and a fragment that fits no bracket is a
rectangle labelled by the whole fragment.
-/

namespace Diagrams

/-- The shapes a node can have. -/
inductive Shape where
  | stadium
  | circle
  | subroutine
  | rectangle
  | roundedRect
  | diamond
  deriving DecidableEq, Repr

namespace Shape

/-- A shape's word. -/
def word : Shape → String
  | stadium => "stadium"
  | circle => "circle"
  | subroutine => "subroutine"
  | rectangle => "rectangle"
  | roundedRect => "roundedRect"
  | diamond => "diamond"

instance : Vocabulary Shape where
  all := [stadium, circle, subroutine, rectangle, roundedRect, diamond]
  name := word
  mem_all a := by cases a <;> decide
  name_injective a b h := by cases a <;> cases b <;> revert h <;> decide

end Shape

/-- How something is drawn: style text and the two colours. -/
structure Look where
  /-- Style text of the drawing. -/
  style : String
  /-- Colour of the inside. -/
  fill : String
  /-- Colour of the outline. -/
  stroke : String
  deriving DecidableEq, Repr

/-- How a shape is drawn. -/
def Shape.look : Shape → Look
  | .stadium => ⟨"rounded=1;arcSize=50;whiteSpace=wrap;html=1;", "#d5e8d4", "#82b366"⟩
  | .circle => ⟨"ellipse;whiteSpace=wrap;html=1;", "#f8cecc", "#b85450"⟩
  | .subroutine => ⟨"shape=process;whiteSpace=wrap;html=1;", "#e1d5e7", "#9673a6"⟩
  | .rectangle => ⟨"rounded=0;whiteSpace=wrap;html=1;", "#dae8fc", "#6c8ebf"⟩
  | .roundedRect => ⟨"rounded=1;whiteSpace=wrap;html=1;", "#fff2cc", "#d6b656"⟩
  | .diamond => ⟨"rhombus;whiteSpace=wrap;html=1;", "#ffe6cc", "#d79b00"⟩

/-! ## Written shapes -/

/-- The marks around a label. -/
structure Bracket where
  /-- The marks before the label. -/
  opening : List Char
  /-- The first mark after the label; the label cannot hold it. -/
  bar : Char
  /-- The marks after `bar`. -/
  closing : List Char
  /-- The shape that the marks stand for. -/
  shape : Shape
  deriving DecidableEq, Repr

/-- The brackets in the order in which they are tried. -/
def Bracket.all : List Bracket :=
  [⟨['(', '['], ']', [')'], .stadium⟩,
   ⟨['(', '('], ')', [')'], .circle⟩,
   ⟨['[', '['], ']', [']'], .subroutine⟩,
   ⟨['['], ']', [], .rectangle⟩,
   ⟨['('], ')', [], .roundedRect⟩,
   ⟨['{'], '}', [], .diamond⟩]

/-- The label between the marks, untrimmed. -/
def Bracket.body? (b : Bracket) (fragment : List Char) : Option (List Char) :=
  Text.bracketed? b.opening b.bar b.closing fragment

/-- A shape and the label written in it. -/
structure ShapedLabel where
  /-- The shape. -/
  shape : Shape
  /-- The label, trimmed. -/
  label : String
  deriving DecidableEq, Repr

/-- The first bracket that fits decides. A fragment that fits none is the label of a rectangle. -/
def ShapedLabel.ofFragment (fragment : List Char) : ShapedLabel :=
  match Bracket.all.findSome? fun b => (b.body? fragment).map fun body => (b.shape, body) with
  | some (shape, body) => ⟨shape, String.ofList (Text.trim body)⟩
  | none => ⟨.rectangle, String.ofList (Text.trim fragment)⟩

/-! ## Levels of a mindmap -/

/-- The colours of the levels: red, blue, green, yellow, purple, orange, and again from red. The
level may be negative; the palette repeats in both directions. -/
def levelColors (level : Int) : String × String :=
  match (level % 6).toNat with
  | 0 => ("#f8cecc", "#b85450")
  | 1 => ("#dae8fc", "#6c8ebf")
  | 2 => ("#d5e8d4", "#82b366")
  | 3 => ("#fff2cc", "#d6b656")
  | 4 => ("#e1d5e7", "#9673a6")
  | _ => ("#ffe6cc", "#d79b00")

end Diagrams
