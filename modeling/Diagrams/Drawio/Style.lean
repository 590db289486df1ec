import Diagrams.Cardinality
import Diagrams.Diagram
import Diagrams.Drawio.Document
import Diagrams.Number.Rounding

/-!
# Styles and anchors

Style text is a row of settings, each closed by a semicolon.

* `nodeStyle`, `topicStyle`, `edgeStyle`, `messageStyle`, `relationshipStyle` — how the parts of the
  dialects are drawn.
* `Anchors` — where a line leaves one box and enters another, in parts of the boxes' sides.
* `center` — the middle of a box.
-/

namespace Diagrams.Drawio

open Number

/-- Colours as settings. -/
def colors (fill stroke : String) : String :=
  "fillColor=" ++ fill ++ ";strokeColor=" ++ stroke ++ ";"

/-- A text, or another one when it is missing or empty. -/
def orElse (text : Option String) (default : String) : String :=
  match text with
  | none | some "" => default
  | some t => t

/-- A node of a flowchart; what it does not say is as for a rectangle. -/
def nodeStyle (n : Node) : String :=
  let usual := Shape.rectangle.look
  orElse n.style usual.style ++ colors (orElse n.fill usual.fill) (orElse n.stroke usual.stroke)

/-- A topic of a mindmap; colours that it does not have are named `None`. -/
def topicStyle (n : Node) : String :=
  n.style ++ colors (n.fill.getD "None") (n.stroke.getD "None") ++ "fontStyle=1;fontSize=11;"

/-- A line with right angles. -/
def orthogonal : String :=
  "edgeStyle=orthogonalEdgeStyle;rounded=0;orthogonalLoop=1;jettySize=auto;html=1;"

/-- An edge of a flowchart; thick lines are drawn as solid ones. -/
def edgeStyle (arrow : Option ArrowStyle) : String :=
  orthogonal ++
    (if arrow.any fun a => a.line = Term.known .dashed then "dashed=1;" else "") ++
    (if arrow.any fun a => a.head = Term.known .absent then "endArrow=none;"
     else "endArrow=classic;") ++
    "startArrow=none;"

/-- A message. Answers are dashed, and only a message whose sender waits has a filled head. -/
def messageStyle (line : Term LinePattern) (isAsync : Bool) : String :=
  if line = Term.known .dashed then "html=1;dashed=1;endArrow=open;"
  else if isAsync then "html=1;endArrow=open;"
  else "html=1;endArrow=block;endFill=1;"

/-- A relationship with its two marks. -/
def relationshipStyle (r : Relationship) : String :=
  orthogonal ++ cardinalityStyle r.startMark .start ++ cardinalityStyle r.endMark .finish ++
    "strokeWidth=1;" ++ if r.identifying then "" else "dashed=1;"

/-! ## Anchors -/

/-- Where a line leaves its source and enters its target. A point of the unit square stands for the
same part of the box. -/
structure Anchors where
  /-- Where it leaves the source. -/
  exit : Point
  /-- Where it enters the target. -/
  entry : Point
  deriving DecidableEq, Repr

/-- The middle of the upper side. -/
def top : Point := ⟨1 / 2, 0⟩

/-- The middle of the lower side. -/
def bottom : Point := ⟨1 / 2, 1⟩

/-- The middle of the left side. -/
def left : Point := ⟨0, 1 / 2⟩

/-- The middle of the right side. -/
def right : Point := ⟨1, 1 / 2⟩

/-- Anchors as settings. -/
def Anchors.style (a : Anchors) : String :=
  "exitX=" ++ coordinateText a.exit.x ++ ";exitY=" ++ coordinateText a.exit.y ++
    ";exitDx=0;exitDy=0;entryX=" ++ coordinateText a.entry.x ++ ";entryY=" ++
    coordinateText a.entry.y ++ ";entryDx=0;entryDy=0;"

/-- The middle of a box. -/
def center (A : Arithmetic) (b : Box) : Point :=
  ⟨A.add (A.ofInt b.x) (A.div b.width 2), A.add (A.ofInt b.y) (A.div b.height 2)⟩

end Diagrams.Drawio
