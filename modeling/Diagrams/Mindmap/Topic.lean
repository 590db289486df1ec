import Diagrams.Shape

/-!
# Topics of a mindmap

* `Mindmap.Mark` — the marks in which a topic is written, tried in a fixed order.
* `Mindmap.Topic.ofText` — the label and shape of a topic.
* `Mindmap.depth` — how deep a line is indented.
-/

namespace Diagrams.Mindmap

open Text

/-- The marks around a topic's label. -/
structure Mark where
  /-- The marks before the label. -/
  opening : List Char
  /-- The marks after the label. -/
  closing : List Char
  /-- The shape they stand for. -/
  shape : Shape
  deriving DecidableEq, Repr

/-- The marks in the order in which they are tried. -/
def Mark.all : List Mark :=
  [⟨"root((".toList, [')', ')'], .circle⟩, ⟨['('], [')'], .roundedRect⟩, ⟨['['], [']'], .rectangle⟩]

/-- A topic as written. -/
abbrev Topic := ShapedLabel

/-- The first marks that enclose the whole text give the shape and the trimmed label. Text without
marks is the label of a rectangle as it stands. -/
def Topic.ofText (cs : List Char) : Topic :=
  let marked := Mark.all.findSome? fun m =>
    (enclosed? m.opening m.closing cs).map fun label => (m.shape, label)
  match marked with
  | some (shape, label) => ⟨shape, String.ofList (trim label)⟩
  | none => ⟨.rectangle, String.ofList cs⟩

/-- Two characters of white space at the start of a line make one level. -/
def depth (line : List Char) : Nat := (line.length - (trimLeft line).length) / 2

/-- Whether the line gives the picture of a topic rather than a topic. -/
def isIcon (line : List Char) : Bool := startsWith "::icon(".toList (trim line)

end Diagrams.Mindmap
