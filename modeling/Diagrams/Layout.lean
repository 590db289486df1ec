import Diagrams.Diagram.Part
import Diagrams.Layout.Entities
import Diagrams.Layout.Flowchart
import Diagrams.Layout.Mindmap
import Diagrams.Layout.Sequence

/-!
# Layouts

* `Chart`, `Diagram.chart` — a flowchart with its terminals and boxes.
* `Diagram.layout` — the boxes of the parts of a diagram.
* `DrawingError` — why a diagram has no boxes or no drawing: a part is of a kind that cannot be
  shown, or a flowchart is so wide that its columns lie beyond the range of numbers. Where both
  hold, the part is named.
-/

namespace Diagrams

/-- Why a diagram cannot be laid out or drawn. -/
inductive DrawingError where
  /-- A part is of another kind than the diagram. -/
  | unsupported (part : UnsupportedPart)
  /-- A number lies beyond the range of numbers. -/
  | outOfRange
  deriving DecidableEq, Repr

/-- A flowchart with the terminals that it gets, and its boxes. -/
structure Chart where
  /-- The nodes. -/
  nodes : List Node
  /-- The edges. -/
  edges : List Connector
  /-- The boxes of the nodes. -/
  boxes : Table Box
  deriving DecidableEq, Repr

/-- The flowchart that is drawn for a diagram. -/
def Diagram.chart (A : Number.Arithmetic) (d : Diagram) : Except DrawingError Chart := do
  let c := Layout.withTerminals d
  let nodes ← (nodesOrFail c.nodes).mapError .unsupported
  let edges := Layout.graphOf c.edges
  if Layout.columnsInRange A nodes edges d.flow then
    return ⟨nodes, c.edges, Layout.flowchart A nodes edges d.flow⟩
  else throw .outOfRange

/-- The boxes of a mindmap. -/
def Diagram.mindmapLayout (A : Number.Arithmetic) (d : Diagram) : Table Box :=
  Layout.mindmap A (d.nodes.map Element.id) (Layout.graphOf d.edges)

/-- The boxes of a diagram. -/
def Diagram.layout (A : Number.Arithmetic) (d : Diagram) : Except DrawingError (Table Box) :=
  match d.kind with
  | .known .sequence => .ok (Layout.sequence (d.parties.map Element.id))
  | .known .entityRelationship => do
    let entities ← (entitiesOrFail d.tables).mapError .unsupported
    return Layout.entities entities d.links
  | .known .mindmap => .ok (d.mindmapLayout A)
  | .known .flowchart | .other .. => Chart.boxes <$> d.chart A

end Diagrams
