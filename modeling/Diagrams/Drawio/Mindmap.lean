import Diagrams.Drawio.CellIds
import Diagrams.Drawio.Flowchart
import Diagrams.Drawio.Style
import Diagrams.Layout

/-!
# Drawing mindmaps

* `topicCell` — a topic; topics without a box stand at a fixed place.
* `branchCell` — a line between two topics.
* `Diagram.mindmapCells` — the cells of a mindmap.
-/

namespace Diagrams

namespace Drawio

/-- Where a topic stands that has no box. -/
def strayBox : Box := ⟨100, 100, 120, 36⟩

/-- Style text of a line between topics. -/
def branchStyle : String :=
  "edgeStyle=orthogonalEdgeStyle;curved=1;rounded=1;orthogonalLoop=1;jettySize=auto;" ++
  "html=1;endArrow=none;strokeWidth=2;strokeColor=#666666;" ++ Anchors.style ⟨right, left⟩

/-- The cell of a topic, when it has a name. -/
def topicCell (boxes : Table Box) (cellOf : Table String) (n : Node) : Option Cell := do
  let id ← cellOf.get? n.id
  return .vertex { id, label := n.label, style := topicStyle n, box := boxes.getD n.id strayBox }

/-- The cell of an edge, when its ends are drawn. -/
def branchCell (cellOf : Table String) (id : String) (c : Connector) : Option Cell := do
  let source ← cellOf.get? c.source
  let target ← cellOf.get? c.target
  return .line { id, label := "", style := branchStyle, ends := .cells source target }

end Drawio

open Drawio in
/-- The cells of a mindmap with the boxes of its topics: topics and lines. -/
def Diagram.mindmapCells (boxes : Table Box) (d : Diagram) :
    Except UnsupportedPart (List Cell) := do
  let nodes ← nodesOrFail d.nodes
  let names := nodes.map Node.id
  let edges := knownEdges names d.edges
  let (topicIds, ids) := CellIds.issueAll {} names
  let (lineIds, _) := ids.issueAll (edges.map Connector.id)
  let cellOf := Table.ofList (names.zip topicIds)
  return nodes.filterMap (topicCell boxes cellOf) ++
    (lineIds.zip edges).filterMap fun (id, c) => branchCell cellOf id c

end Diagrams
