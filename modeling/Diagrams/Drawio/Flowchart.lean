import Diagrams.Drawio.CellIds
import Diagrams.Drawio.Style
import Diagrams.Layout

/-!
# Drawing flowcharts

* `Route`, `route` — the course of an edge between two boxes.
* `labelOffset` — where the label of an edge stands.
* `groupBox` — the box around the members of a group.
* `drawnEdges` — the edges that are drawn: the first between any two nodes.
* `Chart.cells` — the cells of a flowchart: groups, nodes and edges.
-/

namespace Diagrams

namespace Drawio

open Number

/-! ## Edges -/

/-- The course of an edge. -/
structure Route extends Anchors where
  /-- The points through which it runs. -/
  waypoints : List Point := []
  deriving DecidableEq, Repr

/-- How far a branch must go to the side to leave a diamond at its side. -/
def branchSpread : Rat := 80

/-- How far two boxes may be apart in height and still be side by side. -/
def sameHeight : Rat := 20

/-- How far beside the boxes an edge runs that leads back up. -/
def backEdgeGap : Int := 60

/-- The course of an edge from a node of the given shape. A diamond's branches leave it at the side
to which they lead. Other edges lead down, or back up around the right side, or to the side. -/
def route (A : Arithmetic) (shape : Term Shape) (source target : Box) : Route :=
  let s := center A source
  let t := center A target
  let dx := A.sub t.x s.x
  let dy := A.sub t.y s.y
  if shape = Shape.diamond then
    if branchSpread < dx then ⟨⟨right, top⟩, [⟨t.x, s.y⟩]⟩
    else if dx < -branchSpread then ⟨⟨left, top⟩, [⟨t.x, s.y⟩]⟩
    else ⟨⟨bottom, top⟩, []⟩
  else if sameHeight < dy then ⟨⟨bottom, top⟩, []⟩
  else if dy < -sameHeight then
    let x : Rat := (max source.right target.right + backEdgeGap : Int)
    ⟨⟨right, right⟩, [⟨x, s.y⟩, ⟨x, t.y⟩]⟩
  else if 0 < dx then ⟨⟨right, left⟩, []⟩
  else ⟨⟨left, right⟩, []⟩

/-- Where labels of several edges from one node stand, by turns. -/
def branchOffsets : List Point := [⟨0, -10⟩, ⟨0, 10⟩, ⟨-20, 0⟩, ⟨20, 0⟩]

/-- Where labels stand otherwise. -/
def usualOffset : Point := ⟨0, -10⟩

/-- Where the label of an edge stands: among several labelled edges from one node, by its place. -/
def labelOffset (edges : List Connector) (e : Connector) : Point :=
  let labelled := edges.filter fun o => o.source == e.source && o.label != ""
  if labelled.length ≤ 1 then usualOffset
  else branchOffsets.getD ((labelled.findIdx? fun o => o.id == e.id).getD 0) usualOffset

/-- The edges whose two ends are among the names. -/
def knownEdges (names : List String) (edges : List Connector) : List Connector :=
  edges.filter fun e => names.contains e.source && names.contains e.target

/-- The first edge of each pair of ends that is not yet in `pairs`. -/
def firstOfPairs (pairs : List (String × String)) : List Connector → List Connector
  | [] => []
  | e :: rest =>
    if (e.source, e.target) ∈ pairs then firstOfPairs pairs rest
    else e :: firstOfPairs ((e.source, e.target) :: pairs) rest

/-- The edges that are drawn: those between nodes, one for each source and target. -/
def drawnEdges (names : List String) (edges : List Connector) : List Connector :=
  firstOfPairs [] (knownEdges names edges)

/-! ## Groups -/

/-- The room around the members of a group. -/
def padding : Int := 20

/-- The height of a group's title. -/
def titleHeight : Int := 30

/-- The box around the boxes of the members, with room at all sides and for the title. A group none
of whose members has a box has none. -/
def groupBox (boxes : Table Box) (members : List String) : Option Box := do
  let bs := members.filterMap boxes.get?
  let x ← (bs.map Box.x).min?
  let y ← (bs.map Box.y).min?
  let right ← (bs.map Box.right).max?
  let bottom ← (bs.map Box.bottom).max?
  return {
    x := x - padding
    y := y - padding - titleHeight
    width := right - x + padding * 2
    height := bottom - y + padding * 2 + titleHeight }

/-- Style text of a group. -/
def groupStyle : String := "swimlane;startSize=30;fillColor=#f5f5f5;strokeColor=#666666;"

/-- The groups that are drawn, each with its preferred name and its box. -/
def drawnGroups (boxes : Table Box) (groups : List Group) : List (String × Group × Box) :=
  groups.zipIdx.filterMap fun (g, i) =>
    (groupBox boxes g.members).map fun b => ("sg" ++ toString i, g, b)

/-- Whether the numbers that are written for cells lie in the range. -/
def cellsInRange (A : Arithmetic) (cells : List Cell) : Bool :=
  cells.all fun c => c.numbers.all fun q => A.inRange (A.round q)

end Drawio

/-! ## Flowcharts -/

namespace Chart

open Drawio Number

/-- The cell of a node, when it has a name and a box. -/
def nodeCell (c : Chart) (cellOf : Table String) (n : Node) : Option Cell := do
  let id ← cellOf.get? n.id
  let box ← c.boxes.get? n.id
  return .vertex { id, label := n.label, style := nodeStyle n, box }

/-- The shape of a node by its name. -/
def shapeOf (c : Chart) (name : String) : Option (Term Shape) :=
  Table.get? (.ofList (c.nodes.map fun n => (n.id, n.shape))) name

/-- The cell of an edge, when its ends are drawn. -/
def edgeCell (A : Arithmetic) (c : Chart) (cellOf : Table String) (id : String) (e : Edge) :
    Option Cell := do
  let source ← cellOf.get? e.source
  let target ← cellOf.get? e.target
  let shape ← c.shapeOf e.source
  let course := route A shape (← c.boxes.get? e.source) (← c.boxes.get? e.target)
  return .line {
    id, label := e.label, style := edgeStyle e.arrow ++ course.toAnchors.style
    ends := .cells source target
    waypoints := course.waypoints.map fun p => ⟨A.nearest (A.round p.x), A.nearest (A.round p.y)⟩
    offset := if e.label = "" then none else some (labelOffset c.edges (.edge e)) }

/-- The cells of groups, nodes and edges. Groups come first, so that they lie behind their
members. -/
def cellsWith (A : Arithmetic) (c : Chart) (groups : List Group) (edges : List Edge) : List Cell :=
  let names := c.nodes.map Node.id
  let groups := drawnGroups c.boxes groups
  let (nodeIds, ids) := CellIds.issueAll {} names
  let (groupIds, ids) := ids.issueAll (groups.map (·.1))
  let (edgeIds, _) := ids.issueAll (edges.map Edge.id)
  let cellOf := Table.ofList (names.zip nodeIds)
  (groupIds.zip groups).map (fun (id, _, g, box) =>
      .vertex { id, label := g.label, style := groupStyle, box }) ++
    c.nodes.filterMap (c.nodeCell cellOf) ++
    (edgeIds.zip edges).filterMap fun (id, e) => c.edgeCell A cellOf id e

/-- The cells of a flowchart, when all numbers that are written for them lie in the range. -/
def cells (A : Arithmetic) (c : Chart) (groups : List Group) :
    Except DrawingError (List Cell) := do
  let drawn := drawnEdges (c.nodes.map Node.id) c.edges
  let edges ← (edgesOrFail drawn).mapError .unsupported
  let cells := c.cellsWith A groups edges
  if cellsInRange A cells then return cells else throw .outOfRange

end Chart

end Diagrams
