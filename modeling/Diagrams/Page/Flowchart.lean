import Diagrams.Layout
import Diagrams.Page.Block
import Diagrams.Text.Scan

/-!
# The page of a flowchart

* `Node.role` — what a node seems to be for, told from its shape and label.
* `Diagram.flowchartPage` — tables of nodes and edges, the groups, and the points where the flow
  starts, ends and branches.
-/

namespace Diagrams

/-- A shape in words. -/
def Shape.title : Shape → String
  | stadium => "Stadium (Terminal)"
  | circle => "Circle"
  | subroutine => "Subroutine"
  | rectangle => "Rectangle"
  | roundedRect => "Rounded Rectangle"
  | diamond => "Diamond (Decision)"

/-- A shape in words; a foreign word stands for itself. -/
def shapeTitle : Term Shape → String
  | .known s => s.title
  | .other word _ => word

/-- A direction in words. -/
def Direction.title : Direction → String
  | td | tb => "Top to Bottom"
  | bt => "Bottom to Top"
  | lr => "Left to Right"
  | rl => "Right to Left"

/-- A direction in words; a foreign word stands for itself. -/
def directionTitle : Term Direction → String
  | .known d => d.title
  | .other word _ => word

/-- Whether the label speaks of one of the words, case being ignored. -/
def mentions (label : String) (words : List String) : Bool :=
  words.any fun w => Text.contains w.toList (Text.lower label.toList)

/-- What a node seems to be for. -/
def Node.role (n : Node) : String :=
  match n.shape with
  | .known .stadium =>
    if mentions n.label ["start", "begin"] then "Process start point"
    else if mentions n.label ["end", "finish"] then "Process end point"
    else "Terminal node"
  | .known .diamond => "Decision/branching point"
  | .known .subroutine => "Subprocess or external routine"
  | .known .circle => "Connection point or state"
  | .known .rectangle | .known .roundedRect | .other .. => "Process step"

namespace Page

/-- The row of a node. -/
def nodeRow (n : Node) : List String :=
  [quoted n.id, cell n.label, shapeTitle n.shape, n.role]

/-- The row of the edge with the given place. -/
def edgeRow (place : Nat) (e : Edge) : List String :=
  [toString (place + 1), quoted e.source, quoted e.target, orDash (cell e.label),
    match e.arrow with
    | some a => a.line.name
    | none => LinePattern.solid.word]

/-- The section of a group. -/
def groupSection (g : Group) : Page :=
  [.heading 3 g.label, .blank, .line ("**ID**: " ++ quoted g.id), .blank,
    .line ("**Contains**: " ++ ", ".intercalate (g.members.map quoted)), .blank]

/-- A list of points of the flow, under a heading. -/
def points (title : String) (nodes : List Node) : Page :=
  [.heading 3 title,
    .items <|
      if nodes = [] then [(0, "None identified")]
      else nodes.map fun n => (0, quoted n.id ++ " (" ++ n.label ++ ")"),
    .blank]

end Page

open Page in
/-- The page of a flowchart and its source. -/
def Diagram.flowchartPage (d : Diagram) (code : String) : Except UnsupportedPart Page := do
  let nodes ← nodesOrFail d.nodes
  let edges ← edgesOrFail d.edges
  let atEnds (ends : List Element → List Connector → List Element) : List Node :=
    (ends d.nodes d.edges).filterMap Element.asNode?
  return [
    .heading 1 "Flowchart Documentation", .blank, .heading 2 "Overview", .blank,
    .line ("This is a **Flowchart** diagram with a **" ++ directionTitle d.flow ++ "** layout."),
    .blank,
    .items [count "Total Nodes" nodes.length, count "Total Connections" edges.length,
      count "Subgraphs" d.groups.length],
    .blank] ++
    chapter "Entities (Nodes)" ++
    [.table ["ID", "Label", "Shape", "Description"] (nodes.map nodeRow), .blank] ++
    chapter "Relationships (Connections)" ++
    [.table ["#", "From", "To", "Label", "Arrow Type"]
      (edges.zipIdx.map fun (e, i) => edgeRow i e), .blank] ++
    (if d.groups = [] then []
      else chapter "Subgraphs (Groups)" ++ d.groups.flatMap groupSection) ++
    chapter "Flow Analysis" ++
    points "Entry Points" (atEnds entryPoints) ++
    points "Exit Points" (atEnds exitPoints) ++
    points "Decision Points" (nodes.filter fun n => n.shape = Term.known .diamond) ++
    source "Original Mermaid Code" code

end Diagrams
