import Diagrams.Diagram
import Diagrams.Text.Scan

/-!
# Terminals

Flowcharts are drawn with a node where they start and a node where they stop.

* `Layout.Charted` — the nodes and edges to be drawn.
* `Layout.withTerminals` — those of a diagram, with the terminals added.

No terminal is added where none of the nodes could be connected with it, or where a node has its
name already. Only diagrams that are called flowcharts get terminals.
-/

namespace Diagrams.Layout

/-- The nodes and edges to be drawn. -/
structure Charted where
  /-- The nodes. -/
  nodes : List Element
  /-- The edges. -/
  edges : List Connector
  deriving DecidableEq, Repr

/-- Whether a name or label is one of the words, case being ignored. -/
def isNamed (words : List String) (n : Element) : Bool :=
  let small (s : String) : String := String.ofList (Text.lower s.toList)
  words.contains (small n.id) || words.contains (small n.label)

/-- The terminal where a flowchart starts. -/
def startNode : Node := .shaped "Start" ⟨.stadium, "Start"⟩

/-- The terminal where a flowchart stops; it has the colours of a circle. -/
def stopNode : Node :=
  { Node.shaped "Stop" ⟨.stadium, "Stop"⟩ with
    fill := some Shape.circle.look.fill, stroke := some Shape.circle.look.stroke }

/-- The edge from the start to a node. -/
def startEdge (n : Element) : Edge :=
  { id := "e_start_" ++ n.id, source := startNode.id, target := n.id }

/-- The edge from a node to the stop. -/
def stopEdge (n : Element) : Edge :=
  { id := "e_" ++ n.id ++ "_stop", source := n.id, target := stopNode.id }

/-- The chart with the start in front, and its edges in reverse order before the others. -/
def Charted.addStart (c : Charted) (starts : List Element) : Charted :=
  if starts = [] ∨ c.nodes.any (isNamed ["start"]) then c
  else
    { nodes := .node startNode :: c.nodes
      edges := (starts.map fun n => .edge (startEdge n)).reverse ++ c.edges }

/-- The chart with the stop at the end, and its edges after the others. -/
def Charted.addStop (c : Charted) (stops : List Element) : Charted :=
  if stops = [] ∨ c.nodes.any (isNamed ["stop", "end"]) then c
  else
    { nodes := c.nodes ++ [.node stopNode]
      edges := c.edges ++ stops.map fun n => .edge (stopEdge n) }

/-- The nodes and edges of a diagram, a flowchart's with its terminals. -/
def withTerminals (d : Diagram) : Charted :=
  let c : Charted := ⟨d.nodes, d.edges⟩
  if d.kind ≠ Dialect.flowchart then c
  else
    (c.addStart (Diagram.entryPoints d.nodes d.edges)).addStop
      (Diagram.exitPoints d.nodes d.edges)

end Diagrams.Layout
