import Diagrams.Diagram
import Diagrams.Flowchart.Line
import Diagrams.Source.Fence

/-!
# Reading a flowchart

* `Flowchart.Scan` — what is known after some lines: the nodes by name, the edges, the closed groups
  and the open one.
* `Flowchart.Scan.feed` — one more line.
* `Flowchart.read` — the diagram of the lines after the header.

A group that starts while another is open takes its place, and the other is lost.
-/

namespace Diagrams.Flowchart

open Source

/-- What is known after some lines. -/
structure Scan where
  /-- The nodes in the order of their first mention. -/
  nodes : Table Node := []
  /-- The edges. -/
  edges : List Edge := []
  /-- The groups that have ended. -/
  groups : List Group := []
  /-- The group that has started and not ended. -/
  current : Option Group := none
  deriving DecidableEq, Repr

namespace Scan

/-- A node is mentioned. A written shape replaces what was known of the node; without one a new
node is a rectangle labelled by its name. -/
def declare (s : Scan) (t : Target) : Scan :=
  match t.fragment with
  | some fragment => { s with nodes := s.nodes.insert t.id (.shaped t.id (.ofFragment fragment)) }
  | none => { s with nodes := s.nodes.insertNew t.id (.plain t.id) }

/-- A node joins the open group, when there is one. -/
def join (s : Scan) (id : String) : Scan := { s with current := s.current.map (·.add id) }

/-- What is known after one more thing has been said. -/
def step (s : Scan) : Line → Scan
  | .groupStart id label => { s with current := some ⟨id, label, []⟩ }
  | .groupEnd =>
    match s.current with
    | some g => { s with groups := s.groups ++ [g], current := none }
    | none => s
  | .connection source arrow label target =>
    let s := (((s.declare source).declare target).join source.id).join target.id
    let edge : Edge :=
      { id := "e" ++ toString (s.edges.length + 1), source := source.id, target := target.id,
        label, arrow := some arrow.style }
    { s with edges := s.edges ++ [edge] }
  | .declaration id fragment => (s.declare ⟨id, some fragment⟩).join id
  | .ignored => s

/-- What is known after one more line. -/
def feed (s : Scan) (line : List Char) : Scan := s.step (.ofText line)

end Scan

/-- The diagram of the lines after the header. -/
def read (direction : Direction) (lines : List (List Char)) : Diagram :=
  let s := ((lines.filter isContent).map Text.trim).foldl Scan.feed {}
  { kind := Dialect.flowchart, direction := some direction
    nodes := s.nodes.values.map .node, edges := s.edges.map .edge, groups := s.groups }

end Diagrams.Flowchart
