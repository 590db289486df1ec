import Diagrams.Graph.Levels
import Diagrams.Layout.Box
import Diagrams.Layout.Columns
import Diagrams.Layout.Terminals

/-!
# The layout of a flowchart

* `Layout.nodeSize` — the size of a node's box.
* `Layout.treeOf` — the edges along which columns are given.
* `Layout.Orientation` — how levels and columns become coordinates.
* `Layout.flowchart` — the boxes of the nodes, `Layout.columnsInRange` — whether there are such
  boxes.

Levels run along the direction of the flowchart and columns across it.
-/

namespace Diagrams.Layout

open Number

/-- A diamond grows with its label; other nodes are all of one size. -/
def nodeSize (n : Node) : Int × Int :=
  if n.shape = Shape.diamond then (max 160 (n.label.length * 8), 80) else (140, 50)

/-- The graph of the edges. -/
def graphOf (edges : List Connector) : Digraph := ⟨edges.map fun e => (e.source, e.target)⟩

/-- The arrows along which columns are given: those to a higher level, and all arrows from a name
from which more than one starts. -/
def treeOf (g : Digraph) (levels : Table Nat) : Digraph :=
  ⟨g.arrows.filter fun r =>
    1 < (g.next r.1).length || levels.getD r.1 0 < levels.getD r.2 0⟩

/-- How levels and columns become coordinates. -/
structure Orientation where
  /-- Levels run from left to right or back. -/
  horizontal : Bool
  /-- Levels run against the axis. -/
  backward : Bool
  deriving DecidableEq, Repr

/-- The orientation of a direction; foreign words mean top-down. -/
def Orientation.of : Term Direction → Orientation
  | .known .td | .known .tb | .other .. => ⟨false, false⟩
  | .known .bt => ⟨false, true⟩
  | .known .lr => ⟨true, false⟩
  | .known .rl => ⟨true, true⟩

/-- The distance between columns, or between levels that run to the side. -/
def horizontalGap : Int := 200

/-- The distance between levels, or between columns of levels that run to the side. -/
def verticalGap : Int := 90

/-- Where a level lies, counted from an edge. -/
def Orientation.along (o : Orientation) (start gap : Int) (level : Nat) : Int :=
  start + (if o.backward then -1 else 1) * level * gap

/-- The distance between columns. -/
def Orientation.columnGap (o : Orientation) : Int :=
  if o.horizontal then verticalGap else horizontalGap

/-- Where a column lies, counted from an edge. -/
def across (A : Arithmetic) (start gap : Int) (column : Rat) : Rat :=
  A.add start (A.mul column gap)

/-- The left and upper edge of a node at a level and in a column. -/
def Orientation.point (A : Arithmetic) (o : Orientation) (level : Nat) (column : Rat) : Int × Int :=
  if o.horizontal then
    (snap A (o.along 100 horizontalGap level), snap A (across A 40 verticalGap column))
  else
    (snap A (across A 100 horizontalGap column), snap A (o.along 40 verticalGap level))

/-- The levels and columns of a flowchart. -/
structure Ranks where
  /-- The roots from which levels are counted. -/
  roots : List String
  /-- The level of each name. -/
  levels : Table Nat
  /-- The arrows along which columns are given. -/
  tree : Digraph
  /-- The column of each name. -/
  columns : Table Rat
  deriving DecidableEq, Repr

/-- The levels and columns of a graph on the names. -/
def ranks (A : Arithmetic) (names : List String) (edges : Digraph) : Ranks :=
  let g := edges.within names
  let roots := g.roots names
  let levels := g.levels names roots
  let tree := treeOf g levels
  { roots, levels, tree, columns := columnsOf A tree names roots }

/-- Whether the columns of the nodes lie in the range of numbers, as far as they are from the edge.
The columns are the only places that are not bounded by the numbers of nodes and edges: each level
of branches may multiply them. -/
def columnsInRange (A : Arithmetic) (nodes : List Node) (edges : Digraph)
    (direction : Term Direction) : Bool :=
  let columns := (ranks A (nodes.map Node.id) edges).columns
  nodes.all fun n =>
    A.inRange (A.mul (columns.getD n.id 0) (Orientation.of direction).columnGap)

/-- The boxes of the nodes. A later node of the same name takes the place of an earlier one. -/
def flowchart (A : Arithmetic) (nodes : List Node) (edges : Digraph) (direction : Term Direction) :
    Table Box :=
  let r := ranks A (nodes.map Node.id) edges
  .ofList (nodes.map fun n =>
    let p := (Orientation.of direction).point A (r.levels.getD n.id 0) (r.columns.getD n.id 0)
    let size := nodeSize n
    (n.id, ⟨p.1, p.2, size.1, size.2⟩))

end Diagrams.Layout
