import Diagrams.Diagram
import Diagrams.Mindmap.Topic
import Diagrams.Source.Fence

/-!
# Reading a mindmap

* `Mindmap.Scan` — the topics, the edges to their parents and the last topic of each depth.
* `Mindmap.read` — the diagram of the lines after the header.

The parent of a topic is the last topic before it that is one level less deep, even if topics of
other depths stand between them; a topic without one starts a tree of its own.
-/

namespace Diagrams.Mindmap

open Source

/-- What is known after some lines. -/
structure Scan where
  /-- The topics. -/
  nodes : List Node := []
  /-- The edges from parents to children. -/
  edges : List Edge := []
  /-- The last topic of each depth. -/
  last : Nat → Option String := fun _ => none

namespace Scan

/-- The topic that a line at a depth adds as number `index`. -/
def topic (index depth : Nat) (t : Topic) : Node :=
  let colors := levelColors depth
  { id := "node" ++ toString index, label := t.label, shape := t.shape
    style := t.shape.look.style, fill := some colors.1, stroke := some colors.2
    level := some depth }

/-- The last topic one level above a depth. -/
def parent? (s : Scan) : Nat → Option String
  | 0 => none
  | depth + 1 => s.last depth

/-- What is known after one more topic. -/
def add (s : Scan) (depth : Nat) (t : Topic) : Scan :=
  let node := topic s.nodes.length depth t
  let edges :=
    match s.parent? depth with
    | some parent =>
      s.edges ++ [{ id := "e" ++ toString (s.edges.length + 1), source := parent,
                    target := node.id }]
    | none => s.edges
  { nodes := s.nodes ++ [node], edges
    last := fun d => if d = depth then some node.id else s.last d }

/-- What is known after one more line. -/
def feed (s : Scan) (line : List Char) : Scan := s.add (depth line) (.ofText (Text.trim line))

end Scan

/-- The diagram of the lines after the header. -/
def read (lines : List (List Char)) : Diagram :=
  let s := (lines.filter fun l => isContent l && !isIcon l).foldl Scan.feed {}
  { kind := Dialect.mindmap, direction := some Direction.lr
    nodes := s.nodes.map .node, edges := s.edges.map .edge }

end Diagrams.Mindmap
