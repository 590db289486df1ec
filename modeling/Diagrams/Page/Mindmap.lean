import Diagrams.Graph.Search
import Diagrams.Layout
import Diagrams.Page.Block

/-!
# The page of a mindmap

* `outline` — the topics with their depths, each topic before those below it.
* `byLevel` — the topics of each level, the levels in the order in which they first occur.
* `levelTitle?` — the name of a level.
* `Diagram.mindmapPage` — the outline and the levels on a page.

A record can give a topic any level. The named levels are also counted from the last one backwards,
and a level below all of those has no name, so that no page can be made.
-/

namespace Diagrams

/-- Why a page cannot be made. -/
inductive PageError where
  /-- A part does not fit the kind of diagram. -/
  | unsupported (part : UnsupportedPart)
  /-- A level has no name. -/
  | unnamedLevel (level : Int)
  deriving DecidableEq, Repr

namespace Page

/-- The level of a topic, zero when none is given. -/
def levelOf (n : Node) : Int := n.level.getD 0

/-- The names of the first levels. -/
def levelNames : List String :=
  ["Central Topic", "Main Branches", "Sub-topics", "Details", "Notes"]

/-- The name of a level. Levels above the named ones are numbered, and negative ones are counted
from the last name backwards. -/
def levelTitle? (level : Int) : Option String :=
  if levelNames.length ≤ level then some ("Level " ++ toString level)
  else if 0 ≤ level then levelNames[level.toNat]?
  else if -level ≤ levelNames.length then levelNames[(levelNames.length + level).toNat]?
  else none

/-- How many levels there are down to the deepest. -/
def depth (nodes : List Node) : Int := ((nodes.map levelOf).max?.getD (-1)) + 1

/-- The topics with their depths, those that no edge leads to at the left margin, each topic before
those below it. A topic is listed once, and topics that only lie on cycles are left out. -/
def outline (names : List String) (g : Digraph) : List (Nat × String) :=
  ((g.within names).search [] (names.filter fun n => !g.isTarget n)).1.outline 0

/-- The list of the outline, each topic with its label. -/
def outlineItems (nodes : List Node) (g : Digraph) : List (Nat × String) :=
  let labelOf := Table.ofList (nodes.map fun n => (n.id, n.label))
  (outline (nodes.map Node.id) g).map fun (depth, name) =>
    (depth, "**" ++ labelOf.getD name name ++ "**")

/-- The topics of each level, the levels in the order in which they first occur. -/
def byLevel (nodes : List Node) : List (Int × List Node) :=
  (nodes.map levelOf).eraseDups.map fun level =>
    (level, nodes.filter fun n => levelOf n = level)

/-- The section of a level. -/
def levelSection (level : Int) (nodes : List Node) : Except PageError Page :=
  match levelTitle? level with
  | none => .error (.unnamedLevel level)
  | some title =>
    .ok [.heading 3 title, .blank, .items (nodes.map fun n => (0, n.label)), .blank]

end Page

open Page in
/-- The page of a mindmap and its source. -/
def Diagram.mindmapPage (d : Diagram) (code : String) : Except PageError Page := do
  let nodes ← (nodesOrFail d.nodes).mapError PageError.unsupported
  let levels ← (byLevel nodes).mapM fun l => levelSection l.1 l.2
  return [
    .heading 1 "Mindmap Documentation", .blank, .heading 2 "Overview", .blank,
    .line "This **Mindmap** visualizes ideas and concepts in a hierarchical structure.", .blank,
    .items [count "Total Topics" nodes.length, count "Total Connections" d.edges.length,
      (0, "**Depth Levels**: " ++ toString (depth nodes))],
    .blank] ++
    chapter "Structure" ++ [.items (outlineItems nodes (Layout.graphOf d.edges)), .blank] ++
    chapter "Topics by Level" ++ levels.flatten ++
    source "Original Mermaid Code" code

end Diagrams
