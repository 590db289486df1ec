import Diagrams.Graph.Search
import Diagrams.Layout.Box
import Diagrams.Layout.Flowchart

/-!
# The layout of a mindmap

* `Layout.topicHeight` — the height that a topic takes with all topics below it.
* `Layout.placeTopics` — the boxes of a forest of topics, one below the other.
* `Layout.mindmap` — the boxes of the topics.

Topics run from left to right, each level one step further, and a topic stands in the middle of the
height that it takes. Topics that only lie on cycles have no box.
-/

namespace Diagrams.Layout

open Number

/-- The height of a topic's box. -/
def boxHeight : Nat := 36

/-- The distance between topics below each other. -/
def topicGap : Nat := 15

/-- The heights that the topics of a forest take with the gaps below them. A topic that is met again
takes no height. -/
def forestHeight : Forest → Nat
  | .nil => 0
  | .again _ rest => topicGap + forestHeight rest
  | .first _ below rest =>
    max (forestHeight below - topicGap) boxHeight + topicGap + forestHeight rest

/-- The height that a topic takes with all topics below it, none of them counted twice. -/
def topicHeight (g : Digraph) (name : String) : Nat :=
  forestHeight (g.search [] [name]).1 - topicGap

/-- The heights that several topics take, each counted for itself, with the gaps between them. -/
def stackHeight (g : Digraph) (names : List String) : Nat :=
  names.foldr (fun n height => topicHeight g n + topicGap + height) 0 - topicGap

/-- The middle of a stretch. -/
def midpoint (A : Arithmetic) (start : Rat) (length : Nat) : Rat :=
  A.div (A.add start (A.add start (A.ofInt length))) 2

/-- The box of a topic in the middle of a stretch. -/
def topicBox (A : Arithmetic) (x : Int) (center : Rat) : Box :=
  ⟨snap A x, snap A (A.sub center 18), 120, boxHeight⟩

/-- The boxes after the topics of a forest have been placed below each other from a height on.
Topics in `passed`, which had boxes before, take no room; others that are met again take room but
keep their boxes. -/
def placeTopics (A : Arithmetic) (g : Digraph) (passed : List String) :
    Forest → Int → Rat → Table Box → Table Box
  | .nil, _, _, boxes => boxes
  | .again name rest, x, y, boxes =>
    if name ∈ passed then placeTopics A g passed rest x y boxes
    else placeTopics A g passed rest x (A.add y (A.ofInt (topicHeight g name + topicGap))) boxes
  | .first name below rest, x, y, boxes =>
    let height := topicHeight g name
    let center := midpoint A y height
    let boxes := boxes.insert name (topicBox A x center)
    let stack := stackHeight g (below.heads.filter fun n => !boxes.names.contains n)
    let top := A.sub center (A.div (A.ofInt stack) 2)
    let boxes := placeTopics A g boxes.names below (x + 200) top boxes
    placeTopics A g passed rest x (A.add y (A.ofInt (height + topicGap))) boxes

/-- The names of the topics that no edge leads to. -/
def trunks (names : List String) (g : Digraph) : List String :=
  (names.filter fun n => !g.isTarget n).eraseDups

/-- The boxes of the topics, those that no edge leads to below each other at the left. -/
def mindmap (A : Arithmetic) (names : List String) (g : Digraph) : Table Box :=
  placeTopics A g [] (g.search [] (trunks names g)).1 50 50 []

end Diagrams.Layout
