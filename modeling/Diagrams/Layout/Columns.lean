import Diagrams.Graph.Search
import Diagrams.Graph.Width
import Diagrams.Number.Rounding

/-!
# Columns

Names of a graph get columns side by side, each name centred over the names that it leads to.

* `Layout.Columns` — the columns given so far and the widths found.
* `Layout.placeBelow`, `Layout.spread`, `Layout.placeTree` — the columns of a forest found by
  search.
* `Layout.Assignment` — the columns, widths and names seen after some roots have been placed;
  `Layout.Assignment.place` places one more.

A name's columns are reserved by its width. A name that is met again keeps its column, so the
columns reserved for it a second time stay empty.
-/

namespace Diagrams.Layout

open Number

/-- The columns given so far and the widths found. -/
structure Columns where
  /-- The column of each name. -/
  column : Table Rat := []
  /-- The widths found. -/
  widths : Table Nat := []
  deriving DecidableEq, Repr

namespace Columns

/-- The columns with one more. -/
def set (s : Columns) (name : String) (column : Rat) : Columns :=
  { s with column := s.column.insert name column }

/-- The width of a name, and the widths found afterwards. -/
def width (s : Columns) (g : Digraph) (name : String) : Nat × Columns :=
  let (w, memory) := g.width [] (some s.widths) name
  (w, { s with widths := memory.getD s.widths })

end Columns

variable (A : Arithmetic) (g : Digraph)

/-- The middle of `width` columns from `start`. -/
def middle (start : Rat) (width : Nat) : Rat :=
  A.add (A.round start) (A.div ((width : Rat) - 1) 2)

/-- The column after `width` columns from `start`. -/
def past (start : Rat) (width : Nat) : Rat := A.add start (A.ofInt width)

/-- Each name that is met for the first time stands in the middle of the columns reserved for it,
and the names below it stand in the same columns. -/
def placeBelow : Forest → Rat → Columns → Columns
  | .nil, _, s => s
  | .again _ rest, start, s => placeBelow rest start s
  | .first name below rest, start, s =>
    let (w, s) := s.width g name
    let s := placeBelow below start (s.set name (middle A start w))
    placeBelow rest (past A start w) s

/-- The branches below a name, from left to right: the column after them, the columns of those that
have one, and the columns afterwards. -/
def spread : Forest → Rat → Columns → Rat × List Rat × Columns
  | .nil, start, s => (start, [], s)
  | .again name rest, start, s =>
    let (after, centers, s') := spread rest start s
    (after, (s.column.get? name).toList ++ centers, s')
  | .first name below rest, start, s =>
    let (w, s) := s.width g name
    let center := middle A start w
    let s := placeBelow A g below start (s.set name center)
    let (after, centers, s) := spread rest (past A start w) s
    (after, center :: centers, s)

/-- The least of some numbers. -/
def least (q : Rat) (qs : List Rat) : Rat := qs.foldl (fun m r => if r < m then r else m) q

/-- The greatest of some numbers. -/
def greatest (q : Rat) (qs : List Rat) : Rat := qs.foldl (fun m r => if m < r then r else m) q

/-- The middle between the outermost columns, or the default when there are none. -/
def between (centers : List Rat) (default : Rat) : Rat :=
  match centers with
  | [] => default
  | q :: qs => A.div (A.add (least q qs) (greatest q qs)) 2

/-- The first tree of a forest from a column on: the next free column, and the columns afterwards.
A name that leads nowhere takes one column, a name that leads to one other takes that one's column,
and a name that leads to several stands in the middle between them. -/
def placeTree : Forest → Rat → Columns → Rat × Columns
  | .nil, start, s => (start, s)
  | .again _ _, start, s => (start, s)
  | .first name below _, start, s =>
    match below.heads with
    | [] => (past A start 1, s.set name start)
    | [head] =>
      let (after, s) := placeTree below start s
      (after, s.set name (s.column.getD head start))
    | _ =>
      let (after, centers, s) := spread A g below start s
      (after, s.set name (between A centers start))

/-- What is known after some roots have been placed. -/
structure Assignment where
  /-- The columns and widths. -/
  columns : Columns := {}
  /-- The names met. -/
  seen : List String := []
  deriving DecidableEq, Repr

/-- One more root is placed from a column on: the next free column, and what is known afterwards. -/
def Assignment.place (s : Assignment) (root : String) (start : Rat) : Rat × Assignment :=
  let (forest, seen) := g.search s.seen [root]
  let (after, columns) := placeTree A g forest start s.columns
  (after, ⟨columns, seen⟩)

/-- The roots are placed side by side, and then the names that no root leads to, each in a column of
its own. -/
def columnsOf (names roots : List String) : Table Rat :=
  let (next, s) := roots.foldl (fun (p : Rat × Assignment) root => p.2.place A g root p.1) (0, {})
  (names.foldl (fun (p : Rat × Table Rat) name =>
    if p.2.contains name then p else (past A p.1 1, p.2.insert name p.1))
    (next, s.columns.column)).2

end Diagrams.Layout
