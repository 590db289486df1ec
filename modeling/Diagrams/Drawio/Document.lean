import Diagrams.Layout.Box
import Diagrams.Number.Shortest
import Diagrams.Xml

/-!
# Draw.io documents

* `Point`, `Vertex`, `Line`, `Cell` — what is drawn: boxes, and lines between cells or points.
* `Stamp` — the moment at which a document is made and the random choices for its name.
* `Document` — a page with its cells.
* `Document.toXml` — the document as XML.

Geometry is kept in numbers; only `toXml` turns it into text.
-/

namespace Diagrams.Drawio

/-- A point. -/
structure Point where
  /-- How far to the right. -/
  x : Rat
  /-- How far down. -/
  y : Rat
  deriving DecidableEq, Repr

/-- A cell that is drawn as a box. -/
structure Vertex where
  /-- The name of the cell. -/
  id : String
  /-- The text in it. -/
  label : String
  /-- Style text. -/
  style : String
  /-- The cell in which it lies; the page when there is none. A cell in another one starts at its
  left edge. -/
  container : Option String := none
  /-- Where it lies in its container. -/
  box : Box
  deriving DecidableEq, Repr

/-- What a line joins. -/
inductive Ends where
  /-- Two cells, by their names. -/
  | cells (source target : String)
  /-- Two points. -/
  | points (source target : Point)
  deriving DecidableEq, Repr

/-- The ends that are points. -/
def Ends.places : Ends → List Point
  | cells .. => []
  | points source target => [source, target]

/-- A cell that is drawn as a line. -/
structure Line where
  /-- The name of the cell. -/
  id : String
  /-- The text on it. -/
  label : String
  /-- Style text. -/
  style : String
  /-- What it joins. -/
  ends : Ends
  /-- The points through which it runs. -/
  waypoints : List Point := []
  /-- How far the text is moved from its usual place. -/
  offset : Option Point := none
  deriving DecidableEq, Repr

/-- A cell of a page. -/
inductive Cell where
  | vertex (v : Vertex)
  | line (l : Line)
  deriving DecidableEq, Repr

namespace Cell

/-- The name of the cell. -/
def id : Cell → String
  | vertex v => v.id
  | line l => l.id

/-- The box, when the cell is one. -/
def asVertex? : Cell → Option Vertex
  | vertex v => some v
  | line _ => none

/-- The line, when the cell is one. -/
def asLine? : Cell → Option Line
  | vertex _ => none
  | line l => some l

/-- The numbers of the geometry. -/
def numbers : Cell → List Rat
  | vertex v => [v.box.x, v.box.y, v.box.width, v.box.height]
  | line l => (l.ends.places ++ l.waypoints ++ l.offset.toList).flatMap fun p => [p.x, p.y]

end Cell

/-! ## Stamps -/

/-- A moment in universal time. -/
structure Moment where
  /-- The year. -/
  year : Nat
  /-- The month, from one. -/
  month : Nat
  /-- The day of the month, from one. -/
  day : Nat
  /-- The hour. -/
  hour : Nat
  /-- The minute. -/
  minute : Nat
  /-- The second. -/
  second : Nat
  /-- Millionths of a second. -/
  microsecond : Nat
  deriving DecidableEq, Repr

/-- A number with zeros in front, at least `width` digits long. -/
def padded (width n : Nat) : String :=
  let digits := Nat.toDigits 10 n
  String.ofList (List.replicate (width - digits.length) '0' ++ digits)

/-- The moment in figures; what is less than a thousandth of a second is cut off. -/
def Moment.text (m : Moment) : String :=
  padded 4 m.year ++ "-" ++ padded 2 m.month ++ "-" ++ padded 2 m.day ++ "T" ++
    padded 2 m.hour ++ ":" ++ padded 2 m.minute ++ ":" ++ padded 2 m.second ++ "." ++
    padded 3 (m.microsecond / 1000) ++ "Z"

/-- What a document takes from its surroundings. -/
structure Stamp where
  /-- When the document is made. -/
  moment : Moment
  /-- Random numbers; zeros follow when they run out. -/
  picks : List Int := []
  deriving DecidableEq, Repr

/-- The characters of random names. -/
def alphabet : List Char := "abcdefghijklmnopqrstuvwxyz0123456789".toList

/-- The character that a random number picks. -/
def picked (pick : Int) : Char := alphabet.getD (pick % alphabet.length).toNat 'a'

/-- The random name of the page. -/
def Stamp.name (s : Stamp) : String :=
  String.ofList ((List.range 8).map fun k => picked (s.picks.getD k 0))

/-! ## Documents -/

/-- A page with its cells. -/
structure Document where
  /-- The title of the page. -/
  title : Xml.Value
  /-- When it is made, and its random name. -/
  stamp : Stamp
  /-- The width of the page. -/
  width : Int := 850
  /-- The height of the page. -/
  height : Int := 1100
  /-- The visible part of the page. -/
  view : Int × Int := (1000, 600)
  /-- The cells, those drawn first in front. -/
  cells : List Cell
  deriving DecidableEq, Repr

open Number

/-- The name of the layer in which the cells of a page lie. -/
def layer : String := "1"

/-- A point, with its role if it has one. -/
def Point.toXml (p : Point) (role : Option String := none) : Xml :=
  .tag "mxPoint"
    ([("x", coordinateText p.x), ("y", coordinateText p.y)] ++
      role.toList.map fun r => ("as", r)) []

/-- The geometry of a box. The left edge of a cell in another cell is not written. -/
def Vertex.geometry (v : Vertex) : Xml :=
  .tag "mxGeometry"
    ((if v.container = none then [("x", coordinateText v.box.x)] else []) ++
      [("y", coordinateText v.box.y), ("width", coordinateText v.box.width),
       ("height", coordinateText v.box.height), ("as", "geometry")]) []

/-- A box. -/
def Vertex.toXml (v : Vertex) : Xml :=
  .tag "mxCell"
    [("id", v.id), ("value", v.label), ("style", v.style), ("vertex", "1"),
     ("parent", v.container.getD layer)]
    [v.geometry]

/-- The cells that a line names. -/
def Ends.attributes : Ends → List (String × String)
  | cells source target => [("source", source), ("target", target)]
  | points .. => []

/-- The points that a line names. -/
def Ends.toXml : Ends → List Xml
  | cells .. => []
  | points source target => [source.toXml (some "sourcePoint"), target.toXml (some "targetPoint")]

/-- The geometry of a line. -/
def Line.geometry (l : Line) : Xml :=
  .tag "mxGeometry" [("relative", "1"), ("as", "geometry")]
    ((if l.waypoints = [] then []
      else [.tag "Array" [("as", "points")] (l.waypoints.map fun p => p.toXml)]) ++
      l.ends.toXml ++ l.offset.toList.map fun p => p.toXml (some "offset"))

/-- A line. -/
def Line.toXml (l : Line) : Xml :=
  .tag "mxCell"
    ([("id", l.id), ("value", l.label), ("style", l.style), ("edge", "1"), ("parent", layer)] ++
      l.ends.attributes)
    [l.geometry]

/-- A cell. -/
def Cell.toXml : Cell → Xml
  | vertex v => v.toXml
  | line l => l.toXml

/-- The two cells that every page has: the root, and the layer in which the others lie. -/
def baseCells : List Xml :=
  [.tag "mxCell" [("id", "0")] [], .tag "mxCell" [("id", layer), ("parent", "0")] []]

/-- The settings of a page. -/
def Document.settings (d : Document) : List (String × String) :=
  [("dx", toString d.view.1), ("dy", toString d.view.2), ("grid", "1"), ("gridSize", "10"),
   ("guides", "1"), ("tooltips", "1"), ("connect", "1"), ("arrows", "1"), ("fold", "1"),
   ("page", "1"), ("pageScale", "1"), ("pageWidth", toString d.width),
   ("pageHeight", toString d.height), ("math", "0"), ("shadow", "0")]

/-- The whole document. -/
def Document.toXml (d : Document) : Xml :=
  .tag "mxfile"
    [("host", "app.diagrams.net"), ("modified", d.stamp.moment.text), ("agent", "mermaid-convert"),
     ("version", "21.0.0")]
    [.element "diagram" [("name", d.title), ("id", .text d.stamp.name)]
      [.tag "mxGraphModel" d.settings
        [.tag "root" [] (baseCells ++ d.cells.map Cell.toXml)]]]

/-- The text of the document. -/
def Document.text (d : Document) : String := d.toXml.text

end Diagrams.Drawio
