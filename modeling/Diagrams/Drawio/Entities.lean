import Diagrams.Diagram.Part
import Diagrams.Drawio.CellIds
import Diagrams.Drawio.Style
import Diagrams.Layout.Entities

/-!
# Drawing entity-relationship diagrams

* `rows` — the rows of an entity's table, one for each attribute.
* `entityAnchors` — where a relationship leaves one table and enters another.
* `pageSize` — the size of a page with room beside all boxes.
* `entityCells` — the cells of tables and relationships.
* `TablePlan`, `Diagram.tablePlan` — what is drawn for an entity-relationship diagram;
  `TablePlan.cells` — its cells.
-/

namespace Diagrams

namespace Drawio

open Number

/-! ## Tables -/

/-- Style text of a table. -/
def tableStyle : String :=
  "swimlane;fontStyle=1;childLayout=stackLayout;horizontal=1;startSize=30;" ++
  "horizontalStack=0;resizeParent=1;resizeParentMax=0;resizeLast=0;collapsible=0;" ++
  "marginBottom=0;whiteSpace=wrap;html=1;" ++ colors "#dae8fc" "#6c8ebf" ++ "rounded=0;"

/-- Style text of a row with the given alignment. -/
def rowStyle (align : String) : String :=
  "text;strokeColor=none;fillColor=none;align=" ++ align ++ ";verticalAlign=middle;" ++
  "spacingLeft=4;spacingRight=4;overflow=hidden;points=[[0,0.5],[1,0.5]];" ++
  "portConstraint=eastwest;rotatable=0;whiteSpace=wrap;html=1;"

/-- The height of a table's header. -/
def headerHeight : Int := 30

/-- The height of a row. -/
def rowHeight : Int := 24

/-- The text of an attribute. -/
def attributeLabel (a : Attribute) : String :=
  " ".intercalate (a.type :: a.name :: a.keys.map Term.name)

/-- A row of a table before it has a name: its preferred name, its text and its style. -/
structure Row where
  /-- The preferred name. -/
  name : String
  /-- The table. -/
  table : String
  /-- The text. -/
  label : String
  /-- Style text. -/
  style : String
  /-- Where it lies in the table. -/
  box : Box
  deriving DecidableEq, Repr

/-- Where the row with the given place lies in a table of the given width. -/
def rowBox (width : Int) (place : Nat) : Box :=
  ⟨0, headerHeight + place * rowHeight, width, rowHeight⟩

/-- The rows of a table, from the header down; one row says that there are no attributes. -/
def rows (table : String) (width : Int) (e : Entity) : List Row :=
  if e.attributes = [] then
    [⟨table ++ "_placeholder", table, "(no attributes)",
      rowStyle "center" ++ "fontStyle=2;fontColor=#999999;", rowBox width 0⟩]
  else
    e.attributes.zipIdx.map fun (a, i) =>
      ⟨table ++ "_attr" ++ toString i, table, attributeLabel a, rowStyle "left", rowBox width i⟩

/-- The cell of a row. -/
def Row.cell (id : String) (r : Row) : Cell :=
  .vertex { id, label := r.label, style := r.style, container := some r.table, box := r.box }

/-- A table and its rows, the rows without names. -/
structure TableParts where
  /-- The table. -/
  table : Vertex
  /-- Its rows. -/
  rows : List Row
  deriving DecidableEq, Repr

/-- The table of an entity, when it has a name and a box. -/
def tableParts (boxes : Table Box) (cellOf : Table String) (e : Entity) : Option TableParts := do
  let id ← cellOf.get? e.id
  let box ← boxes.get? e.id
  return ⟨{ id, label := e.label, style := tableStyle, box }, rows id box.width e⟩

/-- The cells of tables, each with its rows below it, and the names given afterwards. -/
def tableCells (ids : CellIds) : List TableParts → List Cell × CellIds
  | [] => ([], ids)
  | t :: rest =>
    let (rowIds, ids) := ids.issueAll (t.rows.map Row.name)
    let (cells, ids) := tableCells ids rest
    (.vertex t.table :: (rowIds.zip t.rows).map (fun (id, r) => r.cell id) ++ cells, ids)

/-! ## Relationships -/

/-- Where a relationship leaves one box and enters another. It runs up or down when the boxes are
further apart in height than half as far as they are apart to the side. -/
def entityAnchors (A : Arithmetic) (source target : Box) : Anchors :=
  let s := center A source
  let t := center A target
  let dx := A.sub t.x s.x
  let dy := A.sub t.y s.y
  if A.mul dx.abs (1 / 2) < dy.abs then
    if 0 < dy then ⟨bottom, top⟩ else ⟨top, bottom⟩
  else if 0 < dx then ⟨right, left⟩
  else ⟨left, right⟩

/-- Where the labels of relationships stand, by turns. -/
def relationshipOffsets : List Point := [⟨-20, -15⟩, ⟨20, -15⟩, ⟨-20, 15⟩, ⟨20, 15⟩]

/-- The cell of the relationship with the given place, when its ends are drawn. -/
def relationshipCell (A : Arithmetic) (boxes : Table Box) (cellOf : Table String) (id : String)
    (place : Nat) (r : Relationship) : Option Cell := do
  let source ← cellOf.get? r.source
  let target ← cellOf.get? r.target
  let anchors := entityAnchors A (← boxes.get? r.source) (← boxes.get? r.target)
  return .line {
    id, label := r.label, style := relationshipStyle r ++ anchors.style
    ends := .cells source target
    offset := relationshipOffsets[place % relationshipOffsets.length]? }

/-- The width and height of a page that has room for all boxes, and is not small. -/
def pageSize (boxes : List Box) (width height : Int) : Int × Int :=
  (boxes.foldl (fun w b => max w (b.right + 100)) (max 1100 width),
   boxes.foldl (fun h b => max h (b.bottom + 100)) (max 850 height))

/-- The cells of tables with their rows, and of the relationships between them. -/
def entityCells (A : Arithmetic) (boxes : Table Box) (entities : List Entity)
    (relationships : List (Relationship × Nat)) : List Cell :=
  let names := entities.map Entity.id
  let (tableIds, ids) := CellIds.issueAll {} names
  let cellOf := Table.ofList (names.zip tableIds)
  let (tables, ids) := tableCells ids (entities.filterMap (tableParts boxes cellOf))
  let (lineIds, _) := ids.issueAll (relationships.map fun r => "rel_" ++ toString r.2)
  tables ++
    (lineIds.zip relationships).filterMap fun (id, r, i) => relationshipCell A boxes cellOf id i r

/-- The links between tables with their places among all links. -/
def drawnLinks (boxes : Table Box) (links : List Connector) : List (Connector × Nat) :=
  links.zipIdx.filter fun l => boxes.contains l.1.source && boxes.contains l.1.target

end Drawio

/-- The tables of an entity-relationship diagram with their boxes, and the relationships between
them with their places. -/
structure TablePlan where
  /-- The entities. -/
  entities : List Entity
  /-- The relationships between entities. -/
  relationships : List (Relationship × Nat)
  /-- The boxes of the entities. -/
  boxes : Table Box
  deriving DecidableEq, Repr

/-- The cells of an entity-relationship diagram: tables with their rows, and relationships. -/
def TablePlan.cells (A : Number.Arithmetic) (p : TablePlan) : List Drawio.Cell :=
  Drawio.entityCells A p.boxes p.entities p.relationships

open Drawio in
/-- What is drawn for an entity-relationship diagram. -/
def Diagram.tablePlan (d : Diagram) : Except UnsupportedPart TablePlan := do
  let entities ← entitiesOrFail d.tables
  let boxes := Layout.entities entities d.links
  let drawn := drawnLinks boxes d.links
  let relationships ← relationshipsOrFail (drawn.map (·.1))
  return ⟨entities, relationships.zip (drawn.map (·.2)), boxes⟩

end Diagrams
