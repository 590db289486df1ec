import Diagrams.Diagram.Part
import Diagrams.Page.Block

/-!
# The page of an entity-relationship diagram

`Page.ofTables` — a section with a table of attributes for each entity, a table of the
relationships, and the totals; `Diagram.entityPage` — this page for a diagram whose parts are tables
and relationships. -/

namespace Diagrams

namespace Page

/-- The row of an attribute. -/
def attributeRow (a : Attribute) : List String :=
  [cell a.type, cell a.name, ", ".intercalate (a.keys.map Term.name), cell a.comment]

/-- The section of an entity. -/
def entitySection (e : Entity) : Page :=
  [.heading 3 e.label, .blank, .line ("**ID**: " ++ quoted e.id), .blank] ++
    if e.attributes = [] then [.line "*No attributes defined*", .blank]
    else
      [.line "**Attributes**:", .blank,
        .table ["Type", "Name", "Keys", "Comment"] (e.attributes.map attributeRow), .blank]

/-- The row of the relationship with the given place. -/
def relationshipRow (place : Nat) (r : Relationship) : List String :=
  [toString (place + 1), quoted r.source, cell r.startMark.name ++ " → " ++ cell r.endMark.name,
    quoted r.target, orDash (cell r.label)]

/-- The section of the relationships; without relationships there is none. -/
def relationshipSection (relationships : List Relationship) : Page :=
  if relationships = [] then []
  else
    chapter "Relationships" ++
      [.table ["#", "Entity 1", "Cardinality", "Entity 2", "Description"]
        (relationships.zipIdx.map fun (r, i) => relationshipRow i r), .blank]

/-- The page of tables and relationships, and its source. -/
def ofTables (entities : List Entity) (relationships : List Relationship) (code : String) : Page :=
  [.heading 1 "Entity Relationship Diagram Documentation", .blank, .heading 2 "Overview", .blank,
    .line ("This **ER Diagram** defines " ++ toString entities.length ++ " entity(ies) and " ++
      toString relationships.length ++ " relationship(s)."),
    .blank] ++
    chapter "Entities" ++ entities.flatMap entitySection ++
    relationshipSection relationships ++
    chapter "Data Model Summary" ++
    [.items [count "Total Entities" entities.length,
      count "Total Relationships" relationships.length,
      count "Total Attributes" (entities.foldr (fun e n => e.attributes.length + n) 0)],
     .blank] ++
    source "Original Mermaid Code" code

end Page

/-- The page of an entity-relationship diagram and its source. -/
def Diagram.entityPage (d : Diagram) (code : String) : Except UnsupportedPart Page := do
  let entities ← entitiesOrFail d.tables
  let relationships ← relationshipsOrFail d.links
  return .ofTables entities relationships code

end Diagrams
