import Diagrams.Diagram
import Diagrams.Layout.Box

/-!
# The layout of an entity-relationship diagram

* `Layout.entityHeight` — the height of an entity's table.
* `Layout.junctions` — the entities in which relationships meet.
* `Layout.gridColumns` — how many tables stand side by side.
* `Layout.entities` — the boxes of the entities.

Three entities of which one is a junction stand in a triangle with the junction below; all others
stand in a grid that is as wide as it is high.
-/

namespace Diagrams.Layout

/-- A table grows with its attributes. -/
def entityHeight (attributes : Nat) : Int := max (40 + attributes * 24) 60

/-- The entities that are the target of two or more links. -/
def junctions (entities : List Entity) (links : List Connector) : List Entity :=
  entities.filter fun e => 2 ≤ (links.filter fun r => r.target == e.id).length

/-- How many of so many tables stand side by side: up to three in one row, four in two rows, and
more in rows as long as there are rows at most. -/
def gridColumns (count : Int) : Int :=
  if count ≤ 3 then count
  else if count = 4 then 2
  else max 2 (Number.Arithmetic.binary64.sqrt count.toNat).ceil

/-- The box of an entity with its left upper corner. -/
def entityBox (x y : Int) (e : Entity) : Box := ⟨x, y, 180, entityHeight e.attributes.length⟩

/-- The boxes around a junction. -/
def triangle (junction : Entity) (others : List Entity) : List (String × Box) :=
  (junction.id, entityBox 400 310 junction) ::
    others.zipIdx.map fun (e, i) => (e.id, entityBox (100 + i * 600) 60 e)

/-- The boxes in a grid, filled row by row. -/
def gridBoxes (entities : List Entity) : List (String × Box) :=
  let columns := (gridColumns entities.length).toNat
  entities.zipIdx.map fun (e, i) =>
    (e.id, entityBox (100 + (i % columns : Nat) * 300) (60 + (i / columns : Nat) * 250) e)

/-- The boxes of the entities. -/
def entities (entities : List Entity) (links : List Connector) : Table Box :=
  match junctions entities links with
  | [junction] =>
    if entities.length = 3 then
      .ofList (triangle junction (entities.filter fun e => e.id != junction.id))
    else .ofList (gridBoxes entities)
  | _ => .ofList (gridBoxes entities)

end Diagrams.Layout
