import Diagrams.Entities.Line
import Diagrams.Source.Fence

/-!
# Reading an entity-relationship diagram

* `Entities.Scan` — the entities by name, the relationships and the open block after some lines.
* `Entities.read` — the diagram of the lines after the header.

An entity takes its place with its first mention and collects the attributes of all its blocks.
-/

namespace Diagrams.Entities

open Source

/-- What is known after some lines. -/
structure Scan where
  /-- The entities in the order of their first mention. -/
  entities : Table Entity := []
  /-- The relationships. -/
  relationships : List Relationship := []
  /-- The entity whose block is open. -/
  current : Option String := none
  deriving DecidableEq, Repr

namespace Scan

/-- An entity is mentioned. -/
def mention (s : Scan) (name : String) : Scan :=
  { s with entities := s.entities.insertNew name ⟨name, name, []⟩ }

/-- An entity gets more attributes. -/
def describe (s : Scan) (name : String) (attributes : List Attribute) : Scan :=
  { s with entities := s.entities.adjust name fun e =>
      { e with attributes := e.attributes ++ attributes } }

/-- What is known after one more thing has been said. -/
def step (s : Scan) : Line → Scan
  | .blockStart name => { s.mention name with current := some name }
  | .blockEnd => { s with current := none }
  | .attribute a =>
    match s.current with
    | some name => s.describe name [a]
    | none => s
  | .relationship r =>
    let s := (s.mention r.source).mention r.target
    { s with relationships :=
        s.relationships ++ [{ r with id := "r" ++ toString (s.relationships.length + 1) }] }
  | .entity name attributes => (s.mention name).describe name attributes
  | .ignored => s

/-- What is known after one more line. -/
def feed (s : Scan) (line : List Char) : Scan := s.step (.ofText s.current.isSome line)

end Scan

/-- The diagram of the lines after the header. -/
def read (lines : List (List Char)) : Diagram :=
  let s := ((lines.filter isContent).map Text.trim).foldl Scan.feed {}
  let entities := s.entities.values
  { kind := Dialect.entityRelationship, direction := none
    nodes := entities.map .entity, edges := s.relationships.map .relationship
    entities, relationships := s.relationships }

end Diagrams.Entities
