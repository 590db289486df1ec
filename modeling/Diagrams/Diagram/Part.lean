import Diagrams.Diagram

/-!
# Parts of one kind

The common lists of a diagram may mix the kinds of their parts. What needs parts of one kind fails
on the first of another kind.

* `UnsupportedPart` — the part that is of another kind.
* `allOrFail` — the parts of a list as parts of one kind.
* `nodesOrFail`, `entitiesOrFail`, `edgesOrFail`, `relationshipsOrFail` — the kinds that are needed.
-/

namespace Diagrams

/-- A diagram holds a part that its kind cannot show. -/
structure UnsupportedPart where
  /-- The name of the part. -/
  id : String
  deriving DecidableEq, Repr

/-- The parts as parts of one kind, or the first that is of another kind. -/
def allOrFail {α β : Type} (name : α → String) (as? : α → Option β) (parts : List α) :
    Except UnsupportedPart (List β) :=
  parts.mapM fun a =>
    match as? a with
    | some b => .ok b
    | none => .error ⟨name a⟩

/-- The elements as nodes. -/
def nodesOrFail : List Element → Except UnsupportedPart (List Node) :=
  allOrFail Element.id Element.asNode?

/-- The elements as entities. -/
def entitiesOrFail : List Element → Except UnsupportedPart (List Entity) :=
  allOrFail Element.id Element.asEntity?

/-- The connectors as edges. -/
def edgesOrFail : List Connector → Except UnsupportedPart (List Edge) :=
  allOrFail Connector.id Connector.asEdge?

/-- The connectors as relationships. -/
def relationshipsOrFail : List Connector → Except UnsupportedPart (List Relationship) :=
  allOrFail Connector.id Connector.asRelationship?

end Diagrams
