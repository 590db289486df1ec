import Diagrams.Arrow
import Diagrams.Cardinality
import Diagrams.Json.Basic
import Diagrams.Shape

/-!
# Diagrams

The records that every dialect is read into and from which everything else is made.

* `Node`, `Edge`, `Group` — the parts of flowcharts and mindmaps.
* `Participant`, `Message` — the parts of sequence diagrams.
* `Entity`, `Attribute`, `Relationship` — the parts of entity-relationship diagrams.
* `Element`, `Connector` — what may stand in the lists of nodes and edges that every diagram has.
* `Diagram` — all of it.

A diagram that was read from text has nodes of one kind only. Other diagrams may mix the kinds, and
an operation that needs the shape of a node or the arrow of an edge then fails on the others
(`Element.asNode?`, `Connector.asEdge?`). They may also keep the parts of a dialect in the common
lists alone, where they are looked for then (`Diagram.parties`, `Diagram.tables`, `Diagram.links`).
-/

namespace Diagrams

/-! ## Vocabularies -/

/-- The dialects. A diagram of any other kind is treated as a flowchart, except that it gets no
terminals. -/
inductive Dialect where
  | flowchart
  | sequence
  | entityRelationship
  | mindmap
  deriving DecidableEq, Repr

/-- A dialect's word. -/
def Dialect.word : Dialect → String
  | flowchart => "flowchart"
  | sequence => "sequence"
  | entityRelationship => "erDiagram"
  | mindmap => "mindmap"

instance : Vocabulary Dialect where
  all := [.flowchart, .sequence, .entityRelationship, .mindmap]
  name := Dialect.word
  mem_all a := by cases a <;> decide
  name_injective a b h := by cases a <;> cases b <;> revert h <;> decide

/-- The directions in which a flowchart can run. The first two mean the same. -/
inductive Direction where
  | td
  | tb
  | bt
  | lr
  | rl
  deriving DecidableEq, Repr

/-- A direction's word. -/
def Direction.word : Direction → String
  | td => "TD"
  | tb => "TB"
  | bt => "BT"
  | lr => "LR"
  | rl => "RL"

instance : Vocabulary Direction where
  all := [.td, .tb, .bt, .lr, .rl]
  name := Direction.word
  mem_all a := by cases a <;> decide
  name_injective a b h := by cases a <;> cases b <;> revert h <;> decide

/-- The marks of key attributes. -/
inductive Key where
  | primary
  | foreign
  | unique
  deriving DecidableEq, Repr

/-- A key's word. -/
def Key.word : Key → String
  | primary => "PK"
  | foreign => "FK"
  | unique => "UK"

instance : Vocabulary Key where
  all := [.primary, .foreign, .unique]
  name := Key.word
  mem_all a := by cases a <;> decide
  name_injective a b h := by cases a <;> cases b <;> revert h <;> decide

/-! ## Flowcharts and mindmaps -/

/-- A node of a flowchart or a topic of a mindmap. -/
structure Node where
  /-- The name by which edges refer to the node. -/
  id : String
  /-- The text in the node. -/
  label : String
  /-- The shape. -/
  shape : Term Shape := Shape.rectangle
  /-- Style text; the rectangle's when empty. -/
  style : String := ""
  /-- Colour of the inside. -/
  fill : Option String := none
  /-- Colour of the outline. -/
  stroke : Option String := none
  /-- Depth of a topic. -/
  level : Option Int := none
  deriving DecidableEq, Repr

/-- An edge between two nodes. -/
structure Edge where
  /-- The name of the edge. -/
  id : String
  /-- The node where it starts. -/
  source : String
  /-- The node where it ends. -/
  target : String
  /-- The text on the edge. -/
  label : String := ""
  /-- How it is drawn. -/
  arrow : Option ArrowStyle := none
  deriving DecidableEq, Repr

/-- A named group of nodes. -/
structure Group where
  /-- The name of the group. -/
  id : String
  /-- The text over the group. -/
  label : String
  /-- The nodes in the group. -/
  members : List String := []
  deriving DecidableEq, Repr

/-- The group with one more member, unless it has it already. -/
def Group.add (g : Group) (id : String) : Group :=
  if id ∈ g.members then g else { g with members := g.members ++ [id] }

/-- A node drawn in the look of its shape. -/
def Node.shaped (id : String) (s : ShapedLabel) : Node :=
  { id, label := s.label, shape := s.shape, style := s.shape.look.style,
    fill := some s.shape.look.fill, stroke := some s.shape.look.stroke }

/-- The node of a name without a written shape: a rectangle labelled by the name. -/
def Node.plain (id : String) : Node := .shaped id ⟨.rectangle, id⟩

/-! ## Sequence diagrams -/

/-- A participant of a sequence diagram. -/
structure Participant where
  /-- The name by which messages refer to the participant. -/
  id : String
  /-- The text shown. -/
  label : String
  /-- Whether it is drawn as a person. -/
  isActor : Bool := false
  deriving DecidableEq, Repr

/-- A message from one participant to another. -/
structure Message where
  /-- The sender. -/
  source : String
  /-- The receiver. -/
  target : String
  /-- The text on the message. -/
  text : String
  /-- How the line is drawn; answers are dashed. -/
  line : Term LinePattern := LinePattern.solid
  /-- Whether the sender does not wait. -/
  isAsync : Bool := false
  deriving DecidableEq, Repr

/-! ## Entity-relationship diagrams -/

/-- An attribute of an entity. -/
structure Attribute where
  /-- The type of its values. -/
  type : String
  /-- Its name. -/
  name : String
  /-- Its key marks. -/
  keys : List (Term Key) := []
  /-- A remark. -/
  comment : String := ""
  deriving DecidableEq, Repr

/-- An entity. -/
structure Entity where
  /-- The name by which relationships refer to the entity. -/
  id : String
  /-- The text shown. -/
  label : String
  /-- Its attributes. -/
  attributes : List Attribute := []
  deriving DecidableEq, Repr

/-- A relationship between two entities. -/
structure Relationship where
  /-- The name of the relationship. -/
  id : String
  /-- The entity where it starts. -/
  source : String
  /-- The entity where it ends. -/
  target : String
  /-- The mark at its start. -/
  startMark : Term Cardinality := Cardinality.bb
  /-- The mark at its end. -/
  endMark : Term Cardinality := Cardinality.bb
  /-- The text on the line. -/
  label : String := ""
  /-- Whether the line is drawn solid. -/
  identifying : Bool := true
  deriving DecidableEq, Repr

/-! ## Diagrams -/

/-- What stands in a diagram's list of nodes. -/
inductive Element where
  | node (n : Node)
  | participant (p : Participant)
  | entity (e : Entity)
  deriving DecidableEq, Repr

namespace Element

/-- The name. -/
def id : Element → String
  | node n => n.id
  | participant p => p.id
  | entity e => e.id

/-- The text shown. -/
def label : Element → String
  | node n => n.label
  | participant p => p.label
  | entity e => e.label

/-- Whether it is shown as a person. -/
def isActor : Element → Bool
  | participant p => p.isActor
  | _ => false

/-- The node, when it is one. -/
def asNode? : Element → Option Node
  | node n => some n
  | _ => none

/-- The entity, when it is one. -/
def asEntity? : Element → Option Entity
  | entity e => some e
  | _ => none

end Element

/-- What stands in a diagram's list of edges. -/
inductive Connector where
  | edge (e : Edge)
  | relationship (r : Relationship)
  deriving DecidableEq, Repr

namespace Connector

/-- The name. -/
def id : Connector → String
  | edge e => e.id
  | relationship r => r.id

/-- Where it starts. -/
def source : Connector → String
  | edge e => e.source
  | relationship r => r.source

/-- Where it ends. -/
def target : Connector → String
  | edge e => e.target
  | relationship r => r.target

/-- The text on it. -/
def label : Connector → String
  | edge e => e.label
  | relationship r => r.label

/-- The edge, when it is one. -/
def asEdge? : Connector → Option Edge
  | edge e => some e
  | _ => none

/-- The relationship, when it is one. -/
def asRelationship? : Connector → Option Relationship
  | relationship r => some r
  | _ => none

end Connector

/-- A diagram of any dialect. -/
structure Diagram where
  /-- The kind of diagram. -/
  kind : Term Dialect := Dialect.flowchart
  /-- The direction of a flowchart. -/
  direction : Option (Term Direction) := some Direction.td
  /-- The nodes, participants or entities. -/
  nodes : List Element := []
  /-- The edges or relationships. -/
  edges : List Connector := []
  /-- The groups of a flowchart. -/
  groups : List Group := []
  /-- The participants of a sequence diagram. -/
  participants : List Participant := []
  /-- The messages of a sequence diagram. -/
  messages : List Message := []
  /-- The entities of an entity-relationship diagram. -/
  entities : List Entity := []
  /-- The relationships of an entity-relationship diagram. -/
  relationships : List Relationship := []
  /-- Anything else that is known about the diagram. -/
  metadata : Json := .obj []
  deriving Repr

namespace Diagram

/-- The direction, top-down when none or an empty one is given. -/
def flow (d : Diagram) : Term Direction :=
  match d.direction with
  | none => Direction.td
  | some t => if t.name = "" then Direction.td else t

/-- The sides of a sequence diagram: its participants, or its nodes when it lists none. -/
def parties (d : Diagram) : List Element :=
  if d.participants = [] then d.nodes else d.participants.map .participant

/-- The tables of an entity-relationship diagram: its entities, or its nodes when it lists none. -/
def tables (d : Diagram) : List Element :=
  if d.entities = [] then d.nodes else d.entities.map .entity

/-- What joins the tables: the relationships, or the edges when none is listed. -/
def links (d : Diagram) : List Connector :=
  if d.relationships = [] then d.edges else d.relationships.map .relationship

/-- The elements with no edge into them. -/
def entryPoints (nodes : List Element) (edges : List Connector) : List Element :=
  nodes.filter fun n => !edges.any fun e => e.target == n.id

/-- The elements with no edge out of them. -/
def exitPoints (nodes : List Element) (edges : List Connector) : List Element :=
  nodes.filter fun n => !edges.any fun e => e.source == n.id

end Diagram

end Diagrams
