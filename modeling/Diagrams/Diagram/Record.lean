import Diagrams.Diagram

/-!
# Diagrams as JSON records

* `Record.Form` — the fields of a kind of record, and what stands for a missing one; `Form.build`
  fills a form from a value and drops unknown fields.
* `Draft` — a diagram whose records have their fields, whatever these hold. `Draft.ofJson` and
  `Draft.toJson` read and write it.
* `Draft.diagram`, `Diagram.draft` — the diagram of a draft whose fields hold values of the right
  kinds, and back.
* `Diagram.toJson`, `Diagram.ofJson` — the record of a diagram: every field, in a fixed order, and
  the version of the form; and the diagram of a record.
* `RecordError` — what can be wrong with a record.

The kinds of nodes and edges are told apart by the fields they have: `attributes` makes an entity,
`is_actor` a participant, `cardinality_start` a relationship. A sequence diagram's nodes are its
participants, and an entity-relationship diagram's nodes and edges are its entities and
relationships; the lists of nodes and edges in such records are not read.
-/

namespace Diagrams

/-- The version of the record form. -/
def recordVersion : String := "1.0.0"

/-- What can be wrong with a record. -/
inductive RecordError where
  /-- A field without a default is missing. -/
  | missing (field : String)
  /-- Something else stands where a record is expected. -/
  | notRecord
  /-- A field holds a value of the wrong kind. -/
  | wrongKind (field : String)
  deriving DecidableEq, Repr

/-- A string or null. -/
def Json.ofText? (s : Option String) : Json := .ofOption .str s

/-- A list of strings. -/
def Json.ofTexts (ss : List String) : Json := .arr (ss.map .str)

/-- The value of a field, or a default. -/
def Json.getD (j : Json) (name : String) (default : Json) : Json := (j.field? name).getD default

namespace Record

/-- The result of reading a record or a part of it. -/
abbrev Read := Except RecordError

/-- The fields of a record with what they hold. -/
abbrev Fields := Table Json

/-! ## Forms -/

/-- The fields of a kind of record in their order, each with the value that stands for it when it is
missing, if it may be. -/
abbrev Form := List (String × Option Json)

/-- The names of the fields. -/
def Form.names (form : Form) : List String := form.map (·.1)

/-- A field with what is given for it, or with what stands for it. -/
def fill (given : Fields) (f : String × Option Json) : Read (String × Json) :=
  match given.get? f.1, f.2 with
  | some v, _ => .ok (f.1, v)
  | none, some default => .ok (f.1, default)
  | none, none => .error (.missing f.1)

/-- The fields of a record. Unknown fields are dropped. -/
def Form.build (form : Form) : Json → Read Fields
  | .obj given => form.mapM (fill given)
  | _ => .error .notRecord

/-- The form of a node. -/
def nodeForm : Form :=
  [("id", none), ("label", none), ("shape", some (.str (Term.known Shape.rectangle).name)),
    ("style", some (.str "")), ("fill_color", some .null), ("stroke_color", some .null),
    ("level", some .null)]

/-- The form of a style. -/
def arrowForm : Form :=
  [("line", some (.str (Term.known LinePattern.solid).name)),
    ("head", some (.str (Term.known ArrowHead.classic).name)), ("has_label", some (.bool false))]

/-- The form of an edge. -/
def edgeForm : Form :=
  [("id", none), ("source", none), ("target", none), ("label", some (.str "")),
    ("arrow", some .null)]

/-- The form of a group. -/
def groupForm : Form := [("id", none), ("label", none), ("nodes", some (.arr []))]

/-- The form of an attribute. -/
def attributeForm : Form :=
  [("type", none), ("name", none), ("keys", some (.arr [])), ("comment", some (.str ""))]

/-- The form of an entity. -/
def entityForm : Form := [("id", none), ("label", none), ("attributes", some (.arr []))]

/-- The form of a relationship. -/
def relationshipForm : Form :=
  [("id", none), ("source", none), ("target", none),
    ("cardinality_start", some (.str (Term.known Cardinality.bb).name)),
    ("cardinality_end", some (.str (Term.known Cardinality.bb).name)), ("label", some (.str "")),
    ("identifying", some (.bool true))]

/-- The form of a participant. -/
def participantForm : Form := [("id", none), ("label", none), ("is_actor", some (.bool false))]

/-- The form of a message. -/
def messageForm : Form :=
  [("source", none), ("target", none), ("text", none),
    ("line_kind", some (.str (Term.known LinePattern.solid).name)),
    ("is_async", some (.bool false))]

/-! ## Records in records -/

/-- Reads a list of records. What holds nothing is an empty list, and what a string or a record
holds are no records. -/
def readRecords {α : Type} (field : String) (read : Json → Read α) : Json → Read (List α)
  | .arr items => items.mapM read
  | .str s => if s = "" then .ok [] else .error .notRecord
  | .obj fields => if fields.isEmpty then .ok [] else .error .notRecord
  | _ => .error (.wrongKind field)

/-- Reads the list of records in a field, which may be missing. -/
def recordsIn {α : Type} (j : Json) (field : String) (read : Json → Read α) : Read (List α) :=
  readRecords field read (j.getD field (.arr []))

/-- Reads an edge. Its style is a record as well, unless something else stands there. -/
def readEdge (j : Json) : Read Fields := do
  let fields ← edgeForm.build j
  match fields.get? "arrow" with
  | some (.obj given) => return fields.insert "arrow" (.obj (← arrowForm.build (.obj given)))
  | _ => return fields

/-- Reads an entity with its attributes. -/
def readEntity (j : Json) : Read Fields := do
  let fields ← entityForm.build j
  let attributes ← recordsIn (.obj fields) "attributes" attributeForm.build
  return fields.insert "attributes" (.arr (attributes.map .obj))

/-- Refuses what holds nothing in which a field could be looked for. -/
def ensureHolder (what : String) : Json → Read Unit
  | .obj _ | .arr _ | .str _ => .ok ()
  | _ => .error (.wrongKind what)

/-- Refuses what is no record. -/
def ensure : Json → Read Unit
  | .obj _ => .ok ()
  | _ => .error .notRecord

end Record

open Record

/-! ## Drafts -/

/-- What stands in a draft's list of nodes. -/
inductive Draft.Element where
  | node (fields : Fields)
  | participant (fields : Fields)
  | entity (fields : Fields)
  deriving Repr

/-- What stands in a draft's list of edges. -/
inductive Draft.Connector where
  | edge (fields : Fields)
  | relationship (fields : Fields)
  deriving Repr

/-- A diagram whose records have their fields, whatever these hold. -/
structure Draft where
  /-- The kind of diagram. -/
  kind : Json
  /-- The direction of a flowchart. -/
  direction : Json
  /-- The nodes, participants or entities. -/
  nodes : List Draft.Element
  /-- The edges or relationships. -/
  edges : List Draft.Connector
  /-- The groups of a flowchart. -/
  groups : List Fields
  /-- The participants of a sequence diagram. -/
  participants : List Fields
  /-- The messages of a sequence diagram. -/
  messages : List Fields
  /-- The entities of an entity-relationship diagram. -/
  entities : List Fields
  /-- The relationships of an entity-relationship diagram. -/
  relationships : List Fields
  /-- Anything else that is known about the diagram. -/
  metadata : Json
  deriving Repr

namespace Draft

/-- The fields of an element. -/
def Element.fields : Element → Fields
  | node fields | participant fields | entity fields => fields

/-- The fields of a connector. -/
def Connector.fields : Connector → Fields
  | edge fields | relationship fields => fields

/-- The element of a record; its fields decide which kind it is. -/
def Element.ofJson (j : Json) : Read Element := do
  ensureHolder "nodes" j
  if j.has "attributes" then entity <$> readEntity j
  else if j.has "is_actor" then participant <$> participantForm.build j
  else node <$> nodeForm.build j

/-- The connector of a record; its fields decide which kind it is. -/
def Connector.ofJson (j : Json) : Read Connector := do
  ensureHolder "edges" j
  if j.has "cardinality_start" then relationship <$> relationshipForm.build j
  else edge <$> readEdge j

/-- Whether a value is the word of a dialect. -/
def isDialect (dialect : Dialect) : Json → Bool
  | .str s => s == Vocabulary.name dialect
  | _ => false

/-- The nodes of a record. A sequence diagram has its participants and an entity-relationship
diagram its entities. -/
def readNodes (kind : Json) (participants entities : List Fields) (j : Json) :
    Read (List Element) :=
  if isDialect .sequence kind then .ok (participants.map .participant)
  else if isDialect .entityRelationship kind then .ok (entities.map .entity)
  else recordsIn j "nodes" Element.ofJson

/-- The edges of a record. An entity-relationship diagram has its relationships. -/
def readEdges (kind : Json) (relationships : List Fields) (j : Json) : Read (List Connector) :=
  if isDialect .entityRelationship kind then .ok (relationships.map .relationship)
  else recordsIn j "edges" Connector.ofJson

/-- The draft of a record. -/
def ofJson (j : Json) : Read Draft := do
  ensure j
  let kind := j.getD "diagram_type" (.str (Term.known Dialect.flowchart).name)
  let participants ← recordsIn j "participants" participantForm.build
  let entities ← recordsIn j "entities" readEntity
  let relationships ← recordsIn j "relationships" relationshipForm.build
  let nodes ← readNodes kind participants entities j
  let edges ← readEdges kind relationships j
  let groups ← recordsIn j "subgraphs" groupForm.build
  let messages ← recordsIn j "messages" messageForm.build
  return {
    kind, nodes, edges, groups, participants, messages, entities, relationships
    direction := j.getD "direction" .null
    metadata := j.getD "metadata" (.obj []) }

/-- The record of a draft. -/
def toJson (r : Draft) : Json :=
  .obj [("diagram_type", r.kind), ("direction", r.direction),
    ("nodes", .arr (r.nodes.map fun n => .obj n.fields)),
    ("edges", .arr (r.edges.map fun e => .obj e.fields)),
    ("subgraphs", .arr (r.groups.map .obj)), ("participants", .arr (r.participants.map .obj)),
    ("messages", .arr (r.messages.map .obj)), ("entities", .arr (r.entities.map .obj)),
    ("relationships", .arr (r.relationships.map .obj)), ("metadata", r.metadata),
    ("schema_version", .str recordVersion)]

end Draft

/-! ## Fields of a diagram's records -/

/-- The fields of a node. -/
def Node.fields (n : Node) : Fields :=
  [("id", .str n.id), ("label", .str n.label), ("shape", .str n.shape.name),
    ("style", .str n.style), ("fill_color", .ofText? n.fill), ("stroke_color", .ofText? n.stroke),
    ("level", .ofOption .int n.level)]

/-- The fields of a style. -/
def ArrowStyle.fields (s : ArrowStyle) : Fields :=
  [("line", .str s.line.name), ("head", .str s.head.name), ("has_label", .bool s.hasLabel)]

/-- The fields of an edge. -/
def Edge.fields (e : Edge) : Fields :=
  [("id", .str e.id), ("source", .str e.source), ("target", .str e.target),
    ("label", .str e.label), ("arrow", .ofOption (fun s => .obj s.fields) e.arrow)]

/-- The fields of a group. -/
def Group.fields (g : Group) : Fields :=
  [("id", .str g.id), ("label", .str g.label), ("nodes", .ofTexts g.members)]

/-- The fields of an attribute. -/
def Attribute.fields (a : Attribute) : Fields :=
  [("type", .str a.type), ("name", .str a.name), ("keys", .ofTexts (a.keys.map Term.name)),
    ("comment", .str a.comment)]

/-- The fields of an entity. -/
def Entity.fields (e : Entity) : Fields :=
  [("id", .str e.id), ("label", .str e.label),
    ("attributes", .arr (e.attributes.map fun a => .obj a.fields))]

/-- The fields of a relationship. -/
def Relationship.fields (r : Relationship) : Fields :=
  [("id", .str r.id), ("source", .str r.source), ("target", .str r.target),
    ("cardinality_start", .str r.startMark.name), ("cardinality_end", .str r.endMark.name),
    ("label", .str r.label), ("identifying", .bool r.identifying)]

/-- The fields of a participant. -/
def Participant.fields (p : Participant) : Fields :=
  [("id", .str p.id), ("label", .str p.label), ("is_actor", .bool p.isActor)]

/-- The fields of a message. -/
def Message.fields (m : Message) : Fields :=
  [("source", .str m.source), ("target", .str m.target), ("text", .str m.text),
    ("line_kind", .str m.line.name), ("is_async", .bool m.isAsync)]

/-- The draft of an element. -/
def Element.draft : Element → Draft.Element
  | node n => .node n.fields
  | participant p => .participant p.fields
  | entity e => .entity e.fields

/-- The draft of a connector. -/
def Connector.draft : Connector → Draft.Connector
  | edge e => .edge e.fields
  | relationship r => .relationship r.fields

/-- The draft of a diagram. -/
def Diagram.draft (d : Diagram) : Draft where
  kind := .str d.kind.name
  direction := .ofOption (fun t => .str t.name) d.direction
  nodes := d.nodes.map Element.draft
  edges := d.edges.map Connector.draft
  groups := d.groups.map Group.fields
  participants := d.participants.map Participant.fields
  messages := d.messages.map Message.fields
  entities := d.entities.map Entity.fields
  relationships := d.relationships.map Relationship.fields
  metadata := d.metadata

/-- The record of an attribute. -/
def Attribute.toJson (a : Attribute) : Json := .obj a.fields

/-- The record of an element. -/
def Element.toJson (e : Element) : Json := .obj e.draft.fields

/-- The record of a connector. -/
def Connector.toJson (c : Connector) : Json := .obj c.draft.fields

/-- The record of a diagram. -/
def Diagram.toJson (d : Diagram) : Json := d.draft.toJson

/-! ## Values of the right kinds -/

namespace Record

/-- Reads a string. -/
def readText (field : String) : Json → Read String
  | .str s => .ok s
  | _ => .error (.wrongKind field)

/-- Reads a truth value. -/
def readFlag (field : String) : Json → Read Bool
  | .bool b => .ok b
  | _ => .error (.wrongKind field)

/-- Reads a whole number. -/
def readWhole (field : String) : Json → Read Int
  | .int n => .ok n
  | _ => .error (.wrongKind field)

/-- Reads a value that may be null. -/
def readNullable {α : Type} (read : Json → Read α) : Json → Read (Option α)
  | .null => .ok none
  | j => some <$> read j

/-- Reads a list. -/
def readList {α : Type} (field : String) (read : Json → Read α) : Json → Read (List α)
  | .arr items => items.mapM read
  | _ => .error (.wrongKind field)

/-- Reads the word of a vocabulary. -/
def readTerm {α : Type} [Vocabulary α] (field : String) (j : Json) : Read (Term α) :=
  Term.ofName <$> readText field j

/-- Reads the fields of a record. -/
def readFields {α : Type} (field : String) (read : Fields → Read α) : Json → Read α
  | .obj fields => read fields
  | _ => .error (.wrongKind field)

/-- Reads a field. -/
def field {α : Type} (fields : Fields) (name : String) (read : String → Json → Read α) : Read α :=
  match fields.get? name with
  | some v => read name v
  | none => .error (.missing name)

end Record

/-- The node of its fields. -/
def Node.ofFields (fields : Fields) : Read Node := do
  return {
    id := ← field fields "id" readText
    label := ← field fields "label" readText
    shape := ← field fields "shape" readTerm
    style := ← field fields "style" readText
    fill := ← field fields "fill_color" fun f => readNullable (readText f)
    stroke := ← field fields "stroke_color" fun f => readNullable (readText f)
    level := ← field fields "level" fun f => readNullable (readWhole f) }

/-- The style of its fields. -/
def ArrowStyle.ofFields (fields : Fields) : Read ArrowStyle := do
  return {
    line := ← field fields "line" readTerm
    head := ← field fields "head" readTerm
    hasLabel := ← field fields "has_label" readFlag }

/-- The edge of its fields. -/
def Edge.ofFields (fields : Fields) : Read Edge := do
  return {
    id := ← field fields "id" readText
    source := ← field fields "source" readText
    target := ← field fields "target" readText
    label := ← field fields "label" readText
    arrow := ← field fields "arrow" fun f => readNullable (readFields f ArrowStyle.ofFields) }

/-- The group of its fields. -/
def Group.ofFields (fields : Fields) : Read Group := do
  return {
    id := ← field fields "id" readText
    label := ← field fields "label" readText
    members := ← field fields "nodes" fun f => readList f (readText f) }

/-- The attribute of its fields. -/
def Attribute.ofFields (fields : Fields) : Read Attribute := do
  return {
    type := ← field fields "type" readText
    name := ← field fields "name" readText
    keys := ← field fields "keys" fun f => readList f (readTerm f)
    comment := ← field fields "comment" readText }

/-- The entity of its fields. -/
def Entity.ofFields (fields : Fields) : Read Entity := do
  return {
    id := ← field fields "id" readText
    label := ← field fields "label" readText
    attributes := ← field fields "attributes" fun f =>
      readList f (readFields f Attribute.ofFields) }

/-- The relationship of its fields. -/
def Relationship.ofFields (fields : Fields) : Read Relationship := do
  return {
    id := ← field fields "id" readText
    source := ← field fields "source" readText
    target := ← field fields "target" readText
    startMark := ← field fields "cardinality_start" readTerm
    endMark := ← field fields "cardinality_end" readTerm
    label := ← field fields "label" readText
    identifying := ← field fields "identifying" readFlag }

/-- The participant of its fields. -/
def Participant.ofFields (fields : Fields) : Read Participant := do
  return {
    id := ← field fields "id" readText
    label := ← field fields "label" readText
    isActor := ← field fields "is_actor" readFlag }

/-- The message of its fields. -/
def Message.ofFields (fields : Fields) : Read Message := do
  return {
    source := ← field fields "source" readText
    target := ← field fields "target" readText
    text := ← field fields "text" readText
    line := ← field fields "line_kind" readTerm
    isAsync := ← field fields "is_async" readFlag }

namespace Draft

/-- The element of a draft. -/
def Element.element : Draft.Element → Read Diagrams.Element
  | node fields => .node <$> Node.ofFields fields
  | participant fields => .participant <$> Participant.ofFields fields
  | entity fields => .entity <$> Entity.ofFields fields

/-- The connector of a draft. -/
def Connector.connector : Draft.Connector → Read Diagrams.Connector
  | edge fields => .edge <$> Edge.ofFields fields
  | relationship fields => .relationship <$> Relationship.ofFields fields

/-- The diagram of a draft. -/
def diagram (r : Draft) : Read Diagram := do
  return {
    kind := ← readTerm "diagram_type" r.kind
    direction := ← readNullable (readTerm "direction") r.direction
    nodes := ← r.nodes.mapM Element.element
    edges := ← r.edges.mapM Connector.connector
    groups := ← r.groups.mapM Group.ofFields
    participants := ← r.participants.mapM Participant.ofFields
    messages := ← r.messages.mapM Message.ofFields
    entities := ← r.entities.mapM Entity.ofFields
    relationships := ← r.relationships.mapM Relationship.ofFields
    metadata := r.metadata }

end Draft

/-- The node of a record. -/
def Node.ofJson (j : Json) : Read Node := nodeForm.build j >>= Node.ofFields

/-- The edge of a record. -/
def Edge.ofJson (j : Json) : Read Edge := readEdge j >>= Edge.ofFields

/-- The element of a record. -/
def Element.ofJson (j : Json) : Read Element := Draft.Element.ofJson j >>= Draft.Element.element

/-- The connector of a record. -/
def Connector.ofJson (j : Json) : Read Connector :=
  Draft.Connector.ofJson j >>= Draft.Connector.connector

/-- The diagram of a record. -/
def Diagram.ofJson (j : Json) : Read Diagram := Draft.ofJson j >>= Draft.diagram

end Diagrams
