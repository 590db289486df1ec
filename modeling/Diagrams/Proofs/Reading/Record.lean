import Diagrams.Proofs.Reading.Draft
import Diagrams.Proofs.Reading.Integrity

/-!
# Diagrams are read as they were written

**Main statement** (`Diagram.IsFiled.ofJson_toJson`): the record of a diagram is read as the same
diagram, when the diagram is *filed* (`Diagram.IsFiled`), which is to say that its lists of nodes
and edges are those that its kind asks for. Diagrams that were read from records are filed
(`Diagram.isFiled_of_ofJson`), and so are diagrams that were read from text
(`Diagram.isFiled_of_parse`).

The draft of a diagram gives the diagram back (`Diagram.diagram_draft`), kind of record by kind of
record, because a word's term has that word. The draft of a filed diagram is whole
(`Diagram.IsFiled.isWhole_draft`), and a whole draft is read as it is.
-/

namespace Diagrams

open Record

/-! ### Values -/

namespace Record

variable {α : Type}

/-- A word's term is read as it was written. -/
@[simp] theorem readTerm_name [Vocabulary α] (field : String) (t : Term α) :
    readTerm field (.str t.name) = .ok t := by
  rw [readTerm, readText, map_ok, Term.ofName_name]

/-- A value that may be missing is read as it was written. -/
theorem readNullable_ofOption {read : Json → Read α} (write : α → Json)
    (hread : ∀ a, read (write a) = .ok a) (hnull : ∀ a, write a ≠ .null) (o : Option α) :
    readNullable read (.ofOption write o) = .ok o := by
  cases o with
  | none => rfl
  | some a =>
    rw [Json.ofOption, readNullable, hread a, map_ok]
    exact hnull a

/-- A list is read as it was written. -/
theorem readList_map {read : Json → Read α} (write : α → Json)
    (hread : ∀ a, read (write a) = .ok a) (field : String) (as : List α) :
    readList field read (.arr (as.map write)) = .ok as :=
  mapM_map_eq_ok fun a _ => hread a

end Record

/-! ### Fields of each kind of record -/

/-- A node is read from its record. -/
theorem Node.ofFields_fields (n : Node) : Node.ofFields n.fields = .ok n := by
  have hcolour (name : String) (o : Option String) :
      readNullable (readText name) (.ofText? o) = .ok o :=
    readNullable_ofOption .str (fun _ => rfl) nofun o
  have hlevel : readNullable (readWhole "level") (.ofOption .int n.level) = .ok n.level :=
    readNullable_ofOption .int (fun _ => rfl) nofun n.level
  simp [Node.ofFields, Node.fields, field, Table.get?, readText, hcolour, hlevel]

/-- An arrow is read from its record. -/
theorem ArrowStyle.ofFields_fields (s : ArrowStyle) : ArrowStyle.ofFields s.fields = .ok s := by
  simp [ArrowStyle.ofFields, ArrowStyle.fields, field, Table.get?, readFlag]

/-- An edge is read from its record. -/
theorem Edge.ofFields_fields (e : Edge) : Edge.ofFields e.fields = .ok e := by
  have harrow :
      readNullable (readFields "arrow" ArrowStyle.ofFields)
        (.ofOption (fun s => .obj s.fields) e.arrow) = .ok e.arrow :=
    readNullable_ofOption _ ArrowStyle.ofFields_fields nofun e.arrow
  simp [Edge.ofFields, Edge.fields, field, Table.get?, readText, harrow]

/-- A group is read from its record. -/
theorem Group.ofFields_fields (g : Group) : Group.ofFields g.fields = .ok g := by
  have hmembers : readList "nodes" (readText "nodes") (.ofTexts g.members) = .ok g.members :=
    readList_map .str (fun _ => rfl) "nodes" g.members
  simp [Group.ofFields, Group.fields, field, Table.get?, readText, hmembers]

/-- An attribute is read from its record. -/
theorem Attribute.ofFields_fields (a : Attribute) : Attribute.ofFields a.fields = .ok a := by
  have hkeys :
      readList "keys" (readTerm "keys") (.ofTexts (a.keys.map Term.name)) = .ok a.keys := by
    rw [Json.ofTexts, List.map_map]
    exact readList_map _ (readTerm_name "keys") "keys" a.keys
  simp [Attribute.ofFields, Attribute.fields, field, Table.get?, readText, hkeys]

/-- An entity is read from its record. -/
theorem Entity.ofFields_fields (e : Entity) : Entity.ofFields e.fields = .ok e := by
  have hattributes :
      readList "attributes" (readFields "attributes" Attribute.ofFields)
        (.arr (e.attributes.map fun a => .obj a.fields)) = .ok e.attributes :=
    readList_map _ Attribute.ofFields_fields "attributes" e.attributes
  simp [Entity.ofFields, Entity.fields, field, Table.get?, readText, hattributes]

/-- A relationship is read from its record. -/
theorem Relationship.ofFields_fields (r : Relationship) :
    Relationship.ofFields r.fields = .ok r := by
  simp [Relationship.ofFields, Relationship.fields, field, Table.get?, readText, readFlag]

/-- A participant is read from its record. -/
theorem Participant.ofFields_fields (p : Participant) : Participant.ofFields p.fields = .ok p := by
  simp [Participant.ofFields, Participant.fields, field, Table.get?, readText, readFlag]

/-- A message is read from its record. -/
theorem Message.ofFields_fields (m : Message) : Message.ofFields m.fields = .ok m := by
  simp [Message.ofFields, Message.fields, field, Table.get?, readText, readFlag]

/-- An element is made of its draft. -/
theorem Element.element_draft (e : Element) : e.draft.element = .ok e := by
  cases e with
  | node n => exact map_eq_ok.mpr ⟨n, n.ofFields_fields, rfl⟩
  | participant p => exact map_eq_ok.mpr ⟨p, p.ofFields_fields, rfl⟩
  | entity e => exact map_eq_ok.mpr ⟨e, e.ofFields_fields, rfl⟩

/-- A connector is made of its draft. -/
theorem Connector.connector_draft (c : Connector) : c.draft.connector = .ok c := by
  cases c with
  | edge e => exact map_eq_ok.mpr ⟨e, e.ofFields_fields, rfl⟩
  | relationship r => exact map_eq_ok.mpr ⟨r, r.ofFields_fields, rfl⟩

/-- The draft of a diagram is a draft of the diagram. -/
theorem Diagram.diagram_draft (d : Diagram) : d.draft.diagram = .ok d := by
  have hdirection :
      readNullable (readTerm "direction") (.ofOption (fun t => .str t.name) d.direction) =
        .ok d.direction :=
    readNullable_ofOption _ (readTerm_name "direction") nofun d.direction
  have hnodes := mapM_map_eq_ok fun n (_ : n ∈ d.nodes) => n.element_draft
  have hedges := mapM_map_eq_ok fun e (_ : e ∈ d.edges) => e.connector_draft
  have hgroups := mapM_map_eq_ok fun g (_ : g ∈ d.groups) => g.ofFields_fields
  have hparticipants := mapM_map_eq_ok fun p (_ : p ∈ d.participants) => p.ofFields_fields
  have hmessages := mapM_map_eq_ok fun m (_ : m ∈ d.messages) => m.ofFields_fields
  have hentities := mapM_map_eq_ok fun e (_ : e ∈ d.entities) => e.ofFields_fields
  have hrelationships := mapM_map_eq_ok fun r (_ : r ∈ d.relationships) => r.ofFields_fields
  simp only [Draft.diagram, Diagram.draft, readTerm_name, hdirection, hnodes, hedges, hgroups,
    hparticipants, hmessages, hentities, hrelationships, ok_bind]
  rfl

/-! ### Filed diagrams -/

/-- The lists of nodes and edges of a diagram are those that its kind asks for. -/
structure Diagram.IsFiled (d : Diagram) : Prop where
  /-- The nodes of a sequence diagram are its participants. -/
  nodes_of_sequence : d.kind = Dialect.sequence → d.nodes = d.participants.map .participant
  /-- The nodes of an entity-relationship diagram are its entities. -/
  nodes_of_entities : d.kind = Dialect.entityRelationship → d.nodes = d.entities.map .entity
  /-- The edges of an entity-relationship diagram are its relationships. -/
  edges_of_entities :
    d.kind = Dialect.entityRelationship → d.edges = d.relationships.map .relationship

/-- A sound diagram is filed. -/
theorem Diagram.IsSound.isFiled {d : Diagram} (h : d.IsSound) : d.IsFiled :=
  ⟨h.nodes_of_sequence, h.nodes_of_entities, h.edges_of_entities⟩

/-- A diagram that was read from text is filed. -/
theorem Diagram.isFiled_of_parse {code : String} {d : Diagram} (h : Diagram.parse code = .ok d) :
    d.IsFiled := by
  obtain ⟨header, body, -, rfl⟩ := Diagram.eq_readBody_of_parse h
  exact (Source.isSound_readBody header body).isFiled

/-- A term's word is a dialect's when the term is the dialect. -/
theorem Draft.isDialect_name {dialect : Dialect} {t : Term Dialect} :
    Draft.isDialect dialect (.str t.name) = true ↔ t = dialect := by
  rw [Draft.isDialect, beq_iff_eq]
  constructor
  · exact fun h => Term.name_injective h
  · rintro rfl
    rfl

/-- The draft of an element has all fields. -/
theorem Element.isWhole_draft (e : Element) : e.draft.IsWhole := by
  cases e with
  | node n => rfl
  | participant p => rfl
  | entity e =>
    refine ⟨rfl, e.attributes.map Attribute.fields, ?_, ?_⟩
    · rw [List.map_map]
      rfl
    · rintro _ ha
      obtain ⟨a, _, rfl⟩ := List.mem_map.mp ha
      rfl

/-- The draft of a connector has all fields. -/
theorem Connector.isWhole_draft (c : Connector) : c.draft.IsWhole := by
  cases c with
  | edge e =>
    refine ⟨rfl, fun style hstyle => ?_⟩
    obtain ⟨id, source, target, label, arrow⟩ := e
    cases arrow with
    | none => cases hstyle
    | some s =>
      cases hstyle
      rfl
  | relationship r => rfl

/-- The draft of a filed diagram is whole. -/
theorem Diagram.IsFiled.isWhole_draft {d : Diagram} (h : d.IsFiled) : d.draft.IsWhole where
  nodes := by
    unfold Draft.NodesFor
    split
    · rename_i hkind
      change d.nodes.map Element.draft = (d.participants.map Participant.fields).map _
      rw [h.nodes_of_sequence (Draft.isDialect_name.mp hkind), List.map_map, List.map_map]
      rfl
    · split
      · rename_i hkind
        change d.nodes.map Element.draft = (d.entities.map Entity.fields).map _
        rw [h.nodes_of_entities (Draft.isDialect_name.mp hkind), List.map_map, List.map_map]
        rfl
      · exact List.forall_mem_map.mpr fun n _ => n.isWhole_draft
  edges := by
    unfold Draft.EdgesFor
    split
    · rename_i hkind
      change d.edges.map Connector.draft = (d.relationships.map Relationship.fields).map _
      rw [h.edges_of_entities (Draft.isDialect_name.mp hkind), List.map_map, List.map_map]
      rfl
    · exact List.forall_mem_map.mpr fun e _ => e.isWhole_draft
  groups := List.forall_mem_map.mpr fun _ _ => rfl
  participants := List.forall_mem_map.mpr fun _ _ => rfl
  messages := List.forall_mem_map.mpr fun _ _ => rfl
  entities := List.forall_mem_map.mpr fun e _ => Element.isWhole_draft (.entity e)
  relationships := List.forall_mem_map.mpr fun _ _ => rfl

/-- The record of a filed diagram is read as its draft. -/
theorem Diagram.IsFiled.draft_toJson {d : Diagram} (h : d.IsFiled) :
    Draft.ofJson d.toJson = .ok d.draft :=
  h.isWhole_draft.ofJson_toJson

/-- The record of a filed diagram is read as the diagram. -/
theorem Diagram.IsFiled.ofJson_toJson {d : Diagram} (h : d.IsFiled) :
    Diagram.ofJson d.toJson = .ok d :=
  bind_eq_ok.mpr ⟨d.draft, h.draft_toJson, d.diagram_draft⟩

/-! ### Diagrams of records -/

/-- What is read from wrapped values is what is read from the values, wrapped. -/
theorem eq_map_of_mapM_map {α β γ δ : Type} {read : α → Read γ} {read' : β → Read δ}
    {wrap : α → β} {wrap' : γ → δ} {as : List α} {cs : List γ} {ds : List δ}
    (hcs : as.mapM read = .ok cs) (hds : (as.map wrap).mapM read' = .ok ds)
    (h : ∀ a, read' (wrap a) = wrap' <$> read a) : ds = cs.map wrap' := by
  induction as generalizing cs ds with
  | nil =>
    cases hcs
    cases hds
    rfl
  | cons a as ih =>
    rw [List.mapM_cons] at hcs
    rw [List.map_cons, List.mapM_cons, h] at hds
    obtain ⟨c, hc, hcs⟩ := bind_eq_ok.mp hcs
    obtain ⟨cs', hcs', hcs⟩ := bind_eq_ok.mp hcs
    rw [hc, map_ok, ok_bind] at hds
    obtain ⟨ds', hds', hds⟩ := bind_eq_ok.mp hds
    cases hcs
    cases hds
    rw [ih hcs' hds', List.map_cons]

/-- A word that is read as a dialect is that dialect's. -/
theorem isDialect_of_readTerm {field : String} {kind : Json} {dialect : Dialect} {t : Term Dialect}
    (h : readTerm field kind = .ok t) (ht : t = dialect) : Draft.isDialect dialect kind = true := by
  obtain ⟨word, hword, rfl⟩ := map_eq_ok.mp h
  cases kind with
  | str s =>
    cases hword
    rw [← Draft.isDialect_name, Term.name_ofName] at ht
    exact ht
  | _ => cases hword

/-- A word is that of one dialect. -/
theorem Draft.isDialect_unique {a b : Dialect} {kind : Json} (ha : Draft.isDialect a kind = true)
    (hb : Draft.isDialect b kind = true) : a = b := by
  cases kind with
  | str s =>
    rw [Draft.isDialect, beq_iff_eq] at ha hb
    exact Vocabulary.name_injective a b (ha.symm.trans hb)
  | _ => cases ha

/-- A diagram that was read from a record is filed. -/
theorem Diagram.isFiled_of_ofJson {j : Json} {d : Diagram} (h : Diagram.ofJson j = .ok d) :
    d.IsFiled := by
  obtain ⟨r, hr, h⟩ := bind_eq_ok.mp h
  have hwhole := Draft.isWhole_of_ofJson hr
  obtain ⟨kind, hkind, h⟩ := bind_eq_ok.mp h
  obtain ⟨direction, _, h⟩ := bind_eq_ok.mp h
  obtain ⟨nodes, hnodes, h⟩ := bind_eq_ok.mp h
  obtain ⟨edges, hedges, h⟩ := bind_eq_ok.mp h
  obtain ⟨groups, _, h⟩ := bind_eq_ok.mp h
  obtain ⟨participants, hparticipants, h⟩ := bind_eq_ok.mp h
  obtain ⟨messages, _, h⟩ := bind_eq_ok.mp h
  obtain ⟨entities, hentities, h⟩ := bind_eq_ok.mp h
  obtain ⟨relationships, hrelationships, h⟩ := bind_eq_ok.mp h
  cases h
  refine ⟨fun hd => ?_, fun hd => ?_, fun hd => ?_⟩
  · have hr := hwhole.nodes
    rw [Draft.NodesFor, if_pos (isDialect_of_readTerm hkind hd)] at hr
    rw [hr] at hnodes
    exact eq_map_of_mapM_map hparticipants hnodes fun _ => rfl
  · have hr := hwhole.nodes
    have hentity := isDialect_of_readTerm hkind hd
    have hsequence : ¬ Draft.isDialect .sequence r.kind = true := fun hc =>
      nomatch Draft.isDialect_unique hc hentity
    rw [Draft.NodesFor, if_neg hsequence, if_pos hentity] at hr
    rw [hr] at hnodes
    exact eq_map_of_mapM_map hentities hnodes fun _ => rfl
  · have hr := hwhole.edges
    rw [Draft.EdgesFor, if_pos (isDialect_of_readTerm hkind hd)] at hr
    rw [hr] at hedges
    exact eq_map_of_mapM_map hrelationships hedges fun _ => rfl

end Diagrams
