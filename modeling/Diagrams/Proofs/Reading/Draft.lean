import Diagrams.Diagram.Record
import Diagrams.Proofs.Outcome

/-!
# Drafts are read as they were written

**Main statement** (`Draft.ofJson_toJson`): the record of a draft that was read is read as the same
draft.

Reading goes by names of fields, so all that matters is which fields a record has. A form that was
filled has the names of the form (`Form.names_of_build`), and what has these names is read as it is
(`Form.build_of_names`). The names also tell the kinds of elements and connectors apart
(`Element.IsWhole.ofJson`, `Connector.IsWhole.ofJson`). A draft in which every record has the names
of its form is *whole* (`Draft.IsWhole`): what was read is whole, and what is whole is read as it
is.
-/

namespace Diagrams

namespace Record

/-! ### Forms -/

/-- A filled form has the form's fields. -/
theorem Form.names_of_build {form : Form} {j : Json} {fields : Fields}
    (h : form.build j = .ok fields) : Table.names fields = form.names := by
  cases j with
  | obj given =>
    have hfields := mapM_eq_ok.mp h
    clear h
    induction hfields with
    | nil => rfl
    | @cons f e form fields he _ ih =>
      have hname : e.1 = f.1 := by
        unfold fill at he
        split at he
        · cases he
          rfl
        · cases he
          rfl
        · cases he
      rw [Table.names, Form.names, List.map_cons, List.map_cons, hname]
      exact congrArg (f.1 :: ·) ih
  | _ => cases h

/-- Fields of a record whose names are those of a form fill the form. -/
theorem mapM_fill {given : Fields} (hgiven : Table.names given |>.Nodup) {form : Form}
    {fields : Fields} (hnames : Table.names fields = form.names) (hsub : fields ⊆ given) :
    form.mapM (fill given) = .ok fields := by
  induction form generalizing fields with
  | nil =>
    obtain rfl : fields = [] := List.map_eq_nil_iff.mp hnames
    rfl
  | cons f form ih =>
    cases fields with
    | nil => cases hnames
    | cons e fields =>
      obtain ⟨hname, hrest⟩ := List.cons.inj hnames
      have he : fill given f = .ok e := by
        have hget : given.get? e.1 = some e.2 :=
          Table.get?_of_mem hgiven (hsub List.mem_cons_self)
        rw [show e.1 = f.1 from hname] at hget
        rw [fill, hget]
        exact congrArg Except.ok (Prod.ext hname.symm rfl)
      rw [List.mapM_cons, he, ih hrest fun x hx => hsub (List.mem_cons_of_mem e hx)]
      rfl

/-- What has the fields of a form is read as it is. -/
theorem Form.build_of_names {form : Form} {fields : Fields} (hform : form.names.Nodup)
    (h : Table.names fields = form.names) : form.build (.obj fields) = .ok fields :=
  mapM_fill (h ▸ hform) h (List.Subset.refl _)

/-! ### Lists of records -/

variable {α : Type} {field : String} {read : Json → Read α}

/-- Whatever is in a list was read. -/
theorem exists_of_readRecords {j : Json} {as : List α} (h : readRecords field read j = .ok as) :
    ∀ a ∈ as, ∃ item, read item = .ok a := by
  unfold readRecords at h
  split at h
  · rename_i items
    have hitems := mapM_eq_ok.mp h
    intro a ha
    obtain ⟨n, hn, rfl⟩ := List.mem_iff_getElem.mp ha
    have hn' : n < items.length := hitems.length_eq ▸ hn
    exact ⟨items[n], hitems.get hn' hn⟩
  · split at h
    · cases h
      exact nofun
    · cases h
  · split at h
    · cases h
      exact nofun
    · cases h
  · cases h

/-- A list whose items are read as they are written is read as it is written. -/
theorem readRecords_map {write : α → Json} {as : List α}
    (h : ∀ a ∈ as, read (write a) = .ok a) :
    readRecords field read (.arr (as.map write)) = .ok as :=
  mapM_map_eq_ok h

/-! ### Edges and entities -/

/-- Fields of an edge; what stands for the style, if it is a record, has the fields of one. -/
structure IsEdge (fields : Fields) : Prop where
  names : Table.names fields = edgeForm.names
  arrow : ∀ style, fields.get? "arrow" = some (.obj style) → Table.names style = arrowForm.names

/-- Fields of an entity whose attributes have the fields of attributes. -/
structure IsEntity (fields : Fields) : Prop where
  names : Table.names fields = entityForm.names
  attributes : ∃ attributes : List Fields,
    fields.get? "attributes" = some (.arr (attributes.map .obj)) ∧
      ∀ a ∈ attributes, Table.names a = attributeForm.names

/-- Changing the value of a field leaves the names alone. -/
theorem names_insert_of_mem {fields : Fields} {name : String} (h : name ∈ Table.names fields)
    (value : Json) : Table.names (fields.insert name value) = Table.names fields := by
  rw [Table.names_insert, if_pos h]

/-- What is read as an edge has the fields of one. -/
theorem isEdge_of_readEdge {j : Json} {fields : Fields} (h : readEdge j = .ok fields) :
    IsEdge fields := by
  obtain ⟨found, hfound, h⟩ := bind_eq_ok.mp h
  have hnames := edgeForm.names_of_build hfound
  split at h
  · rename_i given hgiven
    obtain ⟨style, hstyle, h⟩ := bind_eq_ok.mp h
    cases h
    refine ⟨?_, fun other hother => ?_⟩
    · rw [names_insert_of_mem (by rw [hnames]; decide), hnames]
    · rw [Table.get?_insert, if_pos rfl] at hother
      cases hother
      exact arrowForm.names_of_build hstyle
  · rename_i hnone
    cases h
    exact ⟨hnames, fun style hstyle => absurd hstyle (hnone style)⟩

/-- The fields of an edge are read as they are. -/
theorem IsEdge.readEdge {fields : Fields} (h : IsEdge fields) :
    readEdge (.obj fields) = .ok fields := by
  refine bind_eq_ok.mpr ⟨fields, edgeForm.build_of_names (by decide) h.names, ?_⟩
  split
  · rename_i style hstyle
    refine bind_eq_ok.mpr ⟨style, arrowForm.build_of_names (by decide) (h.arrow style hstyle), ?_⟩
    rw [Table.insert_of_get? hstyle]
    rfl
  · rfl

/-- What is read as an entity has the fields of one. -/
theorem isEntity_of_readEntity {j : Json} {fields : Fields} (h : readEntity j = .ok fields) :
    IsEntity fields := by
  obtain ⟨found, hfound, h⟩ := bind_eq_ok.mp h
  obtain ⟨attributes, hattributes, h⟩ := bind_eq_ok.mp h
  have hnames := entityForm.names_of_build hfound
  cases h
  refine ⟨?_, attributes, ?_, fun a ha => ?_⟩
  · rw [names_insert_of_mem (by rw [hnames]; decide), hnames]
  · rw [Table.get?_insert, if_pos rfl]
  · obtain ⟨item, hitem⟩ := exists_of_readRecords hattributes a ha
    exact attributeForm.names_of_build hitem

/-- The fields of an entity are read as they are. -/
theorem IsEntity.readEntity {fields : Fields} (h : IsEntity fields) :
    readEntity (.obj fields) = .ok fields := by
  obtain ⟨attributes, hget, hnames⟩ := h.attributes
  refine bind_eq_ok.mpr ⟨fields, entityForm.build_of_names (by decide) h.names, ?_⟩
  refine bind_eq_ok.mpr ⟨attributes, ?_, ?_⟩
  · rw [recordsIn, Json.getD, Json.field?, hget]
    exact readRecords_map fun a ha => attributeForm.build_of_names (by decide) (hnames a ha)
  · rw [Table.insert_of_get? hget]
    rfl

end Record

open Record

/-! ### Elements and connectors -/

/-- Which fields a record has shows in the form whose names it has. -/
theorem Json.has_of_names (form : Form) {fields : Fields}
    (h : Table.names fields = form.names) (name : String) :
    (Json.obj fields).has name = decide (name ∈ form.names) := by
  rw [Bool.eq_iff_iff, decide_eq_true_iff, ← h]
  exact Table.contains_iff

namespace Draft

/-- The element has the fields of its kind. -/
def Element.IsWhole : Element → Prop
  | node fields => Table.names fields = nodeForm.names
  | participant fields => Table.names fields = participantForm.names
  | entity fields => IsEntity fields

/-- The connector has the fields of its kind. -/
def Connector.IsWhole : Connector → Prop
  | edge fields => IsEdge fields
  | relationship fields => Table.names fields = relationshipForm.names

/-- An element that is read has all its fields. -/
theorem Element.isWhole_of_ofJson {j : Json} {e : Element} (h : Element.ofJson j = .ok e) :
    e.IsWhole := by
  obtain ⟨_, _, h⟩ := bind_eq_ok.mp h
  split at h
  · obtain ⟨fields, hfields, rfl⟩ := map_eq_ok.mp h
    exact isEntity_of_readEntity hfields
  · split at h
    · obtain ⟨fields, hfields, rfl⟩ := map_eq_ok.mp h
      exact participantForm.names_of_build hfields
    · obtain ⟨fields, hfields, rfl⟩ := map_eq_ok.mp h
      exact nodeForm.names_of_build hfields

/-- A connector that is read has all its fields. -/
theorem Connector.isWhole_of_ofJson {j : Json} {c : Connector} (h : Connector.ofJson j = .ok c) :
    c.IsWhole := by
  obtain ⟨_, _, h⟩ := bind_eq_ok.mp h
  split at h
  · obtain ⟨fields, hfields, rfl⟩ := map_eq_ok.mp h
    exact relationshipForm.names_of_build hfields
  · obtain ⟨fields, hfields, rfl⟩ := map_eq_ok.mp h
    exact isEdge_of_readEdge hfields

/-- An element is read as it is, with its kind. -/
theorem Element.IsWhole.ofJson {e : Element} (h : e.IsWhole) :
    Element.ofJson (.obj e.fields) = .ok e := by
  refine bind_eq_ok.mpr ⟨(), rfl, ?_⟩
  cases e with
  | entity fields =>
    have hhas := Json.has_of_names entityForm h.names
    rw [Element.fields, hhas, if_pos (by decide)]
    exact map_eq_ok.mpr ⟨fields, h.readEntity, rfl⟩
  | participant fields =>
    have hhas := Json.has_of_names participantForm h
    rw [Element.fields, hhas, hhas, if_neg (by decide), if_pos (by decide)]
    exact map_eq_ok.mpr ⟨fields, participantForm.build_of_names (by decide) h, rfl⟩
  | node fields =>
    have hhas := Json.has_of_names nodeForm h
    rw [Element.fields, hhas, hhas, if_neg (by decide), if_neg (by decide)]
    exact map_eq_ok.mpr ⟨fields, nodeForm.build_of_names (by decide) h, rfl⟩

/-- A connector is read as it is, with its kind. -/
theorem Connector.IsWhole.ofJson {c : Connector} (h : c.IsWhole) :
    Connector.ofJson (.obj c.fields) = .ok c := by
  refine bind_eq_ok.mpr ⟨(), rfl, ?_⟩
  cases c with
  | relationship fields =>
    have hhas := Json.has_of_names relationshipForm h
    rw [Connector.fields, hhas, if_pos (by decide)]
    exact map_eq_ok.mpr ⟨fields, relationshipForm.build_of_names (by decide) h, rfl⟩
  | edge fields =>
    have hhas := Json.has_of_names edgeForm h.names
    rw [Connector.fields, hhas, if_neg (by decide)]
    exact map_eq_ok.mpr ⟨fields, h.readEdge, rfl⟩

/-! ### Drafts -/

/-- The nodes are those that the kind asks for. -/
def NodesFor (kind : Json) (participants entities : List Fields) (nodes : List Element) : Prop :=
  if isDialect .sequence kind then nodes = participants.map .participant
  else if isDialect .entityRelationship kind then nodes = entities.map .entity
  else ∀ n ∈ nodes, n.IsWhole

/-- The edges are those that the kind asks for. -/
def EdgesFor (kind : Json) (relationships : List Fields) (edges : List Connector) : Prop :=
  if isDialect .entityRelationship kind then edges = relationships.map .relationship
  else ∀ e ∈ edges, e.IsWhole

/-- Every record in a draft has the fields of its kind, and the lists of nodes and edges are those
that the draft's kind asks for. -/
structure IsWhole (r : Draft) : Prop where
  nodes : NodesFor r.kind r.participants r.entities r.nodes
  edges : EdgesFor r.kind r.relationships r.edges
  groups : ∀ fields ∈ r.groups, Table.names fields = groupForm.names
  participants : ∀ fields ∈ r.participants, Table.names fields = participantForm.names
  messages : ∀ fields ∈ r.messages, Table.names fields = messageForm.names
  entities : ∀ fields ∈ r.entities, IsEntity fields
  relationships : ∀ fields ∈ r.relationships, Table.names fields = relationshipForm.names

/-- The records of a list that was read with a form have the form's fields. -/
theorem names_of_recordsIn {form : Form} {j : Json} {field : String} {records : List Fields}
    (h : recordsIn j field form.build = .ok records) :
    ∀ fields ∈ records, Table.names fields = form.names := by
  intro fields hfields
  obtain ⟨_, hitem⟩ := exists_of_readRecords h fields hfields
  exact form.names_of_build hitem

/-- The nodes that were read are those that the kind asks for. -/
theorem nodesFor_of_readNodes {kind j : Json} {participants entities : List Fields}
    {nodes : List Element} (h : readNodes kind participants entities j = .ok nodes) :
    NodesFor kind participants entities nodes := by
  unfold readNodes at h
  unfold NodesFor
  split at h
  · rename_i hkind
    rw [if_pos hkind]
    exact (Except.ok.inj h).symm
  · rename_i hsequence
    rw [if_neg hsequence]
    split at h
    · rename_i hkind
      rw [if_pos hkind]
      exact (Except.ok.inj h).symm
    · rename_i hentity
      rw [if_neg hentity]
      intro n hn
      obtain ⟨_, hitem⟩ := exists_of_readRecords h n hn
      exact Element.isWhole_of_ofJson hitem

/-- The edges that were read are those that the kind asks for. -/
theorem edgesFor_of_readEdges {kind j : Json} {relationships : List Fields}
    {edges : List Connector} (h : readEdges kind relationships j = .ok edges) :
    EdgesFor kind relationships edges := by
  unfold readEdges at h
  unfold EdgesFor
  split at h
  · rename_i hkind
    rw [if_pos hkind]
    exact (Except.ok.inj h).symm
  · rename_i hentity
    rw [if_neg hentity]
    intro e he
    obtain ⟨_, hitem⟩ := exists_of_readRecords h e he
    exact Connector.isWhole_of_ofJson hitem

/-- What was read is whole. -/
theorem isWhole_of_ofJson {j : Json} {r : Draft} (h : ofJson j = .ok r) : r.IsWhole := by
  obtain ⟨_, _, h⟩ := bind_eq_ok.mp h
  obtain ⟨participants, hparticipants, h⟩ := bind_eq_ok.mp h
  obtain ⟨entities, hentities, h⟩ := bind_eq_ok.mp h
  obtain ⟨relationships, hrelationships, h⟩ := bind_eq_ok.mp h
  obtain ⟨nodes, hnodes, h⟩ := bind_eq_ok.mp h
  obtain ⟨edges, hedges, h⟩ := bind_eq_ok.mp h
  obtain ⟨groups, hgroups, h⟩ := bind_eq_ok.mp h
  obtain ⟨messages, hmessages, h⟩ := bind_eq_ok.mp h
  cases h
  exact
    { nodes := nodesFor_of_readNodes hnodes, edges := edgesFor_of_readEdges hedges
      groups := names_of_recordsIn hgroups, participants := names_of_recordsIn hparticipants
      messages := names_of_recordsIn hmessages
      entities := fun e he =>
        let ⟨_, hitem⟩ := exists_of_readRecords hentities e he
        isEntity_of_readEntity hitem
      relationships := names_of_recordsIn hrelationships }

/-- A list of records with the fields of a form is read as it is. -/
theorem readRecords_build {form : Form} (hform : form.names.Nodup) (field : String)
    {records : List Fields} (h : ∀ fields ∈ records, Table.names fields = form.names) :
    readRecords field form.build (.arr (records.map .obj)) = .ok records :=
  readRecords_map fun fields hfields => form.build_of_names hform (h fields hfields)

/-- The nodes of a whole draft are read from its record as they are. -/
theorem IsWhole.readNodes {r : Draft} (h : r.IsWhole) :
    readNodes r.kind r.participants r.entities r.toJson = .ok r.nodes := by
  have hnodes := h.nodes
  unfold NodesFor at hnodes
  unfold Draft.readNodes
  split
  · rename_i hkind
    rw [if_pos hkind] at hnodes
    rw [hnodes]
  · rename_i hsequence
    rw [if_neg hsequence] at hnodes
    split
    · rename_i hkind
      rw [if_pos hkind] at hnodes
      rw [hnodes]
    · rename_i hentity
      rw [if_neg hentity] at hnodes
      exact readRecords_map fun n hn => (hnodes n hn).ofJson

/-- The edges of a whole draft are read from its record as they are. -/
theorem IsWhole.readEdges {r : Draft} (h : r.IsWhole) :
    readEdges r.kind r.relationships r.toJson = .ok r.edges := by
  have hedges := h.edges
  unfold EdgesFor at hedges
  unfold Draft.readEdges
  split
  · rename_i hkind
    rw [if_pos hkind] at hedges
    rw [hedges]
  · rename_i hentity
    rw [if_neg hentity] at hedges
    exact readRecords_map fun e he => (hedges e he).ofJson

/-- The record of a whole draft is read as the draft. -/
theorem IsWhole.ofJson_toJson {r : Draft} (h : r.IsWhole) : ofJson r.toJson = .ok r := by
  refine bind_eq_ok.mpr ⟨(), rfl, ?_⟩
  refine bind_eq_ok.mpr ⟨_, readRecords_build (by decide) _ h.participants, ?_⟩
  refine bind_eq_ok.mpr ⟨_, readRecords_map fun e he => (h.entities e he).readEntity, ?_⟩
  refine bind_eq_ok.mpr ⟨_, readRecords_build (by decide) _ h.relationships, ?_⟩
  refine bind_eq_ok.mpr ⟨_, h.readNodes, ?_⟩
  refine bind_eq_ok.mpr ⟨_, h.readEdges, ?_⟩
  refine bind_eq_ok.mpr ⟨_, readRecords_build (by decide) _ h.groups, ?_⟩
  exact bind_eq_ok.mpr ⟨_, readRecords_build (by decide) _ h.messages, rfl⟩

/-- What was read is read again from its record. -/
theorem ofJson_toJson {j : Json} {r : Draft} (h : ofJson j = .ok r) : ofJson r.toJson = .ok r :=
  (isWhole_of_ofJson h).ofJson_toJson

end Draft

end Diagrams
