import Diagrams.Parse
import Diagrams.Proofs.Drawio.Links

/-!
# Drawings within the range of numbers

What is read from text consists of parts of its own kind, so nothing is left that a drawing could
fail on but the range of numbers. Only flowcharts meet its end: with each level of branches the
columns may be multiplied, while the coordinates of all other dialects are bounded by the numbers of
their parts.

* `Diagram.HasWideColumn`, `Diagram.HasWideCell`, `Diagram.IsTooWide` — where a number of a
  flowchart lies beyond the range; never without rounding (`Diagram.not_isTooWide_exact`).
* `Diagram.DrawnOrWide` — a document of which something holds, or else a flowchart that is too wide.

**Main statements** (`Diagram.drawnOrWide_of_parse`, `Diagram.exists_toDrawio_exact_of_parse`):
whatever is read from text is drawn unless it is too wide, and always without rounding.
-/

namespace Diagrams

open Drawio

variable {A : Number.Arithmetic} {d : Diagram} {title : Option String} {stamp : Stamp}

namespace Diagram

/-- A node of a flowchart stands in a column beyond the range. -/
structure HasWideColumn (A : Number.Arithmetic) (d : Diagram) : Prop where
  /-- The diagram is a flowchart. -/
  kind : d.kind = Dialect.flowchart
  /-- The distance of a column from the edge lies beyond the range. -/
  wide : ∃ nodes : List Node, (Layout.withTerminals d).nodes = nodes.map .node ∧
    Layout.columnsInRange A nodes (Layout.graphOf (Layout.withTerminals d).edges) d.flow = false

/-- A number that is written for a cell of a flowchart lies beyond the range. -/
structure HasWideCell (A : Number.Arithmetic) (d : Diagram) : Prop where
  /-- The diagram is a flowchart. -/
  kind : d.kind = Dialect.flowchart
  /-- A number of a cell lies beyond the range. -/
  wide : ∃ c edges, d.chart A = .ok c ∧
    drawnEdges (c.nodes.map Node.id) c.edges = edges.map .edge ∧
      cellsInRange A (c.cellsWith A d.groups edges) = false

/-- A number that the drawing of a flowchart needs lies beyond the range. -/
def IsTooWide (A : Number.Arithmetic) (d : Diagram) : Prop := d.HasWideColumn A ∨ d.HasWideCell A

/-- Only flowcharts are too wide. -/
theorem IsTooWide.kind (h : d.IsTooWide A) : d.kind = Dialect.flowchart :=
  h.elim HasWideColumn.kind HasWideCell.kind

/-- A document is drawn of which something holds, or else the diagram is a flowchart that is too
wide, and this is what is reported. -/
def DrawnOrWide (A : Number.Arithmetic) (d : Diagram) (title : Option String) (stamp : Stamp)
    (P : Document → Prop) : Prop :=
  (∃ doc, d.toDrawio A title stamp = .ok doc ∧ P doc) ∨
    d.IsTooWide A ∧ d.toDrawio A title stamp = .error .outOfRange

/-- Without rounding no column lies beyond the range. -/
theorem not_hasWideColumn_exact (d : Diagram) : ¬ d.HasWideColumn .exact := by
  rintro ⟨-, nodes, -, h⟩
  rw [Layout.columnsInRange_exact] at h
  cases h

/-- Without rounding nothing is too wide. -/
theorem not_isTooWide_exact (d : Diagram) : ¬ d.IsTooWide .exact := by
  rintro (h | ⟨-, c, edges, -, -, h⟩)
  · exact d.not_hasWideColumn_exact h
  · simp [cellsInRange] at h

/-- Without rounding a document is drawn. -/
theorem DrawnOrWide.exact {P : Document → Prop} (h : d.DrawnOrWide .exact title stamp P) :
    ∃ doc, d.toDrawio .exact title stamp = .ok doc ∧ P doc :=
  h.resolve_right fun hwide => d.not_isTooWide_exact hwide.1

/-- What holds of every document that is drawn. -/
theorem DrawnOrWide.imp {P Q : Document → Prop} (h : d.DrawnOrWide A title stamp P)
    (himp : ∀ doc, d.toDrawio A title stamp = .ok doc → P doc → Q doc) :
    d.DrawnOrWide A title stamp Q :=
  h.imp_left fun ⟨doc, hdoc, hP⟩ => ⟨doc, hdoc, himp doc hdoc hP⟩

/-- A diagram that is drawn is not too wide. -/
theorem DrawnOrWide.of_ok {P : Document → Prop} {doc : Document}
    (h : d.toDrawio A title stamp = .ok doc) (hP : P doc) : d.DrawnOrWide A title stamp P :=
  .inl ⟨doc, h, hP⟩

end Diagram

/-! ### Flowcharts -/

/-- The first edges of all pairs are among the edges. -/
theorem firstOfPairs_subset (pairs : List (String × String)) (edges : List Connector) :
    firstOfPairs pairs edges ⊆ edges := by
  induction edges generalizing pairs with
  | nil => exact List.Subset.refl _
  | cons e rest ih =>
    rw [firstOfPairs]
    split
    · exact List.subset_cons_of_subset e (ih pairs)
    · exact List.cons_subset_cons e (ih _)

namespace Diagram

/-- A flowchart of nodes has a chart unless a column lies beyond the range. -/
theorem chart_of_nodes {nodes : List Node} (hkind : d.kind = Dialect.flowchart)
    (hnodes : (Layout.withTerminals d).nodes = nodes.map .node) :
    (∃ c, d.chart A = .ok c) ∨ d.HasWideColumn A ∧ d.chart A = .error .outOfRange := by
  have hchart := Layout.chart_eq_of_nodes A hnodes
  split at hchart
  · exact .inl ⟨_, hchart⟩
  · rename_i hwide
    exact .inr ⟨⟨hkind, nodes, hnodes, eq_false_of_ne_true hwide⟩, hchart⟩

/-- The connectors that are drawn for a flowchart of edges are edges. -/
theorem drawnEdges_of_edges (names : List String) {edges : List Edge}
    (hkind : d.kind = Dialect.flowchart) (hedges : d.edges = edges.map .edge) :
    ∃ drawn : List Edge,
      drawnEdges names (Layout.withTerminals d).edges = drawn.map .edge := by
  apply exists_map_eq
  intro c hc
  have hmem := (List.mem_filter.mp (firstOfPairs_subset _ _ hc)).1
  rcases Layout.edge_of_mem_withTerminals hkind hmem with hmem | he
  · rw [hedges] at hmem
    obtain ⟨e, _, rfl⟩ := List.mem_map.mp hmem
    exact ⟨e, rfl⟩
  · exact he

/-- A flowchart with a column beyond the range has no chart. -/
theorem HasWideColumn.chart_eq_error (h : d.HasWideColumn A) : d.chart A = .error .outOfRange := by
  obtain ⟨-, nodes, hnodes, hwide⟩ := h
  rw [Layout.chart_eq_of_nodes A hnodes, if_neg (ne_true_of_eq_false hwide)]

/-- A flowchart with a column beyond the range gets no boxes. -/
theorem HasWideColumn.layout_eq_error (h : d.HasWideColumn A) :
    d.layout A = .error .outOfRange := by
  unfold layout
  rw [h.kind, h.chart_eq_error]
  rfl

/-- The cells of a chart, when the connectors that are drawn are edges. -/
theorem cells_eq_of_edges {c : Chart} {drawn : List Edge}
    (hdrawn : drawnEdges (c.nodes.map Node.id) c.edges = drawn.map .edge) :
    c.cells A d.groups = if cellsInRange A (c.cellsWith A d.groups drawn) then
      .ok (c.cellsWith A d.groups drawn) else .error .outOfRange := by
  simp only [Chart.cells, edgesOrFail_eq_ok.mpr hdrawn]
  rfl

/-- What is too wide is not drawn. -/
theorem IsTooWide.toDrawio_eq_error (h : d.IsTooWide A) :
    d.toDrawio A title stamp = .error .outOfRange := by
  unfold toDrawio
  rcases h with h | ⟨hkind, c, drawn, hc, hdrawn, hwide⟩
  · rw [h.kind]
    simp only [h.chart_eq_error]
    rfl
  · rw [hkind]
    simp only [hc, ok_bind, cells_eq_of_edges hdrawn, hwide]
    rfl

/-- The cells of a chart are drawn unless a number of them lies beyond the range. -/
theorem cells_of_edges {c : Chart} {drawn : List Edge} (hkind : d.kind = Dialect.flowchart)
    (hc : d.chart A = .ok c)
    (hdrawn : drawnEdges (c.nodes.map Node.id) c.edges = drawn.map .edge) :
    (∃ cells, c.cells A d.groups = .ok cells) ∨
      d.HasWideCell A ∧ c.cells A d.groups = .error .outOfRange := by
  have hcells := cells_eq_of_edges (A := A) (d := d) hdrawn
  split at hcells
  · exact .inl ⟨_, hcells⟩
  · rename_i hwide
    exact .inr ⟨⟨hkind, c, drawn, hc, hdrawn, eq_false_of_ne_true hwide⟩, hcells⟩

/-- A flowchart of nodes and edges is drawn unless it is too wide. -/
theorem drawnOrWide_flowchart (A : Number.Arithmetic) (hkind : d.kind = Dialect.flowchart)
    (nodes : List Node) (hnodes : d.nodes = nodes.map .node) (edges : List Edge)
    (hedges : d.edges = edges.map .edge) (title : Option String) (stamp : Stamp) :
    d.DrawnOrWide A title stamp fun _ => True := by
  obtain ⟨all, hall, -⟩ := Layout.exists_nodes_withTerminals hkind hnodes
  unfold DrawnOrWide toDrawio
  rw [hkind]
  -- the columns may lie beyond the range, and after them the numbers of the cells
  rcases chart_of_nodes (A := A) hkind hall with ⟨c, hc⟩ | ⟨hwide, hc⟩
  · obtain ⟨names, -, -, rfl⟩ := Layout.chart_eq_ok.mp hc
    obtain ⟨drawn, hdrawn⟩ := drawnEdges_of_edges (names.map Node.id) hkind hedges
    rcases cells_of_edges hkind hc hdrawn with ⟨cells, hcells⟩ | ⟨hwide, hcells⟩
    · exact .inl ⟨_, bind_eq_ok.mpr ⟨_, hc, bind_eq_ok.mpr ⟨cells, hcells, rfl⟩⟩, trivial⟩
    · refine .inr ⟨.inr hwide, ?_⟩
      simp only [hc, ok_bind, hcells]
      rfl
  · refine .inr ⟨.inl hwide, ?_⟩
    simp only [hc]
    rfl

/-! ### Other dialects -/

/-- A sequence diagram is drawn. -/
theorem exists_toDrawio_sequence (A : Number.Arithmetic) (hkind : d.kind = Dialect.sequence)
    (title : Option String) (stamp : Stamp) : ∃ doc, d.toDrawio A title stamp = .ok doc := by
  unfold toDrawio
  rw [hkind]
  exact ⟨_, rfl⟩

/-- A mindmap of nodes is drawn. -/
theorem exists_toDrawio_mindmap (A : Number.Arithmetic) (hkind : d.kind = Dialect.mindmap)
    (nodes : List Node) (hnodes : d.nodes = nodes.map .node) (title : Option String)
    (stamp : Stamp) : ∃ doc, d.toDrawio A title stamp = .ok doc := by
  unfold toDrawio mindmapCells
  rw [hkind, nodesOrFail_eq_ok.mpr hnodes]
  exact ⟨_, rfl⟩

/-- A diagram of entities and relationships between them has a plan. -/
theorem tablePlan_of_entities {es : List Entity} (htables : d.tables = es.map .entity)
    {rs : List Relationship}
    (hlinks : (drawnLinks (Layout.entities es d.links) d.links).map (·.1) = rs.map .relationship) :
    d.tablePlan = .ok ⟨es, rs.zip ((drawnLinks (Layout.entities es d.links) d.links).map (·.2)),
      Layout.entities es d.links⟩ :=
  tablePlan_eq_ok.mpr ⟨rs, htables, rfl, hlinks, rfl⟩

/-- The document of an entity-relationship diagram shows its plan. -/
theorem toDrawio_eq_ok_of_entities (hkind : d.kind = Dialect.entityRelationship) {doc : Document} :
    d.toDrawio A title stamp = .ok doc ↔ ∃ plan, d.tablePlan = .ok plan ∧
      doc = ⟨.text (orElse title (defaultTitle d.kind)), stamp,
        (pageSize plan.boxes.values 850 600).1, (pageSize plan.boxes.values 850 600).2, (1200, 800),
        plan.cells A⟩ := by
  unfold toDrawio
  rw [hkind, bind_eq_ok]
  refine exists_congr fun plan => ?_
  rw [mapError_eq_ok]
  exact and_congr_right fun _ => ⟨fun h => (Except.ok.inj h).symm, fun h => h ▸ rfl⟩

/-- The links between tables are relationships when all links are. -/
theorem drawnLinks_of_relationships {links : List Connector} {rs : List Relationship}
    (hlinks : links = rs.map .relationship) (boxes : Table Box) :
    ∃ drawn : List Relationship, (drawnLinks boxes links).map (·.1) = drawn.map .relationship := by
  subst hlinks
  refine ⟨(rs.zipIdx.filter fun r =>
    boxes.contains r.1.source && boxes.contains r.1.target).map (·.1), ?_⟩
  rw [drawnLinks, List.zipIdx_map, List.filter_map, List.map_map, List.map_map]
  rfl

end Diagram

/-! ### Diagrams read from text -/

/-- Whatever is read is drawn unless it is too wide. -/
theorem Source.drawnOrWide_readBody (A : Number.Arithmetic) (header : List Char)
    (body : List (List Char)) (title : Option String) (stamp : Stamp) :
    (Source.readBody header body).DrawnOrWide A title stamp fun _ => True := by
  unfold Source.readBody
  split
  · obtain ⟨doc, hdoc⟩ := Diagram.exists_toDrawio_sequence A (d := Sequence.read body) rfl
      title stamp
    exact .of_ok hdoc trivial
  · have hd := Entities.isSound_read body
    obtain ⟨drawn, hdrawn⟩ := Diagram.drawnLinks_of_relationships (hd.links_eq rfl) _
    have hplan := Diagram.tablePlan_of_entities (hd.tables_eq rfl) hdrawn
    exact .of_ok ((Diagram.toDrawio_eq_ok_of_entities rfl).mpr ⟨_, hplan, rfl⟩) trivial
  · obtain ⟨doc, hdoc⟩ := Diagram.exists_toDrawio_mindmap A (d := Mindmap.read body) rfl _ rfl
      title stamp
    exact .of_ok hdoc trivial
  · exact Diagram.drawnOrWide_flowchart A rfl _ rfl _ rfl title stamp
  · exact Diagram.drawnOrWide_flowchart A rfl _ rfl _ rfl title stamp
  · exact Diagram.drawnOrWide_flowchart A rfl _ rfl _ rfl title stamp

namespace Diagram

/-- **Main statement.** Whatever is read from text is drawn unless it is a flowchart that is too
wide. -/
theorem drawnOrWide_of_parse (A : Number.Arithmetic) {code : String}
    (h : Diagram.parse code = .ok d) (title : Option String) (stamp : Stamp) :
    d.DrawnOrWide A title stamp fun _ => True := by
  obtain ⟨header, body, -, rfl⟩ := eq_readBody_of_parse h
  exact Source.drawnOrWide_readBody A header body title stamp

/-- **Main statement.** Without rounding whatever is read from text is drawn. -/
theorem exists_toDrawio_exact_of_parse {code : String} (h : Diagram.parse code = .ok d)
    (title : Option String) (stamp : Stamp) :
    ∃ doc, d.toDrawio .exact title stamp = .ok doc := by
  obtain ⟨doc, hdoc, -⟩ := (drawnOrWide_of_parse .exact h title stamp).exact
  exact ⟨doc, hdoc⟩

end Diagram

end Diagrams
