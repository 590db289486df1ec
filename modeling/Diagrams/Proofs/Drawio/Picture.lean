import Diagrams.Proofs.Drawio.Document
import Diagrams.Proofs.Drawio.Frames
import Diagrams.Proofs.Drawio.Views
import Diagrams.Proofs.Layout.Coverage

/-!
# The document draws the graph

**Main statement** (`toDrawio_shows`): the document of a text that can be read shows exactly the
graph that was read, a flowchart's with its terminals. `Diagram.Shows` says for each dialect which
boxes lie on the page and which lines there are, in their order, with their labels and ends.

The names of parts become names of cells by one function for the whole page. A part whose ends had
no cell or no box would be left out; that this happens to none of them follows from two facts: what
is read refers to nodes only (`Diagram.IsSound`), and every node has a box (`Layout.names_flowchart`
and the like).
-/

namespace Diagrams

open Drawio Layout

/-! ### What is shown -/

section Shows

variable (cellOf : String → String) (cells : List Cell)

/-- The boxes show the nodes, one by one: each has the node's cell name and its label. -/
def ShowsNodes (boxes : List Vertex) (nodes : List Element) : Prop :=
  List.Forall₂ (fun v n => v.id = cellOf n.id ∧ v.label = n.label) boxes nodes

/-- A line joins the cells of two nodes. -/
def Drawio.Line.Joins (l : Line) (source target : String) : Prop :=
  l.ends = .cells (cellOf source) (cellOf target)

/-- The line shows an edge: its label, the style of its arrow, and its ends. -/
def ShowsEdge (l : Line) (e : Edge) : Prop :=
  l.label = e.label ∧ (∃ anchors : Anchors, l.style = edgeStyle e.arrow ++ anchors.style) ∧
    l.Joins cellOf e.source e.target

/-- A flowchart: a lane for every group that has members, a box for every node, and a line for the
first edge of every pair of ends. -/
structure ShowsChart (nodes : List Element) (edges : List Connector) (groups : List Group) :
    Prop where
  /-- Lanes lie behind the nodes. -/
  boxes : ∃ lanes boxes, pageBoxes cells = lanes ++ boxes ∧
    List.Forall₂ (fun v g => v.label = g.label ∧ v.style = groupStyle) lanes
      (groups.filter fun g => g.members ≠ []) ∧
    ShowsNodes cellOf boxes nodes
  /-- The lines show edges. -/
  lines : List.Forall₂ (fun l e => ∃ f, e = .edge f ∧ ShowsEdge cellOf l f) (pageLines cells)
    (firstEdges edges)
  /-- No box lies in another one. -/
  flat : IsFlat cells

/-- A mindmap: a box for every topic and a line for every edge. -/
structure ShowsTopics (nodes : List Element) (edges : List Connector) : Prop where
  /-- The boxes show topics. -/
  boxes : ShowsNodes cellOf (pageBoxes cells) nodes
  /-- The lines join topics. -/
  lines : List.Forall₂ (fun l e => l.Joins cellOf e.source e.target) (pageLines cells) edges
  /-- No box lies in another one. -/
  flat : IsFlat cells

/-- An entity-relationship diagram: a table for every entity and a line for every relationship. -/
structure ShowsEntities (nodes : List Element) (relationships : List Relationship) : Prop where
  /-- The boxes on the page show entities. -/
  boxes : ShowsNodes cellOf (pageBoxes cells) nodes
  /-- The lines show relationships. -/
  lines : List.Forall₂ (fun l r => l.label = r.label ∧ l.Joins cellOf r.source r.target)
    (pageLines cells) relationships
  /-- The other boxes are rows in tables of entities. -/
  rows : ∀ v, Cell.vertex v ∈ cells → ∀ name ∈ v.container, ∃ n ∈ nodes, name = cellOf n.id

/-- Among the boxes is that of a node, and its middle is at the given place. -/
def RunsAt (boxes : List Vertex) (name : String) (x : Rat) : Prop :=
  ∃ v ∈ boxes, v.id = cellOf name ∧ lifelineX v.box = x

/-- The line runs down from the box of a participant. -/
def ShowsLifeline (boxes : List Vertex) (l : Line) (n : Element) : Prop :=
  l.label = "" ∧ ∃ x y y', RunsAt cellOf boxes n.id x ∧ l.ends = .points ⟨x, y⟩ ⟨x, y'⟩

/-- The line shows a message: its text, its style, and a run at one height from the place of its
source to that of its target. -/
def ShowsMessage (boxes : List Vertex) (l : Line) (m : Message) : Prop :=
  l.label = m.text ∧ l.style = messageStyle m.line m.isAsync ∧
    ∃ x x' y, RunsAt cellOf boxes m.source x ∧ RunsAt cellOf boxes m.target x' ∧
      l.ends = .points ⟨x, y⟩ ⟨x', y⟩

/-- A sequence diagram: a box and a lifeline for every participant and a line for every message. -/
structure ShowsMessages (nodes : List Element) (messages : List Message) : Prop where
  /-- The boxes show participants. -/
  boxes : ShowsNodes cellOf (pageBoxes cells) nodes
  /-- Lifelines come before messages, which run from lifeline to lifeline. -/
  lines : ∃ lifelines others, pageLines cells = lifelines ++ others ∧
    List.Forall₂ (ShowsLifeline cellOf (pageBoxes cells)) lifelines nodes ∧
    List.Forall₂ (ShowsMessage cellOf (pageBoxes cells)) others messages
  /-- No box lies in another one. -/
  flat : IsFlat cells

/-- The cells show the diagram. -/
def Diagram.Shows (d : Diagram) : Prop :=
  match d.kind with
  | .known .sequence => ShowsMessages cellOf cells d.nodes d.messages
  | .known .entityRelationship => ShowsEntities cellOf cells d.nodes d.relationships
  | .known .mindmap => ShowsTopics cellOf cells d.nodes d.edges
  | .known .flowchart | .other .. =>
    ShowsChart cellOf cells (withTerminals d).nodes (withTerminals d).edges d.groups

end Shows

variable {A : Number.Arithmetic} {cellOf : String → String}

/-! ### Names of cells -/

/-- The cell names that were issued for some parts, as a function. -/
def cellName (cellOf : Table String) (name : String) : String := cellOf.getD name ""

/-- Each part has a cell name. -/
theorem get?_cellName {names ids : List String}
    (hlength : ids.length = names.length) :
    ∀ name ∈ names, (Table.ofList (names.zip ids)).get? name =
      some (cellName (.ofList (names.zip ids)) name) := by
  intro name hname
  have hzip : Table.names (names.zip ids) = names := List.map_fst_zip hlength.ge
  obtain ⟨id, hid⟩ := Table.exists_get?_ofList (by rw [hzip]; exact hname)
  rw [hid, cellName, Table.getD, hid, Option.getD_some]

/-! ### Flowcharts -/

/-- Lanes, nodes and edges that go together with the parts of a flowchart show it. -/
theorem ShowsChart.of_parts {lanes boxes lines : List Cell} {nodes : List Node} {edges : List Edge}
    {all : List Connector} {groups : List Group}
    (hlanes : List.Forall₂ (fun c g => ∃ v, c = .vertex v ∧ v.container = none ∧
      v.label = g.label ∧ v.style = groupStyle) lanes (groups.filter fun g => g.members ≠ []))
    (hboxes : List.Forall₂ (fun c n => ∃ v, c = .vertex v ∧ v.container = none ∧
      v.id = cellOf n.id ∧ v.label = n.label) boxes nodes)
    (hlines : List.Forall₂ (fun c e => ∃ l, c = .line l ∧ ShowsEdge cellOf l e) lines edges)
    (hedges : firstEdges all = edges.map .edge) :
    ShowsChart cellOf (lanes ++ boxes ++ lines) (nodes.map .node) all groups := by
  obtain ⟨hlanes, hlaneLines, hlaneFlat⟩ := showsAll_vertices hlanes
  obtain ⟨hboxes, hboxLines, hboxFlat⟩ := showsAll_vertices hboxes
  obtain ⟨hlines, hlineBoxes, hlineFlat⟩ := showsAll_lines hlines
  refine ⟨⟨pageBoxes lanes, pageBoxes boxes, ?_, hlanes, ?_⟩, ?_, ?_⟩
  · rw [pageBoxes_append, pageBoxes_append, hlineBoxes, List.append_nil]
  · rw [ShowsNodes, List.forall₂_map_right_iff]
    exact hboxes
  · rw [pageLines_append, pageLines_append, hlaneLines, hboxLines, hedges,
      List.forall₂_map_right_iff]
    exact hlines.imp fun l e hl => ⟨e, rfl, hl⟩
  · exact (hlaneFlat.append hboxFlat).append hlineFlat

namespace Chart

variable {c : Chart} {cellOf : Table String}

/-- A group whose members have boxes has one when it has members. -/
theorem groupBox_isSome {boxes : Table Box} {members : List String} (h : members ⊆ boxes.names) :
    (groupBox boxes members).isSome = true ↔ members ≠ [] := by
  have hnil : members.filterMap boxes.get? = [] ↔ members = [] := by
    rw [List.filterMap_eq_nil_iff]
    constructor
    · intro hall
      rw [List.eq_nil_iff_forall_not_mem]
      intro name hname
      obtain ⟨b, hb⟩ := Table.exists_get?_iff.mpr (h hname)
      rw [hall name hname] at hb
      cases hb
    · rintro rfl name hname
      cases hname
  cases hbs : members.filterMap boxes.get? with
  | nil => simp [groupBox, hnil.mp hbs]
  | cons b bs =>
    have hne : members ≠ [] := mt hnil.mpr (by simp [hbs])
    simp [groupBox, hbs, hne, List.min?_cons, List.max?_cons]

/-- The groups that are drawn are those with members. -/
theorem groups_drawnGroups {boxes : Table Box} {groups : List Group}
    (h : ∀ g ∈ groups, g.members ⊆ boxes.names) :
    (drawnGroups boxes groups).map (·.2.1) = groups.filter fun g => g.members ≠ [] := by
  have hfrom : ∀ n, ((groups.zipIdx n).filterMap fun p =>
      (groupBox boxes p.1.members).map fun b => ("sg" ++ toString p.2, p.1, b)).map (·.2.1) =
        groups.filter fun g => g.members ≠ [] := by
    induction groups with
    | nil => exact fun _ => rfl
    | cons g rest ih =>
      intro n
      have hrest := ih (fun g hg => h g (List.mem_cons_of_mem _ hg)) (n + 1)
      have hg := groupBox_isSome (h g List.mem_cons_self)
      rw [List.zipIdx_cons, List.filterMap_cons]
      cases hbox : groupBox boxes g.members with
      | none =>
        have hnil : g.members = [] := by
          by_contra hne
          simp [hbox] at hg
          exact hne hg
        simpa [hnil] using hrest
      | some b =>
        have hne : g.members ≠ [] := hg.mp (by simp [hbox])
        simpa [hne] using hrest
  exact hfrom 0

/-- The lanes show the groups with members, each with the box around these. -/
theorem showsAll_lanes {boxes : Table Box} {groups : List Group}
    (h : ∀ g ∈ groups, g.members ⊆ boxes.names) {ids : List String}
    (hlength : ids.length = (drawnGroups boxes groups).length) :
    List.Forall₂ (fun cell g => ∃ v, cell = .vertex v ∧ v.container = none ∧
        v.label = g.label ∧ v.style = groupStyle ∧ groupBox boxes g.members = some v.box)
      ((ids.zip (drawnGroups boxes groups)).map fun (id, _, g, box) =>
        Cell.vertex { id, label := g.label, style := groupStyle, box })
      (groups.filter fun g => g.members ≠ []) := by
  rw [← groups_drawnGroups h]
  have hbox : ∀ p ∈ drawnGroups boxes groups, groupBox boxes p.2.1.members = some p.2.2 :=
    fun _ hp => groupBox_of_mem_drawnGroups hp
  generalize drawnGroups boxes groups = drawn at hlength hbox ⊢
  have hgroups : drawn.map (·.2.1) = (ids.zip drawn).map fun p => p.2.2.1 := by
    conv_lhs => rw [← List.map_snd_zip hlength.ge, List.map_map]
    rfl
  rw [hgroups, List.forall₂_map_left_iff, List.forall₂_map_right_iff, List.forall₂_same]
  rintro ⟨id, p⟩ hp
  exact ⟨_, rfl, rfl, rfl, rfl, hbox p (List.of_mem_zip hp).2⟩

/-- The nodes of a chart with boxes are shown. -/
theorem showsAll_nodes (hboxes : c.boxes.names = c.nodes.map Node.id)
    (hcells : ∀ name ∈ c.nodes.map Node.id,
      cellOf.get? name = some (cellName cellOf name)) :
    List.Forall₂ (fun cell n => ∃ v, cell = .vertex v ∧ v.container = none ∧
        v.id = cellName cellOf n.id ∧ v.label = n.label ∧ c.boxes.get? n.id = some v.box)
      (c.nodes.filterMap (c.nodeCell cellOf)) c.nodes := by
  apply forall₂_filterMap
  intro n hn
  have hname : n.id ∈ c.nodes.map Node.id := List.mem_map_of_mem hn
  obtain ⟨b, hb⟩ := Table.exists_get?_iff.mpr (hboxes ▸ hname)
  simp only [nodeCell, hcells n.id hname, hb]
  exact ⟨_, rfl, _, rfl, rfl, rfl, rfl, rfl⟩

/-- An edge between nodes with boxes has a cell, which shows it and takes the course between the
boxes. -/
theorem exists_edgeCell (A : Number.Arithmetic) {e : Edge}
    (hcells : ∀ name ∈ c.nodes.map Node.id, cellOf.get? name = some (cellName cellOf name))
    (hboxes : ∀ name ∈ c.nodes.map Node.id, ∃ b, c.boxes.get? name = some b)
    (hs : e.source ∈ c.nodes.map Node.id) (ht : e.target ∈ c.nodes.map Node.id) (id : String) :
    ∃ l shape s t, c.edgeCell A cellOf id e = some (.line l) ∧ ShowsEdge (cellName cellOf) l e ∧
      c.shapeOf e.source = some shape ∧ c.boxes.get? e.source = some s ∧
      c.boxes.get? e.target = some t ∧
      l.waypoints.length = (route A shape s t).waypoints.length := by
  obtain ⟨s, hbox⟩ := hboxes _ hs
  obtain ⟨t, hbox'⟩ := hboxes _ ht
  obtain ⟨shape, hshape⟩ : ∃ shape, c.shapeOf e.source = some shape := by
    have hnames : Table.names (c.nodes.map fun n => (n.id, n.shape)) = c.nodes.map Node.id := by
      simp [Table.names, Function.comp_def]
    exact Table.exists_get?_ofList (by rw [hnames]; exact hs)
  simp only [edgeCell, hcells _ hs, hcells _ ht, hshape, hbox, hbox']
  exact ⟨_, shape, s, t, rfl, ⟨rfl, ⟨_, rfl⟩, rfl⟩, rfl, rfl, rfl, List.length_map ..⟩

/-- The edges of a chart with boxes are shown. -/
theorem showsAll_edges
    (hboxes : c.boxes.names = c.nodes.map Node.id)
    (hcells : ∀ name ∈ c.nodes.map Node.id, cellOf.get? name = some (cellName cellOf name))
    {edges : List Edge}
    (hedges : ∀ e ∈ edges, e.source ∈ c.nodes.map Node.id ∧ e.target ∈ c.nodes.map Node.id)
    {ids : List String} (hlength : ids.length = edges.length) :
    List.Forall₂ (fun cell e => ∃ l, cell = .line l ∧ ShowsEdge (cellName cellOf) l e)
      ((ids.zip edges).filterMap fun p => c.edgeCell A cellOf p.1 p.2) edges := by
  apply forall₂_filterMap_zip hlength
  intro id e he
  obtain ⟨hs, ht⟩ := hedges e he
  obtain ⟨l, -, -, -, hcell, hshows, -⟩ := exists_edgeCell A hcells
    (fun name hname => Table.exists_get?_iff.mpr (hboxes ▸ hname)) hs ht id
  exact ⟨_, hcell, l, rfl, hshows⟩

/-- The cells of a chart are lanes, boxes of nodes and lines, drawn with one table of cell names. -/
theorem exists_parts {groups : List Group} {cells : List Cell} (h : c.cells A groups = .ok cells) :
    ∃ (cellOf : Table String) (edges : List Edge) (groupIds edgeIds : List String),
      (∀ name ∈ c.nodes.map Node.id, cellOf.get? name = some (cellName cellOf name)) ∧
      drawnEdges (c.nodes.map Node.id) c.edges = edges.map .edge ∧
      groupIds.length = (drawnGroups c.boxes groups).length ∧ edgeIds.length = edges.length ∧
      cells = ((groupIds.zip (drawnGroups c.boxes groups)).map fun (id, _, g, box) =>
          Cell.vertex { id, label := g.label, style := groupStyle, box }) ++
        c.nodes.filterMap (c.nodeCell cellOf) ++
        (edgeIds.zip edges).filterMap fun p => c.edgeCell A cellOf p.1 p.2 := by
  obtain ⟨edges, hdrawn, -, rfl⟩ := cells_eq_ok.mp h
  unfold cellsWith
  cases hn : CellIds.issueAll {} (c.nodes.map Node.id) with | mk nodeIds ids₁ =>
  cases hg : ids₁.issueAll ((drawnGroups c.boxes groups).map (·.1)) with | mk groupIds ids₂ =>
  cases he : ids₂.issueAll (edges.map Edge.id) with | mk edgeIds ids₃ =>
  simp only [hn, hg, he]
  have hgroupIds := (CellIds.issues_of_issueAll hg).2
  have hedgeIds := (CellIds.issues_of_issueAll he).2
  rw [List.length_map] at hgroupIds hedgeIds
  exact ⟨_, edges, groupIds, edgeIds, get?_cellName (CellIds.issues_of_issueAll hn).2, hdrawn,
    hgroupIds, hedgeIds, rfl⟩

/-- The cells of a chart with boxes show it. -/
theorem showsChart_cells {groups : List Group} {cells : List Cell}
    (hboxes : c.boxes.names = c.nodes.map Node.id)
    (hedges : ∀ e ∈ c.edges, e.source ∈ c.nodes.map Node.id ∧ e.target ∈ c.nodes.map Node.id)
    (hgroups : ∀ g ∈ groups, g.members ⊆ c.nodes.map Node.id)
    (h : c.cells A groups = .ok cells) :
    ∃ cellOf, ShowsChart cellOf cells (c.nodes.map .node) c.edges groups := by
  obtain ⟨cellOf, edges, groupIds, edgeIds, hcells, hdrawn, hgroupIds, hedgeIds, rfl⟩ :=
    exists_parts h
  rw [drawnEdges_eq_firstEdges hedges] at hdrawn
  have hends : ∀ e ∈ edges, e.source ∈ c.nodes.map Node.id ∧ e.target ∈ c.nodes.map Node.id := by
    intro e he
    have hmem : Connector.edge e ∈ firstEdges c.edges := hdrawn ▸ List.mem_map_of_mem he
    exact hedges _ (firstEdges_subset _ hmem)
  refine ⟨cellName cellOf, ShowsChart.of_parts ?_ ?_ ?_ hdrawn⟩
  · refine (showsAll_lanes (hboxes ▸ hgroups) hgroupIds).imp ?_
    rintro c g ⟨v, hc, hcontainer, hlabel, hstyle, -⟩
    exact ⟨v, hc, hcontainer, hlabel, hstyle⟩
  · refine (showsAll_nodes hboxes hcells).imp ?_
    rintro c n ⟨v, hc, hcontainer, hid, hlabel, -⟩
    exact ⟨v, hc, hcontainer, hid, hlabel⟩
  · exact showsAll_edges hboxes hcells hends hedgeIds

end Chart

/-! ### Mindmaps -/

/-- The cells of a mindmap show it. -/
theorem Diagram.showsTopics_cells {d : Diagram} {boxes : Table Box} {cells : List Cell}
    (hedges : ∀ e ∈ d.edges, e.source ∈ d.names ∧ e.target ∈ d.names)
    (h : d.mindmapCells boxes = .ok cells) :
    ∃ cellOf, ShowsTopics cellOf cells d.nodes d.edges := by
  obtain ⟨nodes, hnodes, h⟩ := bind_eq_ok.mp h
  rw [nodesOrFail_eq_ok] at hnodes
  have hnames : d.names = nodes.map Node.id := by
    rw [Diagram.names, hnodes, List.map_map]
    rfl
  rw [hnames] at hedges
  cases hn : CellIds.issueAll {} (nodes.map Node.id) with | mk topicIds ids₁ =>
  cases he : ids₁.issueAll (d.edges.map Connector.id) with | mk lineIds ids₂ =>
  simp only [hn, knownEdges_eq_self hedges, he] at h
  cases h
  have htopicIds := (CellIds.issues_of_issueAll hn).2
  have hlineIds := (CellIds.issues_of_issueAll he).2
  rw [List.length_map] at hlineIds
  have hcells := get?_cellName htopicIds
  generalize Table.ofList ((nodes.map Node.id).zip topicIds) = cellOf at hcells ⊢
  have htopics : List.Forall₂ (fun c n => ∃ v, c = .vertex v ∧ v.container = none ∧
      v.id = cellName cellOf n.id ∧ v.label = n.label)
      (nodes.filterMap (topicCell boxes cellOf)) nodes := by
    apply forall₂_filterMap
    intro n hn
    simp only [topicCell, hcells n.id (List.mem_map_of_mem hn)]
    exact ⟨_, rfl, _, rfl, rfl, rfl, rfl⟩
  have hlines : List.Forall₂ (fun c e => ∃ l, c = .line l ∧
      l.Joins (cellName cellOf) e.source e.target)
      ((lineIds.zip d.edges).filterMap fun p => branchCell cellOf p.1 p.2) d.edges := by
    apply forall₂_filterMap_zip hlineIds
    intro id e he
    obtain ⟨hs, ht⟩ := hedges e he
    simp only [branchCell, hcells _ hs, hcells _ ht]
    exact ⟨_, rfl, _, rfl, rfl⟩
  obtain ⟨htopics, htopicLines, htopicFlat⟩ := showsAll_vertices htopics
  obtain ⟨hlines, hlineBoxes, hlineFlat⟩ := showsAll_lines hlines
  refine ⟨cellName cellOf, ?_, ?_, htopicFlat.append hlineFlat⟩
  · rw [pageBoxes_append, hlineBoxes, List.append_nil, hnodes, ShowsNodes,
      List.forall₂_map_right_iff]
    exact htopics
  · rw [pageLines_append, htopicLines, List.nil_append]
    exact hlines

/-! ### Entity-relationship diagrams -/

/-- Of the cells of tables, the tables themselves lie on the page. -/
theorem pageBoxes_tableCells {ts : List TableParts} (h : ∀ t ∈ ts, t.table.container = none)
    (ids : CellIds) :
    pageBoxes (tableCells ids ts).1 = ts.map (·.table) ∧ pageLines (tableCells ids ts).1 = [] := by
  have hrows : ∀ (ids : List String) (rows : List Row),
      pageBoxes ((ids.zip rows).map fun p => p.2.cell p.1) = [] ∧
        pageLines ((ids.zip rows).map fun p => p.2.cell p.1) = [] := by
    intro ids rows
    induction ids.zip rows with
    | nil => exact ⟨rfl, rfl⟩
    | cons p rest ih => exact ih
  induction ts generalizing ids with
  | nil => exact ⟨rfl, rfl⟩
  | cons t rest ih =>
    obtain ⟨hboxes, hlines⟩ := ih (fun t ht => h t (List.mem_cons_of_mem _ ht))
      (ids.issueAll (t.rows.map Row.name)).2
    have htable : ∀ cells, pageBoxes (.vertex t.table :: cells) = t.table :: pageBoxes cells := by
      intro cells
      simp [pageBoxes, Cell.asVertex?, h t List.mem_cons_self]
    have hskip : ∀ cells, pageLines (.vertex t.table :: cells) = pageLines cells := fun _ => rfl
    simp only [tableCells, List.cons_append, htable, hskip, pageBoxes_append, pageLines_append,
      hrows, hboxes, hlines, List.nil_append, List.map_cons, and_self]

/-- Tables and lines that go together with the parts of an entity-relationship diagram show it. -/
theorem ShowsEntities.of_parts {ts : List TableParts} {lines : List Cell} {es : List Entity}
    {rs : List Relationship} (ids : CellIds)
    (htables : List.Forall₂ (fun t e => t.table.id = cellOf e.id ∧ t.table.label = e.label) ts es)
    (hrows : ∀ t ∈ ts, t.table.container = none ∧ ∀ r ∈ t.rows, ∃ e ∈ es, r.table = cellOf e.id)
    (hlines : List.Forall₂ (fun c r => ∃ l, c = .line l ∧ l.label = r.label ∧
      l.Joins cellOf r.source r.target) lines rs) :
    ShowsEntities cellOf ((tableCells ids ts).1 ++ lines) (es.map .entity) rs := by
  obtain ⟨htableBoxes, htableLines⟩ := pageBoxes_tableCells (fun t ht => (hrows t ht).1) ids
  obtain ⟨hlines, hlineBoxes, hlineFlat⟩ := showsAll_lines hlines
  refine ⟨?_, ?_, ?_⟩
  · rw [pageBoxes_append, hlineBoxes, List.append_nil, htableBoxes, ShowsNodes,
      List.forall₂_map_left_iff, List.forall₂_map_right_iff]
    exact htables
  · rw [pageLines_append, htableLines, List.nil_append]
    exact hlines
  · intro v hv name hname
    rcases List.mem_append.mp hv with hv | hv
    · obtain ⟨t, ht, htable | ⟨r, hr, id, hrow⟩⟩ := (mem_tableCells ids ts).2 _ hv
      · cases htable
        rw [(hrows t ht).1] at hname
        cases hname
      · cases hrow
        cases hname
        obtain ⟨e, he, htable⟩ := (hrows t ht).2 r hr
        exact ⟨.entity e, List.mem_map_of_mem he, htable⟩
    · rw [hlineFlat v hv] at hname
      cases hname

section Entities

variable {es : List Entity} {boxes : Table Box} {cellOf : Table String}

/-- Every entity has a table. -/
theorem showsAll_tables (hboxes : ∀ name ∈ es.map Entity.id, ∃ b, boxes.get? name = some b)
    (hcells : ∀ name ∈ es.map Entity.id, cellOf.get? name = some (cellName cellOf name)) :
    List.Forall₂ (fun t e => t.table.id = cellName cellOf e.id ∧ t.table.label = e.label)
      (es.filterMap (tableParts boxes cellOf)) es := by
  apply forall₂_filterMap
  intro e he
  have hname : e.id ∈ es.map Entity.id := List.mem_map_of_mem he
  obtain ⟨b, hb⟩ := hboxes _ hname
  simp only [tableParts, hcells _ hname, hb]
  exact ⟨_, rfl, rfl, rfl⟩

/-- The rows of a table lie in the table of an entity. -/
theorem rows_tables :
    ∀ t ∈ es.filterMap (tableParts boxes cellOf),
      t.table.container = none ∧ ∀ r ∈ t.rows, ∃ e ∈ es, r.table = cellName cellOf e.id := by
  intro t ht
  obtain ⟨e, he, het⟩ := List.mem_filterMap.mp ht
  obtain ⟨hid, hcontainer, hrows⟩ := tableParts_spec het
  refine ⟨hcontainer, fun r hr => ⟨e, he, ?_⟩⟩
  rw [hrows r hr, cellName, Table.getD, hid, Option.getD_some]

/-- The relationships between entities are shown. -/
theorem showsAll_relationships (A : Number.Arithmetic) {rs : List (Relationship × Nat)}
    (hboxes : ∀ name ∈ es.map Entity.id, ∃ b, boxes.get? name = some b)
    (hcells : ∀ name ∈ es.map Entity.id, cellOf.get? name = some (cellName cellOf name))
    (hends : ∀ r ∈ rs, r.1.source ∈ es.map Entity.id ∧ r.1.target ∈ es.map Entity.id)
    {ids : List String} (hlength : ids.length = rs.length) :
    List.Forall₂ (fun c r => ∃ l, c = .line l ∧ l.label = r.1.label ∧
        l.Joins (cellName cellOf) r.1.source r.1.target)
      ((ids.zip rs).filterMap fun p => relationshipCell A boxes cellOf p.1 p.2.2 p.2.1) rs := by
  apply forall₂_filterMap_zip hlength
  intro id r hr
  obtain ⟨hs, ht⟩ := hends r hr
  obtain ⟨b, hb⟩ := hboxes _ hs
  obtain ⟨b', hb'⟩ := hboxes _ ht
  simp only [relationshipCell, hcells _ hs, hcells _ ht, hb, hb']
  exact ⟨_, rfl, _, rfl, rfl, rfl⟩

/-- The cells of entities and relationships are tables with their rows, and lines, drawn with one
table of cell names. -/
theorem exists_entityParts (A : Number.Arithmetic) (boxes : Table Box) (es : List Entity)
    (rs : List (Relationship × Nat)) :
    ∃ (cellOf : Table String) (ids : CellIds) (lineIds : List String),
      (∀ name ∈ es.map Entity.id, cellOf.get? name = some (cellName cellOf name)) ∧
        lineIds.length = rs.length ∧
        entityCells A boxes es rs = (tableCells ids (es.filterMap (tableParts boxes cellOf))).1 ++
          (lineIds.zip rs).filterMap fun p =>
            relationshipCell A boxes cellOf p.1 p.2.2 p.2.1 := by
  cases hn : CellIds.issueAll {} (es.map Entity.id) with | mk tableIds ids₁ =>
  have hcells := get?_cellName (CellIds.issues_of_issueAll hn).2
  simp only [entityCells, hn]
  refine ⟨_, ids₁, _, hcells, ?_, rfl⟩
  rw [CellIds.length_issueAll, List.length_map]

end Entities

/-- The cells of entities and of relationships between them show them. -/
theorem showsEntities_cells (A : Number.Arithmetic) {boxes : Table Box} {es : List Entity}
    {rs : List Relationship} (hboxes : ∀ name ∈ es.map Entity.id, ∃ b, boxes.get? name = some b)
    (hends : ∀ r ∈ rs, r.source ∈ es.map Entity.id ∧ r.target ∈ es.map Entity.id) :
    ∃ cellOf, ShowsEntities cellOf (entityCells A boxes es rs.zipIdx) (es.map .entity) rs := by
  obtain ⟨cellOf, ids, lineIds, hcells, hlineIds, heq⟩ := exists_entityParts A boxes es rs.zipIdx
  rw [heq]
  refine ⟨cellName cellOf, ShowsEntities.of_parts ids ?_ ?_ ?_⟩
  · exact showsAll_tables hboxes hcells
  · exact rows_tables
  · rw [← forall₂_zipIdx_iff]
    refine showsAll_relationships A hboxes hcells ?_ hlineIds
    exact fun r hr => hends r.1 (List.fst_mem_of_mem_zipIdx hr)

/-- Of a sound diagram all entities and relationships are drawn. -/
theorem Diagram.IsSound.tablePlan_eq {d : Diagram} (hd : d.IsSound)
    (hkind : d.kind = Dialect.entityRelationship) {plan : TablePlan} (h : d.tablePlan = .ok plan) :
    plan = ⟨d.entities, d.relationships.zipIdx, Layout.entities d.entities d.links⟩ := by
  obtain ⟨rs, htables, hboxes, hrs, hplan⟩ := tablePlan_eq_ok.mp h
  obtain ⟨entities, relationships, boxes⟩ := plan
  have hnames := hd.names_of_entities hkind
  have hentities : entities = d.entities :=
    (List.map_injective_iff.mpr (fun _ _ => Element.entity.inj)
      (htables.symm.trans (hd.tables_eq hkind)))
  simp only at hboxes hrs hplan
  subst hentities hboxes
  have hplaced : ∀ name ∈ d.names, ∃ b, (Layout.entities d.entities d.links).get? name = some b := by
    intro name hname
    rw [Table.exists_get?_iff]
    exact (names_entities (hnames ▸ hd.nodup_names) d.links).mem_iff.mpr (hnames ▸ hname)
  have hdrawn : drawnLinks (Layout.entities d.entities d.links) d.links = d.links.zipIdx := by
    refine filter_zipIdx_eq_self (p := fun c : Connector =>
      (Layout.entities d.entities d.links).contains c.source &&
        (Layout.entities d.entities d.links).contains c.target) fun c hc => ?_
    rw [hd.links_eq hkind] at hc
    obtain ⟨r, hr, rfl⟩ := List.mem_map.mp hc
    obtain ⟨hs, ht⟩ := hd.relationship_ends r hr
    obtain ⟨b, hb⟩ := hplaced _ hs
    obtain ⟨b', hb'⟩ := hplaced _ ht
    simp [Table.contains, Connector.source, Connector.target, hb, hb']
  rw [hdrawn, List.zipIdx_map_fst, hd.links_eq hkind] at hrs
  have hrelationships : rs = d.relationships :=
    (List.map_injective_iff.mpr (fun _ _ => Connector.relationship.inj) hrs).symm
  rw [hplan, hdrawn, hrelationships, List.zipIdx_map_snd, hd.links_eq hkind, List.length_map,
    ← List.zipIdx_eq_zip_range']

/-! ### Sequence diagrams -/

/-- Boxes, lifelines and messages that go together with the parts of a sequence diagram show it. -/
theorem ShowsMessages.of_parts {boxes lifelines others : List Cell} {ps : List Element}
    {ms : List Message}
    (hboxes : List.Forall₂ (fun c p => ∃ v, c = .vertex v ∧ v.container = none ∧
      v.id = cellOf p.id ∧ v.label = p.label) boxes ps)
    (hlifelines : List.Forall₂ (fun c p => ∃ l, c = .line l ∧
      ShowsLifeline cellOf (pageBoxes boxes) l p) lifelines ps)
    (hmessages : List.Forall₂ (fun c m => ∃ l, c = .line l ∧
      ShowsMessage cellOf (pageBoxes boxes) l m) others ms) :
    ShowsMessages cellOf (boxes ++ lifelines ++ others) ps ms := by
  obtain ⟨hboxes, hboxLines, hboxFlat⟩ := showsAll_vertices hboxes
  obtain ⟨hlifelines, hlifelineBoxes, hlifelineFlat⟩ := showsAll_lines hlifelines
  obtain ⟨hmessages, hmessageBoxes, hmessageFlat⟩ := showsAll_lines hmessages
  have hpage : pageBoxes (boxes ++ lifelines ++ others) = pageBoxes boxes := by
    simp [hlifelineBoxes, hmessageBoxes]
  refine ⟨?_, ⟨pageLines lifelines, pageLines others, ?_, ?_, ?_⟩,
    (hboxFlat.append hlifelineFlat).append hmessageFlat⟩
  · rw [hpage]
    exact hboxes
  · simp [hboxLines]
  · rw [hpage]
    exact hlifelines
  · rw [hpage]
    exact hmessages

section Parties

variable {ps : List Element} {boxes : Table Box} {cellOf : Table String}

/-- Every participant has a box. -/
theorem showsAll_participants (hboxes : ∀ name ∈ ps.map Element.id, ∃ b, boxes.get? name = some b)
    (hcells : ∀ name ∈ ps.map Element.id, cellOf.get? name = some (cellName cellOf name)) :
    List.Forall₂ (fun c p => ∃ v, c = .vertex v ∧ v.container = none ∧
        v.id = cellName cellOf p.id ∧ v.label = p.label ∧ boxes.get? p.id = some v.box)
      (ps.filterMap (participantCell boxes cellOf)) ps := by
  apply forall₂_filterMap
  intro p hp
  have hname : p.id ∈ ps.map Element.id := List.mem_map_of_mem hp
  obtain ⟨b, hb⟩ := hboxes _ hname
  simp only [participantCell, hcells _ hname, hb]
  exact ⟨_, rfl, _, rfl, rfl, rfl, rfl, rfl⟩

/-- What starts or ends at the lifeline of a participant runs at the box of the participant. -/
theorem runsAt_participants
    (hboxes : ∀ name ∈ ps.map Element.id, ∃ b, boxes.get? name = some b)
    (hcells : ∀ name ∈ ps.map Element.id, cellOf.get? name = some (cellName cellOf name)) :
    ∀ name ∈ ps.map Element.id, ∃ b, boxes.get? name = some b ∧
      RunsAt (cellName cellOf) (pageBoxes (ps.filterMap (participantCell boxes cellOf))) name
        (lifelineX b) := by
  intro name hname
  obtain ⟨p, hp, rfl⟩ := List.mem_map.mp hname
  have hparticipants := (showsAll_vertices (showsAll_participants hboxes hcells)).1
  obtain ⟨v, hv, hid, -, hbox⟩ := exists_of_mem_right hparticipants hp
  exact ⟨v.box, hbox, v, hv, hid, rfl⟩

variable {ms : List Message}

/-- The cells of participants and of messages between them are boxes, lifelines and messages, drawn
with one table of cell names. None of them is left out. -/
theorem exists_sequenceParts (hnodup : (ps.map Element.id).Nodup)
    (hends : ∀ m ∈ ms, m.source ∈ ps.map Element.id ∧ m.target ∈ ps.map Element.id) :
    ∃ (cellOf : Table String) (lifelineIds messageIds : List String),
      (∀ name ∈ ps.map Element.id, cellOf.get? name = some (cellName cellOf name)) ∧
      lifelineIds.length = ps.length ∧
      messageIds.length = ms.zipIdx.length ∧
      sequenceCells ps ms =
        ps.filterMap (participantCell (Layout.sequence (ps.map Element.id)) cellOf) ++
        ((lifelineIds.zip ps).filterMap fun p =>
          lifelineCell (Layout.sequence (ps.map Element.id)) (Layout.lifelineLength ms.length)
            p.1 p.2) ++
        (messageIds.zip ms.zipIdx).filterMap fun p =>
          messageCell (Layout.sequence (ps.map Element.id)) p.1 p.2.2 p.2.1 := by
  have hdrawn := filter_zipIdx_eq_self (p := isDrawn (Layout.sequence (ps.map Element.id))) (by
    intro m hm
    obtain ⟨b, hb⟩ := exists_get?_sequence hnodup (hends m hm).1
    obtain ⟨b', hb'⟩ := exists_get?_sequence hnodup (hends m hm).2
    simp [isDrawn, Table.contains, hb, hb'])
  cases hn : CellIds.issueAll {} (ps.map Element.id) with
  | mk participantIds ids₁ =>
  cases hl : ids₁.issueAll ((ps.map Element.id).map (· ++ "_lifeline")) with
  | mk lifelineIds ids₂ =>
  cases hm : ids₂.issueAll (ms.zipIdx.map fun m => "msg" ++ toString m.2) with
  | mk messageIds ids₃ =>
  have hlifelineIds := (CellIds.issues_of_issueAll hl).2
  have hmessageIds := (CellIds.issues_of_issueAll hm).2
  rw [List.length_map, List.length_map] at hlifelineIds
  rw [List.length_map] at hmessageIds
  refine ⟨_, lifelineIds, messageIds, get?_cellName (CellIds.issues_of_issueAll hn).2,
    hlifelineIds, hmessageIds, ?_⟩
  simp only [sequenceCells, hdrawn, hn, hl, hm]

/-- The cells of participants and of messages between them show them. -/
theorem showsMessages_cells (hnodup : (ps.map Element.id).Nodup)
    (hends : ∀ m ∈ ms, m.source ∈ ps.map Element.id ∧ m.target ∈ ps.map Element.id) :
    ∃ cellOf, ShowsMessages cellOf (sequenceCells ps ms) ps ms := by
  obtain ⟨cellOf, lifelineIds, messageIds, hcells, hlifelineIds, hmessageIds, heq⟩ :=
    exists_sequenceParts hnodup hends
  have hboxes : ∀ name ∈ ps.map Element.id,
      ∃ b, (Layout.sequence (ps.map Element.id)).get? name = some b :=
    fun _ hname => exists_get?_sequence hnodup hname
  have hruns := runsAt_participants hboxes hcells
  rw [heq]
  refine ⟨cellName cellOf, ShowsMessages.of_parts ?_ ?_ ?_⟩
  · refine (showsAll_participants hboxes hcells).imp ?_
    rintro c p ⟨v, hc, hcontainer, hid, hlabel, -⟩
    exact ⟨v, hc, hcontainer, hid, hlabel⟩
  · apply forall₂_filterMap_zip hlifelineIds
    intro id p hp
    obtain ⟨b, hb, hx⟩ := hruns p.id (List.mem_map_of_mem hp)
    simp only [lifelineCell, hb]
    exact ⟨_, rfl, _, rfl, rfl, _, _, _, hx, rfl⟩
  · rw [← forall₂_zipIdx_iff]
    apply forall₂_filterMap_zip hmessageIds
    intro id m hm
    obtain ⟨hs, ht⟩ := hends m.1 (List.fst_mem_of_mem_zipIdx hm)
    obtain ⟨b, hb, hx⟩ := hruns _ hs
    obtain ⟨b', hb', hx'⟩ := hruns _ ht
    simp only [messageCell, hb, hb']
    exact ⟨_, rfl, _, rfl, rfl, rfl, _, _, _, hx, hx', rfl⟩

end Parties

/-! ### All dialects -/

/-- What a chart shows are its nodes, its edges and its groups, with the terminals among them. -/
theorem Diagram.IsCharted.shows_iff {d : Diagram} (h : d.IsCharted) {cells : List Cell} :
    d.Shows cellOf cells ↔
      ShowsChart cellOf cells (withTerminals d).nodes (withTerminals d).edges d.groups := by
  rcases h.kind_cases with hkind | ⟨word, foreign, hkind⟩ <;> simp only [Diagram.Shows, hkind]

/-- What is drawn for a sound diagram shows it. -/
theorem Diagram.IsSound.exists_shows {d : Diagram} (hd : d.IsSound) {cells : List Cell}
    (h : d.Draws A cells) : ∃ cellOf, d.Shows cellOf cells := by
  cases h with
  | sequence hkind =>
    have hnames : d.parties.map Element.id = d.names := by
      rw [hd.parties_eq hkind, ← hd.nodes_of_sequence hkind, Diagram.names]
    simp only [Diagram.Shows, hkind]
    rw [hd.nodes_of_sequence hkind, ← hd.parties_eq hkind]
    exact showsMessages_cells (hnames ▸ hd.nodup_names) (hnames ▸ hd.message_ends)
  | entities hkind hplan =>
    have hnames := hd.names_of_entities hkind
    obtain rfl := hd.tablePlan_eq hkind hplan
    simp only [Diagram.Shows, hkind]
    rw [hd.nodes_of_entities hkind]
    refine showsEntities_cells A (fun name hname => ?_) (hnames ▸ hd.relationship_ends)
    rw [Table.exists_get?_iff]
    exact (names_entities (hnames ▸ hd.nodup_names) d.links).mem_iff.mpr hname
  | mindmap hkind hcells =>
    simp only [Diagram.Shows, hkind]
    exact Diagram.showsTopics_cells hd.edge_ends hcells
  | chart hkind hc hcells =>
    simp only [hkind.shows_iff]
    have hnames := Chart.names_eq hc
    have hnodup := Charted.nodup_withTerminals hd.nodup_names
    obtain ⟨nodes, hnodes, -, rfl⟩ := chart_eq_ok.mp hc
    rw [hnodes]
    apply Chart.showsChart_cells ?_ ?_ ?_ hcells
    · exact names_flowchart A (by rw [hnames]; exact hnodup) _ _
    · rw [hnames]
      exact isJoined_withTerminals hd.edge_ends
    · intro g hg
      rw [hnames]
      exact List.Subset.trans (hd.groups_sound g hg).2 (names_subset_withTerminals d)

/-- The document of a sound diagram shows it. -/
theorem Diagram.IsSound.shows {d : Diagram} (hd : d.IsSound) {title : Option String}
    {stamp : Stamp} {doc : Document} (h : d.toDrawio A title stamp = .ok doc) :
    ∃ cellOf, d.Shows cellOf doc.cells :=
  hd.exists_shows (Diagram.toDrawio_spec h).2

/-- **Main statement.** For every text that can be read a document is drawn, unless it is a
flowchart that is too wide. Besides the two cells that every page has, its cells have distinct names
and show exactly the graph that was read. -/
theorem toDrawio_shows (A : Number.Arithmetic) (title : Option String) (stamp : Stamp)
    (code : String) (d : Diagram) (h : Diagram.parse code = .ok d) :
    d.DrawnOrWide A title stamp fun doc =>
      doc.toXml.cells = baseCells ++ doc.cells.map Cell.toXml ∧
      (doc.cells.map Cell.id).Nodup ∧ ∃ cellOf, d.Shows cellOf doc.cells := by
  have hsound := isSound_of_parse code d h
  refine (Diagram.drawnOrWide_of_parse A h title stamp).imp fun doc hdoc _ => ?_
  have hlinked := Diagram.linked_cells hsound.nodup_drawnNames hdoc
  exact ⟨cells_toXml doc, hlinked.nodup, hsound.shows hdoc⟩

/-- Two edges with the same ends. -/
def parallel : Diagram where
  nodes := [.node (.plain "a"), .node (.plain "b")]
  edges :=
    [.edge { id := "e1", source := "a", target := "b", label := "x", arrow := some Arrow.thick.style },
     .edge { id := "e2", source := "a", target := "b", label := "y", arrow := some Arrow.solid.style }]
  groups := [⟨"g", "g", ["a", "b"]⟩]

set_option maxRecDepth 100000 in
/-- Two edges between the same nodes, of which the first one is shown, in a group. -/
theorem toDrawio_shows_parallel :
    Diagram.parse "graph TD\nsubgraph g\na==>|x|b\na-->|y|b\nend" = .ok parallel ∧
      ∃ doc,
        parallel.toDrawio .exact none { moment := ⟨2024, 1, 2, 3, 4, 5, 678901⟩ } = .ok doc ∧
        doc.toXml.cells = baseCells ++ doc.cells.map Cell.toXml ∧
        (doc.cells.map Cell.id).Nodup ∧ ∃ cellOf, parallel.Shows cellOf doc.cells := by
  have hparse : Diagram.parse "graph TD\nsubgraph g\na==>|x|b\na-->|y|b\nend" = .ok parallel := rfl
  exact ⟨hparse, (toDrawio_shows .exact none _ _ parallel hparse).exact⟩

/-- The second of two edges with the same ends is not drawn, and terminals are joined. -/
example : (firstEdges (withTerminals parallel).edges).map (fun e => (pairOf e, e.label)) =
    [(("Start", "a"), ""), (("a", "b"), "x"), (("b", "Stop"), "")] := by
  decide

end Diagrams
