import Diagrams.Proofs.Drawio.Fits
import Diagrams.Proofs.Drawio.Picture
import Diagrams.Proofs.Layout.Topics
import Diagrams.Proofs.Number.Binary64
import Diagrams.Proofs.Service.Status

/-!
# Nodes are drawn where they are reported

**Main statement** (`drawn_where_reported`): in the document that is drawn for a text each node is a
box at the place that the layout, and so the service, reports for it, and none is at the place that
is kept for topics without a box.

A writer computes boxes by itself. That they are those of the layout is shown for each dialect:
`Diagram.drawnAt_chart` and the like say that every node has a cell at its box, and
`ne_strayBox_of_mem_mindmap` and the like that no box is at the kept place. In the written geometry
numbers are rounded to 53 bits, which changes no whole number below `2 ^ 53`
(`Drawio.Vertex.isBoxAt_toXml`).
-/

namespace Diagrams

open Drawio Layout Number

/-! ### Cells of nodes -/

/-- The table of the names of cells that are issued first, for nodes of the given names. -/
def Drawio.issuedCells (names : List String) : Table String :=
  .ofList (names.zip (CellIds.issueAll {} names).1)

/-- Each node has a cell name. -/
theorem Drawio.get?_issuedCells {names : List String} {name : String}
    (hname : name ∈ names) :
    (issuedCells names).get? name = some (cellName (issuedCells names) name) :=
  get?_cellName (CellIds.length_issueAll {} names) name hname

/-- Among the cells is a box on the page with the cell name and the label of a node, where the
node's box is. -/
def Drawio.DrawsNode (cells : List Cell) (cellOf : Table String) (boxes : Table Box)
    (n : Element) : Prop :=
  ∃ v, .vertex v ∈ cells ∧ v.id = cellName cellOf n.id ∧ v.label = n.label ∧
    v.container = none ∧ boxes.get? n.id = some v.box

variable {A : Number.Arithmetic} {cells : List Cell}

/-- The cells of a flowchart draw its nodes. -/
theorem Chart.drawsNode {c : Chart} {groups : List Group}
    (hboxes : c.boxes.names = c.nodes.map Node.id) (h : c.cells A groups = .ok cells) {n : Node}
    (hn : n ∈ c.nodes) : DrawsNode cells (issuedCells (c.nodes.map Node.id)) c.boxes (.node n) := by
  have hname : n.id ∈ c.nodes.map Node.id := List.mem_map_of_mem hn
  obtain ⟨b, hb⟩ := Table.exists_get?_iff.mpr (hboxes ▸ hname)
  have hcell : c.nodeCell (issuedCells (c.nodes.map Node.id)) n = some (.vertex
      { id := cellName (issuedCells (c.nodes.map Node.id)) n.id, label := n.label,
        style := nodeStyle n, box := b }) := by
    rw [nodeCell, get?_issuedCells hname, hb]
    rfl
  obtain ⟨edges, -, -, rfl⟩ := cells_eq_ok.mp h
  have hmem := List.mem_filterMap.mpr ⟨n, hn, hcell⟩
  exact ⟨_, List.mem_append_left _ (List.mem_append_right _ hmem), rfl, rfl, rfl, hb⟩

/-- The cells of a mindmap draw its topics. -/
theorem Diagram.drawsNode_mindmapCells {d : Diagram} {nodes : List Node} {boxes : Table Box}
    (hnodes : d.nodes = nodes.map .node) (hboxes : boxes.names.Perm d.names)
    (h : d.mindmapCells boxes = .ok cells) {n : Node} (hn : n ∈ nodes) :
    DrawsNode cells (issuedCells d.names) boxes (.node n) := by
  have hnames : d.names = nodes.map Node.id := by
    rw [Diagram.names, hnodes, List.map_map]
    rfl
  rw [hnames] at hboxes ⊢
  have hname : n.id ∈ nodes.map Node.id := List.mem_map_of_mem hn
  obtain ⟨b, hb⟩ := Table.exists_get?_iff.mpr (hboxes.mem_iff.mpr hname)
  have hcell : topicCell boxes (issuedCells (nodes.map Node.id)) n = some (.vertex
      { id := cellName (issuedCells (nodes.map Node.id)) n.id, label := n.label,
        style := topicStyle n, box := b }) := by
    rw [topicCell, get?_issuedCells hname, Table.getD, hb]
    rfl
  obtain ⟨all, hall, h⟩ := bind_eq_ok.mp h
  rw [nodesOrFail_eq_ok.mpr hnodes] at hall
  cases hall
  cases h
  exact ⟨_, List.mem_append_left _ (List.mem_filterMap.mpr ⟨n, hn, hcell⟩), rfl, rfl, rfl, hb⟩

/-- The cells of a sequence diagram draw its sides. -/
theorem Drawio.drawsNode_sequenceCells {parties : List Element}
    (hnodup : (parties.map Element.id).Nodup) (messages : List Message) {p : Element}
    (hp : p ∈ parties) :
    DrawsNode (sequenceCells parties messages) (issuedCells (parties.map Element.id))
      (Layout.sequence (parties.map Element.id)) p := by
  have hname : p.id ∈ parties.map Element.id := List.mem_map_of_mem hp
  obtain ⟨b, hb⟩ := exists_get?_sequence hnodup hname
  have hcell : participantCell (Layout.sequence (parties.map Element.id))
      (issuedCells (parties.map Element.id)) p = some (.vertex
        { id := cellName (issuedCells (parties.map Element.id)) p.id, label := p.label,
          style := participantStyle p.isActor, box := b }) := by
    rw [participantCell, get?_issuedCells hname, hb]
    rfl
  have hmem := List.mem_filterMap.mpr ⟨p, hp, hcell⟩
  exact ⟨_, List.mem_append_left _ (List.mem_append_left _ hmem), rfl, rfl, rfl, hb⟩

/-- The cells of an entity-relationship diagram draw its entities. -/
theorem Drawio.drawsNode_entityCells {es : List Entity} (hnodup : (es.map Entity.id).Nodup)
    (links : List Connector) (relationships : List (Relationship × Nat)) {e : Entity}
    (he : e ∈ es) :
    DrawsNode (entityCells A (Layout.entities es links) es relationships)
      (issuedCells (es.map Entity.id)) (Layout.entities es links) (.entity e) := by
  have hname : e.id ∈ es.map Entity.id := List.mem_map_of_mem he
  obtain ⟨x, y, hb⟩ := exists_get?_entities hnodup links he
  have hparts : ∃ t, tableParts (Layout.entities es links) (issuedCells (es.map Entity.id)) e =
      some t ∧ t.table =
        { id := cellName (issuedCells (es.map Entity.id)) e.id, label := e.label,
          style := tableStyle, box := entityBox x y e } := by
    rw [tableParts, get?_issuedCells hname, hb]
    exact ⟨_, rfl, rfl⟩
  obtain ⟨t, ht, htable⟩ := hparts
  have hmem := (mem_tableCells (CellIds.issueAll {} (es.map Entity.id)).2 _).1 t
    (List.mem_filterMap.mpr ⟨e, he, ht⟩)
  rw [htable] at hmem
  exact ⟨_, List.mem_append_left _ hmem, rfl, rfl, rfl, hb⟩

/-! ### The place of topics without a box -/

namespace Layout

/-- On the grid the topics of the first level stand before the place of topics without a box, and
all others after it. -/
theorem snap_level_ne (level : Nat) :
    snap .binary64 ((50 + 200 * level : Int) : Rat) ≠ strayBox.x := by
  cases level with
  | zero => decide +kernel
  | succ level =>
    have hquotient :
        (2 : Rat) ^ 4 ≤ ((50 + 200 * (level + 1 : Nat) : Int) : Rat) / (grid : Rat) := by
      have hlevel : (0 : Rat) ≤ level := Nat.cast_nonneg _
      rw [grid]
      push_cast
      linarith
    have hlines : 16 ≤ Arithmetic.binary64.nearest (Arithmetic.binary64.div
        ((50 + 200 * (level + 1 : Nat) : Int) : Rat) grid) :=
      two_pow_le_nearest (two_pow_le_toBinary64 hquotient)
    intro hstray
    have hline : Arithmetic.binary64.nearest (Arithmetic.binary64.div
        ((50 + 200 * (level + 1 : Nat) : Int) : Rat) grid) * 10 = 100 := hstray
    omega

/-- No topic stands where topics without a box are drawn. -/
theorem ne_strayBox_of_mem_mindmap {names : List String} {g : Digraph} {e : String × Box}
    (h : e ∈ mindmap .binary64 names g) : e.2 ≠ strayBox := by
  let starts (x : Int) : Prop := ∃ level : Nat, x = 50 + 200 * level
  have hbox : ∀ x center, starts x → topicBox .binary64 x center ≠ strayBox := by
    rintro x center ⟨level, rfl⟩ hstray
    exact snap_level_ne level (congrArg Box.x hstray)
  have hlevel : ∀ x, starts x → starts (x + 200) := by
    rintro x ⟨level, rfl⟩
    exact ⟨level + 1, by push_cast; ring⟩
  have hstart : starts 50 := ⟨0, rfl⟩
  exact forall_placeTopics (P := fun b => b ≠ strayBox) starts hbox hlevel g [] _ hstart 50
    (fun _ he => absurd he List.not_mem_nil) e h

/-- Other boxes have other sizes. -/
theorem ne_strayBox_of_mem_flowchart {nodes : List Node} {g : Digraph}
    {direction : Term Direction} {e : String × Box} (h : e ∈ flowchart A nodes g direction) :
    e.2 ≠ strayBox := by
  obtain ⟨n, -, rfl⟩ := List.mem_map.mp (Table.mem_of_mem_ofList h)
  intro hstray
  have hwidth : (nodeSize n).1 = 120 := congrArg Box.width hstray
  unfold nodeSize at hwidth
  split at hwidth
  · have hwide : max 160 ((n.label.length : Int) * 8) = 120 := hwidth
    omega
  · exact absurd hwidth (by decide)

/-- Participants have higher boxes. -/
theorem ne_strayBox_of_mem_sequence {names : List String} {e : String × Box}
    (h : e ∈ sequence names) : e.2 ≠ strayBox := by
  obtain ⟨p, -, rfl⟩ := List.mem_map.mp (Table.mem_of_mem_ofList h)
  intro hstray
  have hheight : (40 : Int) = 36 := congrArg Box.height hstray
  omega

/-- Tables are wider. -/
theorem ne_strayBox_of_mem_entities {es : List Entity} {rs : List Connector} {e : String × Box}
    (h : e ∈ entities es rs) : e.2 ≠ strayBox := by
  obtain ⟨x, y, entity, -, rfl⟩ := exists_entityBox_of_mem h
  intro hstray
  have hwidth : (180 : Int) = 120 := congrArg Box.width hstray
  omega

end Layout

/-! ### All dialects -/

/-- The cells draw the nodes of a diagram, a flowchart's with its terminals, where the boxes are,
and no box is at the place of topics without one. -/
structure Diagram.DrawnAt (d : Diagram) (cells : List Cell) (boxes : Table Box) : Prop where
  /-- Every node is drawn at its box. -/
  nodes : ∀ n ∈ (withTerminals d).nodes,
    DrawsNode cells (issuedCells (withTerminals d).names) boxes n
  /-- No box is at the place of topics without one. -/
  boxes : ∀ e ∈ boxes, e.2 ≠ strayBox

variable {d : Diagram}

/-- Of other diagrams than flowcharts only the nodes themselves are drawn. -/
theorem Diagram.DrawnAt.of_nodes {boxes : Table Box} (hkind : d.kind ≠ Dialect.flowchart)
    (hnodes : ∀ n ∈ d.nodes, DrawsNode cells (issuedCells d.names) boxes n)
    (hboxes : ∀ e ∈ boxes, e.2 ≠ strayBox) : d.DrawnAt cells boxes := by
  have hplain : withTerminals d = ⟨d.nodes, d.edges⟩ := if_pos hkind
  constructor
  · rw [hplain]
    exact hnodes
  · exact hboxes

/-- The cells of a flowchart are drawn where its chart has boxes. -/
theorem Diagram.drawnAt_chart (hd : d.IsSound) {c : Chart} (hc : d.chart A = .ok c)
    (h : c.cells A d.groups = .ok cells) : d.DrawnAt cells c.boxes := by
  have hnames := Chart.names_eq hc
  have hnodup : (c.nodes.map Node.id).Nodup := hnames ▸ Charted.nodup_withTerminals hd.nodup_names
  obtain ⟨nodes, hnodes, -, rfl⟩ := chart_eq_ok.mp hc
  constructor
  · intro n hn
    rw [hnodes] at hn
    obtain ⟨m, hm, rfl⟩ := List.mem_map.mp hn
    rw [← hnames]
    exact Chart.drawsNode (names_flowchart A hnodup _ _) h hm
  · exact fun e he => ne_strayBox_of_mem_flowchart he

/-- The cells of a sequence diagram are drawn where its participants stand. -/
theorem Diagram.drawnAt_sequence (hd : d.IsSound) (hkind : d.kind = Dialect.sequence) :
    d.DrawnAt d.sequenceCells (Layout.sequence (d.parties.map Element.id)) := by
  have hnodes : d.nodes = d.parties := by
    rw [hd.parties_eq hkind, hd.nodes_of_sequence hkind]
  have hnames : d.names = d.parties.map Element.id := by rw [names, hnodes]
  apply DrawnAt.of_nodes
  · simp [hkind]
  · intro n hn
    rw [hnodes] at hn
    rw [hnames]
    exact drawsNode_sequenceCells (hnames ▸ hd.nodup_names) d.messages hn
  · exact fun e he => ne_strayBox_of_mem_sequence he

/-- The cells of an entity-relationship diagram are drawn where its tables stand. -/
theorem Diagram.drawnAt_entities (hd : d.IsSound) (hkind : d.kind = Dialect.entityRelationship)
    {plan : TablePlan} (h : d.tablePlan = .ok plan) : d.DrawnAt (plan.cells A) plan.boxes := by
  obtain ⟨relationships, htables, hboxes, -, -⟩ := tablePlan_eq_ok.mp h
  have hnodes : d.nodes = plan.entities.map .entity := by
    rw [← htables, hd.tables_eq hkind, hd.nodes_of_entities hkind]
  have hnames : d.names = plan.entities.map Entity.id := by
    rw [names, hnodes, List.map_map]
    rfl
  rw [TablePlan.cells, hboxes]
  apply DrawnAt.of_nodes
  · simp [hkind]
  · intro n hn
    rw [hnodes] at hn
    obtain ⟨e, he, rfl⟩ := List.mem_map.mp hn
    rw [hnames]
    exact drawsNode_entityCells (hnames ▸ hd.nodup_names) d.links plan.relationships he
  · exact fun e he => ne_strayBox_of_mem_entities he

/-- The cells of a mindmap are drawn where its topics stand, when every topic has a box. -/
theorem Diagram.drawnAt_mindmap (hkind : d.kind = Dialect.mindmap)
    (hboxes : (d.mindmapLayout .binary64).names.Perm d.names)
    (h : d.mindmapCells (d.mindmapLayout .binary64) = .ok cells) :
    d.DrawnAt cells (d.mindmapLayout .binary64) := by
  obtain ⟨nodes, hnodes, -⟩ := bind_eq_ok.mp h
  rw [nodesOrFail_eq_ok] at hnodes
  apply DrawnAt.of_nodes
  · simp [hkind]
  · intro n hn
    rw [hnodes] at hn
    obtain ⟨m, hm, rfl⟩ := List.mem_map.mp hn
    exact drawsNode_mindmapCells hnodes hboxes h hm
  · exact fun e he => ne_strayBox_of_mem_mindmap he

/-- A diagram that is drawn as a flowchart is laid out as one. -/
theorem Diagram.IsCharted.layout (h : d.IsCharted) (A : Number.Arithmetic) :
    d.layout A = Chart.boxes <$> d.chart A := by
  rcases h.kind_cases with hkind | ⟨word, foreign, hkind⟩ <;> rw [Diagram.layout, hkind]

/-- What is drawn for a sound diagram is drawn where it is laid out, a mindmap if every topic has a
box. -/
theorem Diagram.IsSound.exists_drawnAt (hd : d.IsSound)
    (htopics : d.kind = Dialect.mindmap → (d.mindmapLayout .binary64).names.Perm d.names)
    (h : d.Draws .binary64 cells) :
    ∃ boxes, d.layout .binary64 = .ok boxes ∧ d.DrawnAt cells boxes := by
  cases h with
  | sequence hkind =>
    refine ⟨_, ?_, drawnAt_sequence hd hkind⟩
    rw [Diagram.layout, hkind]
  | @entities plan hkind hplan =>
    refine ⟨plan.boxes, ?_, drawnAt_entities hd hkind hplan⟩
    obtain ⟨relationships, htables, hboxes, -, -⟩ := tablePlan_eq_ok.mp hplan
    rw [Diagram.layout, hkind, entitiesOrFail_eq_ok.mpr htables, hboxes]
    rfl
  | mindmap hkind hcells =>
    refine ⟨_, ?_, drawnAt_mindmap hkind (htopics hkind) hcells⟩
    rw [Diagram.layout, hkind]
  | @chart c _ hkind hc hcells =>
    refine ⟨c.boxes, ?_, drawnAt_chart hd hc hcells⟩
    rw [hkind.layout, hc, map_ok]

/-- What is drawn for a text is drawn where it is laid out. -/
theorem exists_drawnAt_of_parse {code : String} (h : Diagram.parse code = .ok d)
    {title : Option String} {stamp : Stamp} {doc : Document}
    (hdoc : d.toDrawio .binary64 title stamp = .ok doc) :
    ∃ boxes, d.layout .binary64 = .ok boxes ∧ d.DrawnAt doc.cells boxes := by
  obtain ⟨header, body, -, rfl⟩ := Diagram.eq_readBody_of_parse h
  have htopics : (Source.readBody header body).kind = Dialect.mindmap →
      ((Source.readBody header body).mindmapLayout .binary64).names.Perm
        (Source.readBody header body).names := by
    intro hkind
    rw [Source.readBody_of_mindmap hkind]
    exact names_mindmapLayout .binary64 body
  exact (Source.isSound_readBody header body).exists_drawnAt htopics
    (Diagram.toDrawio_spec hdoc).2

/-! ### Geometry -/

/-- The element is a cell of a name and a label, drawn as a box whose geometry holds the numbers of
a box. Numbers from `2 ^ 53` on may be rounded there. -/
structure Xml.IsBoxAt (x : Xml) (id label : String) (b : Box) : Prop where
  /-- The name of the cell. -/
  id : x.attribute? "id" = some id
  /-- The text in it. -/
  label : x.attribute? "value" = some label
  /-- It is drawn as a box. -/
  vertex : x.attribute? "vertex" = some "1"
  /-- The geometry is all that it holds. -/
  geometry : ∃ g, x.children = [g] ∧ g.name = "mxGeometry" ∧
    ∀ p ∈ [("x", b.x), ("y", b.y), ("width", b.width), ("height", b.height)],
      p.2.natAbs < 2 ^ 53 → g.attribute? p.1 = some (toString p.2)

/-- A box of the page is written at its place. -/
theorem Drawio.Vertex.isBoxAt_toXml {v : Vertex} (h : v.container = none) :
    v.toXml.IsBoxAt v.id v.label v.box where
  id := rfl
  label := rfl
  vertex := rfl
  geometry := by
    have hgeometry : v.geometry = .tag "mxGeometry"
        [("x", coordinateText v.box.x), ("y", coordinateText v.box.y),
          ("width", coordinateText v.box.width), ("height", coordinateText v.box.height),
          ("as", "geometry")] [] := by
      rw [geometry, if_pos h]
      rfl
    refine ⟨v.geometry, rfl, rfl, fun p hp hsmall => ?_⟩
    have hnumber : v.geometry.attribute? p.1 = some (coordinateText p.2) := by
      rw [hgeometry]
      simp only [List.mem_cons, List.not_mem_nil, or_false] at hp
      rcases hp with rfl | rfl | rfl | rfl <;> rfl
    rw [hnumber, coordinateText_intCast hsmall]

/-- A node is drawn by an element of the document, at its box. -/
theorem Drawio.DrawsNode.exists_toXml {doc : Document} {cellOf : Table String} {boxes : Table Box}
    {n : Element} (h : DrawsNode doc.cells cellOf boxes n) :
    ∃ b, boxes.get? n.id = some b ∧
      ∃ x ∈ doc.toXml.cells, x.IsBoxAt (cellName cellOf n.id) n.label b := by
  obtain ⟨v, hv, hid, hlabel, hcontainer, hbox⟩ := h
  refine ⟨v.box, hbox, v.toXml, ?_, ?_⟩
  · exact mem_cells_toXml.mpr (.inr (.inr ⟨.vertex v, hv, rfl⟩))
  · rw [← hid, ← hlabel]
    exact v.isBoxAt_toXml hcontainer

/-! ### The main statement -/

/-- What is read is reported with the boxes of its layout, whatever framework the service has. -/
theorem Service.answer_parse {code : String} (h : Diagram.parse code = .ok d) {boxes : Table Box}
    (hboxes : d.layout .binary64 = .ok boxes) (F : Framework) (env : Environment) (stamp : Stamp)
    {body : F.Body} (hcode : (F.receive body).HasCode code) :
    F.answer env stamp .parse body =
      .ofValue (.obj [("diagram", d.toJson), ("positions", positions boxes)]) := by
  have hd : Submission.diagram ⟨code, (F.receive body).title⟩ = .ok d := diagram_of_parse h
  rw [Framework.answer, handle_parse hcode.ofReceived hd hboxes,
    F.close_of_isSendable .parse (isSendable_parse h boxes)]

/-- **Main statement.** The document that is drawn for a text has a box for every node, under a name
of its own and with the node's label. Its geometry is the place that the layout, and so the service,
reports for the node, as far as the numbers are below `2 ^ 53`; and no node is drawn at the place of
topics without one. There is such a document unless the diagram is a flowchart that is too wide, and
it is never too wide when the boxes of its layout are small. -/
theorem drawn_where_reported {code : String} (h : Diagram.parse code = .ok d)
    (title : Option String) (stamp : Stamp) :
    (d.DrawnOrWide .binary64 title stamp fun doc =>
      ∃ boxes, d.layout .binary64 = .ok boxes ∧
        (doc.toXml.cells.map (Xml.attribute? · "id")).Nodup ∧
        (∀ n ∈ (withTerminals d).nodes, ∃ b, boxes.get? n.id = some b ∧ b ≠ strayBox ∧
          ∃ x ∈ doc.toXml.cells,
            x.IsBoxAt (cellName (issuedCells (withTerminals d).names) n.id) n.label b) ∧
        ∀ (F : Service.Framework) env body, (F.receive body).HasCode code →
          let answer := F.answer env stamp .parse body
          answer.status = 200 ∧ answer.content =
            .value (.obj [("diagram", d.toJson), ("positions", Service.positions boxes)])) ∧
      ∀ boxes, d.layout .binary64 = .ok boxes → (∀ e ∈ boxes, e.2.IsSmall) →
        ∃ doc, d.toDrawio .binary64 title stamp = .ok doc := by
  have hdrawn := Diagram.drawnOrWide_of_parse .binary64 h title stamp
  constructor
  · refine hdrawn.imp fun doc hdoc _ => ?_
    obtain ⟨boxes, hboxes, hat⟩ := exists_drawnAt_of_parse h hdoc
    have hlinked := Diagram.linked_cells (isSound_of_parse code d h).nodup_drawnNames hdoc
    refine ⟨boxes, hboxes, (hasOwnLinks_of_linked hlinked).nodup, ?_, ?_⟩
    · intro n hn
      obtain ⟨b, hb, hx⟩ := (hat.nodes n hn).exists_toXml
      exact ⟨b, hb, hat.boxes _ (Table.mem_of_get? hb), hx⟩
    · intro F env body hcode answer
      have hanswer : answer = _ := Service.answer_parse h hboxes F env stamp hcode
      rw [hanswer]
      exact ⟨rfl, rfl⟩
  · intro boxes hboxes hsmall
    obtain ⟨doc, hdoc, -⟩ := hdrawn.resolve_right fun hwide =>
      Diagram.not_isTooWide_of_layout hboxes hsmall hwide.1
    exact ⟨doc, hdoc⟩

/-- The terminals of an arrow are drawn where they are reported as well. -/
theorem drawn_where_reported_terminals :
    ∃ d doc boxes, Diagram.parse "graph TD\nA --> B" = .ok d ∧
      d.toDrawio .binary64 none ⟨⟨2024, 1, 2, 3, 4, 5, 678000⟩, []⟩ = .ok doc ∧
      (withTerminals d).names = ["Start", "A", "B", "Stop"] ∧
      (∀ n ∈ (withTerminals d).nodes, ∃ b, boxes.get? n.id = some b ∧ b ≠ strayBox ∧
        ∃ x ∈ doc.toXml.cells,
          x.IsBoxAt (cellName (issuedCells (withTerminals d).names) n.id) n.label b) ∧
      (Service.Framework.plain.answer [] ⟨⟨2024, 1, 2, 3, 4, 5, 678000⟩, []⟩ .parse
        (some Service.numberTitle)).content =
          .value (.obj [("diagram", d.toJson), ("positions", Service.positions boxes)]) := by
  have hparse : Diagram.parse "graph TD\nA --> B" =
      .ok (Flowchart.read (Source.headerDirection "graph TD".toList) ["A --> B".toList]) := by rfl
  have hnodes : (withTerminals (Flowchart.read (Source.headerDirection "graph TD".toList)
      ["A --> B".toList])).nodes = [startNode, .plain "A", .plain "B", stopNode].map .node := by rfl
  have hfits := Diagram.not_isTooWide_of_rises ["Start", "A", "B", "Stop"].idxOf hnodes (by decide)
    (by decide) (by decide) (by decide) (by decide)
  obtain ⟨doc, hdoc, boxes, -, -, hplaced, hreport⟩ :=
    (drawn_where_reported hparse none ⟨⟨2024, 1, 2, 3, 4, 5, 678000⟩, []⟩).1.resolve_right
      fun hwide => hfits hwide.1
  have hcode : (Service.Framework.plain.receive (some Service.numberTitle)).HasCode
      "graph TD\nA --> B" := by
    rw [Service.receive_numberTitle]
    exact Service.hasCode_numberRecord
  exact ⟨_, doc, boxes, hparse, hdoc, by decide, hplaced, (hreport .plain [] _ hcode).2⟩

end Diagrams
