import Diagrams.Proofs.Drawio.Document
import Diagrams.Proofs.Drawio.Markup
import Diagrams.Proofs.Drawio.Views

/-!
# The texts of a document

**Main statement** (`Diagram.IsWritten.cells`): the cells that are drawn for a diagram are written
with legal characters and the characters of a source when the texts of the diagram are
(`Diagram.IsWritten`).

What a cell holds is a text of the diagram, a fixed text, a number or a name. Names of cells are
preferred names, perhaps with a number behind them (`CellIds.isWritten_issueAll`), and preferred
names are made up of names of parts, fixed texts and numbers.
-/

namespace Diagrams

open Drawio Xml

variable {source : List Char}

/-! ### Texts of diagrams -/

/-- The texts of a node are written with legal characters and characters of the source. -/
structure Node.IsWritten (source : List Char) (n : Node) : Prop where
  /-- Its name. -/
  id : Xml.IsWritten source n.id
  /-- The text in it. -/
  label : Xml.IsWritten source n.label
  /-- Style text. -/
  style : Xml.IsWritten source n.style
  /-- The colour of the inside. -/
  fill : ∀ s ∈ n.fill, Xml.IsWritten source s
  /-- The colour of the outline. -/
  stroke : ∀ s ∈ n.stroke, Xml.IsWritten source s

/-- So are those of a participant. -/
structure Participant.IsWritten (source : List Char) (p : Participant) : Prop where
  /-- Its name. -/
  id : Xml.IsWritten source p.id
  /-- The text in it. -/
  label : Xml.IsWritten source p.label

/-- So are those of an attribute that are drawn. -/
structure Attribute.IsWritten (source : List Char) (a : Attribute) : Prop where
  /-- Its type. -/
  type : Xml.IsWritten source a.type
  /-- Its name. -/
  name : Xml.IsWritten source a.name
  /-- Its key marks. -/
  keys : ∀ k ∈ a.keys, Xml.IsWritten source k.name

/-- So are those of an entity. -/
structure Entity.IsWritten (source : List Char) (e : Entity) : Prop where
  /-- Its name. -/
  id : Xml.IsWritten source e.id
  /-- The text in it. -/
  label : Xml.IsWritten source e.label
  /-- Its attributes. -/
  attributes : ∀ a ∈ e.attributes, a.IsWritten source

/-- So are those of an element. -/
def Element.IsWritten (source : List Char) : Element → Prop
  | node n => n.IsWritten source
  | participant p => p.IsWritten source
  | entity e => e.IsWritten source

namespace Element.IsWritten

variable {n : Element}

/-- The name of an element is among its texts. -/
theorem id (h : n.IsWritten source) : Xml.IsWritten source n.id := by
  cases n with
  | node n => exact Node.IsWritten.id h
  | participant p => exact Participant.IsWritten.id h
  | entity e => exact Entity.IsWritten.id h

/-- So is its label. -/
theorem label (h : n.IsWritten source) : Xml.IsWritten source n.label := by
  cases n with
  | node n => exact Node.IsWritten.label h
  | participant p => exact Participant.IsWritten.label h
  | entity e => exact Entity.IsWritten.label h

end Element.IsWritten

/-- So are the name and the label of a connector. -/
structure Connector.IsWritten (source : List Char) (c : Connector) : Prop where
  /-- Its name. -/
  id : Xml.IsWritten source c.id
  /-- The text on it. -/
  label : Xml.IsWritten source c.label

/-- The texts of a diagram that are drawn are written with legal characters and characters of the
source. -/
structure Diagram.IsWritten (source : List Char) (d : Diagram) : Prop where
  /-- Those of nodes. -/
  nodes : ∀ n ∈ d.nodes, n.IsWritten source
  /-- Those of edges. -/
  edges : ∀ e ∈ d.edges, e.IsWritten source
  /-- The titles of groups. -/
  groups : ∀ g ∈ d.groups, Xml.IsWritten source g.label
  /-- Those of participants. -/
  participants : ∀ p ∈ d.participants, p.IsWritten source
  /-- Those of messages. -/
  messages : ∀ m ∈ d.messages, Xml.IsWritten source m.text
  /-- Those of entities. -/
  entities : ∀ e ∈ d.entities, e.IsWritten source
  /-- The labels of relationships. -/
  relationships : ∀ r ∈ d.relationships, Xml.IsWritten source r.label

namespace Diagram.IsWritten

variable {d : Diagram}

/-- The sides of a sequence diagram are participants or nodes. -/
theorem parties (h : d.IsWritten source) : ∀ p ∈ d.parties, p.IsWritten source := by
  unfold Diagram.parties
  split
  · exact h.nodes
  · exact List.forall_mem_map.mpr h.participants

/-- The tables of an entity-relationship diagram are entities or nodes. -/
theorem tables (h : d.IsWritten source) : ∀ e ∈ d.tables, e.IsWritten source := by
  unfold Diagram.tables
  split
  · exact h.nodes
  · exact List.forall_mem_map.mpr h.entities

/-- The links of an entity-relationship diagram are relationships or edges. -/
theorem links (h : d.IsWritten source) : ∀ c ∈ d.links, Xml.IsWritten source c.label := by
  unfold Diagram.links
  split
  · exact fun c hc => (h.edges c hc).label
  · exact List.forall_mem_map.mpr h.relationships

end Diagram.IsWritten

/-! ### Names of cells -/

namespace Drawio.CellIds

/-- A free name can be written when the name that is preferred can. -/
theorem isWritten_free (ids : CellIds) {preferred : String}
    (h : Xml.IsWritten source preferred) : Xml.IsWritten source (ids.free preferred) := by
  unfold free
  split
  · simp (disch := decide) [numbered, h, isWritten_of_isChar]
  · exact h

/-- Names of cells are written like the preferred names. -/
theorem isWritten_issueAll {ids ids₁ : CellIds} {preferred names : List String}
    (h : ids.issueAll preferred = (names, ids₁))
    (hpreferred : ∀ s ∈ preferred, Xml.IsWritten source s) :
    ∀ id ∈ names, Xml.IsWritten source id := by
  obtain rfl : (ids.issueAll preferred).1 = names := congrArg Prod.fst h
  clear h
  induction preferred generalizing ids with
  | nil => exact fun id hid => absurd hid List.not_mem_nil
  | cons p ps ih =>
    rw [issueAll]
    exact List.forall_mem_cons.mpr ⟨isWritten_free ids (hpreferred p List.mem_cons_self),
      ih fun s hs => hpreferred s (List.mem_cons_of_mem p hs)⟩

end Drawio.CellIds

/-- The cells of parts have written names. -/
def AreWrittenNames (source : List Char) (cellOf : Table String) : Prop :=
  ∀ name id, cellOf.get? name = some id → Xml.IsWritten source id

/-- Names can be written when those under which they are kept can. -/
theorem areWrittenNames_ofList (names : List String) {ids : List String}
    (h : ∀ id ∈ ids, Xml.IsWritten source id) :
    AreWrittenNames source (Table.ofList (names.zip ids)) := fun _ _ hid =>
  h _ (List.of_mem_zip (Table.mem_of_get?_ofList hid)).2

/-! ### Styles -/

section Styles

/-- A text or its default can be written. -/
theorem isWritten_orElse {text : Option String} {default : String}
    (h : ∀ s ∈ text, Xml.IsWritten source s) (hdefault : Xml.IsWritten source default) :
    Xml.IsWritten source (orElse text default) := by
  unfold orElse
  split
  · exact hdefault
  · exact hdefault
  · exact h _ rfl

/-- Colours can be written. -/
theorem isWritten_colors {fill stroke : String} (hfill : Xml.IsWritten source fill)
    (hstroke : Xml.IsWritten source stroke) : Xml.IsWritten source (colors fill stroke) := by
  refine isWritten_append.mpr ⟨isWritten_append.mpr ⟨isWritten_append.mpr
    ⟨isWritten_append.mpr ⟨?_, hfill⟩, ?_⟩, hstroke⟩, ?_⟩
  · exact isWritten_literal (by decide)
  · exact isWritten_literal (by decide)
  · exact isWritten_literal (by decide)

/-- The look of a shape is fixed text. -/
theorem isChar_look (s : Shape) :
    (∀ c ∈ s.look.style.toList, IsChar c) ∧ (∀ c ∈ s.look.fill.toList, IsChar c) ∧
      ∀ c ∈ s.look.stroke.toList, IsChar c := by
  cases s <;>
    exact ⟨isChar_literal (by decide), isChar_literal (by decide), isChar_literal (by decide)⟩

variable {n : Node} (h : n.IsWritten source)

include h

/-- The style of a node can be written. -/
theorem isWritten_nodeStyle : Xml.IsWritten source (nodeStyle n) := by
  obtain ⟨hstyle, hfill, hstroke⟩ := isChar_look .rectangle
  have hstyle : Xml.IsWritten source (orElse n.style Shape.rectangle.look.style) :=
    isWritten_orElse (fun s hs => Option.some.inj hs ▸ h.style) (isWritten_of_isChar hstyle)
  have hfill : Xml.IsWritten source (orElse n.fill Shape.rectangle.look.fill) :=
    isWritten_orElse h.fill (isWritten_of_isChar hfill)
  have hstroke : Xml.IsWritten source (orElse n.stroke Shape.rectangle.look.stroke) :=
    isWritten_orElse h.stroke (isWritten_of_isChar hstroke)
  exact isWritten_append.mpr ⟨hstyle, isWritten_colors hfill hstroke⟩

/-- The style of a topic can be written. -/
theorem isWritten_topicStyle : Xml.IsWritten source (topicStyle n) := by
  have hcolor : ∀ color : Option String, (∀ s ∈ color, Xml.IsWritten source s) →
      Xml.IsWritten source (color.getD "None") := by
    intro color hcolor
    cases color with
    | none => exact isWritten_literal (by decide)
    | some s => exact hcolor s rfl
  have hcolors := isWritten_colors (hcolor _ h.fill) (hcolor _ h.stroke)
  simp (disch := decide) [topicStyle, h.style, hcolors, isWritten_of_isChar]

omit h

/-- Where a line is anchored can be written. -/
theorem isWritten_anchors (a : Anchors) : Xml.IsWritten source a.style := by
  have hpart (text : String) (htext : ∀ c ∈ text.toList, IsChar c) (s : String) (q : Rat)
      (hs : Xml.IsWritten source s) :
      Xml.IsWritten source (s ++ text ++ Number.coordinateText q) :=
    isWritten_append.mpr ⟨isWritten_append.mpr ⟨hs, isWritten_of_isChar htext⟩,
      Number.isWritten_coordinateText q⟩
  refine isWritten_append.mpr ⟨hpart _ ?_ _ _ (hpart _ ?_ _ _ (hpart _ ?_ _ _
    (isWritten_append.mpr ⟨?_, Number.isWritten_coordinateText _⟩))), ?_⟩
  · decide
  · decide
  · decide
  · exact isWritten_literal (by decide)
  · exact isWritten_literal (by decide)

/-- The style of lines with right angles can be written. -/
theorem isWritten_orthogonal : Xml.IsWritten source orthogonal :=
  isWritten_literal (by decide)

/-- The style of an edge can be written. -/
theorem isWritten_edgeStyle (arrow : Option ArrowStyle) :
    Xml.IsWritten source (edgeStyle arrow) := by
  refine isWritten_append.mpr ⟨isWritten_append.mpr ⟨isWritten_append.mpr
    ⟨isWritten_orthogonal, ?_⟩, ?_⟩, isWritten_literal (by decide)⟩
  · split <;> exact isWritten_literal (by decide)
  · split <;> exact isWritten_literal (by decide)

/-- The style of a message can be written. -/
theorem isWritten_messageStyle (line : Term LinePattern) (isAsync : Bool) :
    Xml.IsWritten source (messageStyle line isAsync) := by
  unfold messageStyle
  split
  · exact isWritten_literal (by decide)
  · split <;> exact isWritten_literal (by decide)

/-- The style of an end of a relationship can be written. -/
theorem isWritten_cardinalityStyle (m : Term Cardinality) (e : LineEnd) :
    Xml.IsWritten source (cardinalityStyle m e) := by
  have hmarker : Xml.IsWritten source (cardinalityMarker m) := by
    cases m with
    | known m => cases m <;> exact isWritten_literal (by decide)
    | other word foreign => exact isWritten_of_isChar (s := Cardinality.bb.marker) (by decide)
  have hword : Xml.IsWritten source e.word := by
    cases e <;> exact isWritten_literal (by decide)
  simp (disch := decide) [cardinalityStyle, hmarker, hword, isWritten_of_isChar]

/-- The style of a relationship can be written. -/
theorem isWritten_relationshipStyle (r : Relationship) :
    Xml.IsWritten source (relationshipStyle r) := by
  refine isWritten_append.mpr ⟨isWritten_append.mpr ⟨isWritten_append.mpr
    ⟨isWritten_append.mpr ⟨isWritten_orthogonal, isWritten_cardinalityStyle _ _⟩,
      isWritten_cardinalityStyle _ _⟩, isWritten_literal (by decide)⟩, ?_⟩
  split <;> exact isWritten_literal (by decide)

end Styles

/-! ### Flowcharts -/

namespace Layout.Charted

/-- The texts of the nodes and edges to be drawn are written with legal characters and characters
of the source. -/
structure IsWritten (source : List Char) (c : Charted) : Prop where
  /-- Those of nodes. -/
  nodes : ∀ n ∈ c.nodes, n.IsWritten source
  /-- Those of edges. -/
  edges : ∀ e ∈ c.edges, e.IsWritten source

/-- The terminal where a flowchart starts can be written. -/
theorem isWritten_startNode : Element.IsWritten source (.node startNode) where
  id := isWritten_literal (by decide)
  label := isWritten_literal (by decide)
  style := isWritten_literal (by decide)
  fill := fun _ hs => Option.some.inj hs ▸ isWritten_literal (by decide)
  stroke := fun _ hs => Option.some.inj hs ▸ isWritten_literal (by decide)

/-- The terminal where a flowchart stops can be written. -/
theorem isWritten_stopNode : Element.IsWritten source (.node stopNode) where
  id := isWritten_literal (by decide)
  label := isWritten_literal (by decide)
  style := isWritten_literal (by decide)
  fill := fun _ hs => Option.some.inj hs ▸ isWritten_literal (by decide)
  stroke := fun _ hs => Option.some.inj hs ▸ isWritten_literal (by decide)

variable {c : Charted}

/-- With a start everything can still be written. -/
theorem IsWritten.addStart (h : c.IsWritten source) {starts : List Element}
    (hs : ∀ n ∈ starts, n.IsWritten source) : (c.addStart starts).IsWritten source := by
  unfold Charted.addStart
  split
  · exact h
  · refine ⟨List.forall_mem_cons.mpr ⟨isWritten_startNode, h.nodes⟩, ?_⟩
    refine List.forall_mem_append.mpr ⟨fun e he => ?_, h.edges⟩
    obtain ⟨n, hn, rfl⟩ := List.mem_map.mp (List.mem_reverse.mp he)
    exact ⟨isWritten_append.mpr ⟨isWritten_literal (by decide), (hs n hn).id⟩,
      isWritten_of_isChar (s := "") (by decide)⟩

/-- With a stop everything can still be written. -/
theorem IsWritten.addStop (h : c.IsWritten source) {stops : List Element}
    (hs : ∀ n ∈ stops, n.IsWritten source) : (c.addStop stops).IsWritten source := by
  unfold Charted.addStop
  split
  · exact h
  · refine ⟨List.forall_mem_append.mpr
      ⟨h.nodes, List.forall_mem_singleton.mpr isWritten_stopNode⟩, ?_⟩
    refine List.forall_mem_append.mpr ⟨h.edges, fun e he => ?_⟩
    obtain ⟨n, hn, rfl⟩ := List.mem_map.mp he
    have hid := (hs n hn).id
    refine ⟨?_, isWritten_of_isChar (s := "") (by decide)⟩
    show Xml.IsWritten source ("e_" ++ n.id ++ "_stop")
    simp (disch := decide) [hid, isWritten_of_isChar]

/-- Terminals have fixed texts, and their edges are named after nodes. -/
theorem isWritten_withTerminals {d : Diagram} (h : d.IsWritten source) :
    (withTerminals d).IsWritten source := by
  unfold withTerminals
  split
  · exact ⟨h.nodes, h.edges⟩
  · refine IsWritten.addStop (IsWritten.addStart ⟨h.nodes, h.edges⟩ ?_) ?_
    · exact fun n hn => h.nodes n (List.mem_filter.mp hn).1
    · exact fun n hn => h.nodes n (List.mem_filter.mp hn).1

end Layout.Charted

section Flowchart

variable {A : Number.Arithmetic} {c : Chart} {cellOf : Table String} {cell : Cell}

/-- The cell of a node can be written. -/
theorem isWritten_nodeCell {n : Node} (hn : n.IsWritten source)
    (hcells : AreWrittenNames source cellOf) (h : c.nodeCell cellOf n = some cell) :
    cell.IsWritten source := by
  simp only [Chart.nodeCell, Option.bind_eq_bind, Option.bind_eq_some_iff, Option.pure_def,
    Option.some.injEq] at h
  obtain ⟨id, hid, box, -, rfl⟩ := h
  exact Vertex.isWritten_onPage (hcells _ _ hid) hn.label (isWritten_nodeStyle hn) rfl

/-- The cell of an edge can be written. -/
theorem isWritten_edgeCell {e : Edge} {id : String} (he : Xml.IsWritten source e.label)
    (hid : Xml.IsWritten source id) (hcells : AreWrittenNames source cellOf)
    (h : c.edgeCell A cellOf id e = some cell) : cell.IsWritten source := by
  simp only [Chart.edgeCell, Option.bind_eq_bind, Option.bind_eq_some_iff, Option.pure_def,
    Option.some.injEq] at h
  obtain ⟨s, hs, t, ht, _, -, _, -, _, -, rfl⟩ := h
  exact ⟨hid, he, isWritten_append.mpr ⟨isWritten_edgeStyle _, isWritten_anchors _⟩,
    hcells _ _ hs, hcells _ _ ht⟩

/-- A drawn group is one of the groups, and its preferred name is made up. -/
theorem mem_drawnGroups {boxes : Table Box} {groups : List Group} {p : String × Group × Box}
    (h : p ∈ drawnGroups boxes groups) :
    (∃ i : Nat, p.1 = "sg" ++ toString i) ∧ p.2.1 ∈ groups := by
  obtain ⟨q, hq, h⟩ := List.mem_filterMap.mp h
  obtain ⟨b, -, rfl⟩ := Option.map_eq_some_iff.mp h
  exact ⟨⟨q.2, rfl⟩, List.fst_mem_of_mem_zipIdx hq⟩

/-- The cells of a flowchart. -/
theorem isWritten_chartCells {groups : List Group} {cells : List Cell}
    (hnodes : ∀ n ∈ c.nodes, n.IsWritten source) (hedges : ∀ e ∈ c.edges, e.IsWritten source)
    (hgroups : ∀ g ∈ groups, Xml.IsWritten source g.label) (h : c.cells A groups = .ok cells) :
    ∀ cell ∈ cells, cell.IsWritten source := by
  obtain ⟨edges, hdrawn, -, rfl⟩ := Chart.cells_eq_ok.mp h
  have hdrawnEdges : ∀ e ∈ edges, (Connector.edge e).IsWritten source := by
    intro e he
    have hmem : Connector.edge e ∈ drawnEdges (c.nodes.map Node.id) c.edges :=
      hdrawn ▸ List.mem_map_of_mem he
    exact hedges _ (List.mem_filter.mp (firstOfPairs_subset _ _ hmem)).1
  cases hn : CellIds.issueAll {} (c.nodes.map Node.id) with | mk nodeIds ids₁ =>
  cases hg : ids₁.issueAll ((drawnGroups c.boxes groups).map (·.1)) with | mk groupIds ids₂ =>
  cases he : ids₂.issueAll (edges.map Edge.id) with | mk edgeIds ids₃ =>
  simp only [Chart.cellsWith, hn, hg, he]
  have hnodeIds : ∀ id ∈ nodeIds, Xml.IsWritten source id :=
    CellIds.isWritten_issueAll hn (List.forall_mem_map.mpr fun n hn => (hnodes n hn).id)
  have hgroupIds : ∀ id ∈ groupIds, Xml.IsWritten source id := by
    refine CellIds.isWritten_issueAll hg (List.forall_mem_map.mpr fun p hp => ?_)
    obtain ⟨⟨i, hi⟩, -⟩ := mem_drawnGroups hp
    rw [hi]
    simp (disch := decide) [isWritten_of_isChar]
  have hedgeIds : ∀ id ∈ edgeIds, Xml.IsWritten source id :=
    CellIds.isWritten_issueAll he (List.forall_mem_map.mpr fun e he => (hdrawnEdges e he).id)
  have hstyle : Xml.IsWritten source groupStyle := isWritten_literal (by decide)
  have hcells := areWrittenNames_ofList (c.nodes.map Node.id) hnodeIds
  rw [List.forall_mem_append, List.forall_mem_append]
  refine ⟨⟨?_, ?_⟩, ?_⟩
  · rw [List.forall_mem_map]
    rintro ⟨id, p⟩ hp
    have hmem := List.of_mem_zip hp
    exact Vertex.isWritten_onPage (hgroupIds id hmem.1) (hgroups _ (mem_drawnGroups hmem.2).2)
      hstyle rfl
  · intro cell hcell
    obtain ⟨n, hn, hcell⟩ := List.mem_filterMap.mp hcell
    exact isWritten_nodeCell (hnodes n hn) hcells hcell
  · intro cell hcell
    obtain ⟨⟨id, e⟩, hp, hcell⟩ := List.mem_filterMap.mp hcell
    have hmem := List.of_mem_zip hp
    exact isWritten_edgeCell (hdrawnEdges e hmem.2).label (hedgeIds id hmem.1) hcells hcell

end Flowchart

/-! ### Mindmaps -/

/-- The cells of a mindmap. -/
theorem isWritten_mindmapCells {d : Diagram} {boxes : Table Box} {cells : List Cell}
    (hd : d.IsWritten source) (h : d.mindmapCells boxes = .ok cells) :
    ∀ cell ∈ cells, cell.IsWritten source := by
  obtain ⟨nodes, hnodes, h⟩ := bind_eq_ok.mp h
  rw [nodesOrFail_eq_ok] at hnodes
  have htopics : ∀ n ∈ nodes, n.IsWritten source := by
    intro n hn
    exact hd.nodes (.node n) (hnodes ▸ List.mem_map_of_mem hn)
  have hedges : ∀ e ∈ knownEdges (nodes.map Node.id) d.edges, e.IsWritten source :=
    fun e he => hd.edges e (List.mem_filter.mp he).1
  cases hn : CellIds.issueAll {} (nodes.map Node.id) with | mk topicIds ids₁ =>
  cases he : ids₁.issueAll ((knownEdges (nodes.map Node.id) d.edges).map Connector.id) with
  | mk lineIds ids₂ =>
  simp only [hn, he] at h
  cases h
  have htopicIds : ∀ id ∈ topicIds, Xml.IsWritten source id :=
    CellIds.isWritten_issueAll hn (List.forall_mem_map.mpr fun n hn => (htopics n hn).id)
  have hlineIds : ∀ id ∈ lineIds, Xml.IsWritten source id :=
    CellIds.isWritten_issueAll he (List.forall_mem_map.mpr fun e he => (hedges e he).id)
  have hcells := areWrittenNames_ofList (nodes.map Node.id) htopicIds
  have hbranch : Xml.IsWritten source branchStyle := by
    refine isWritten_append.mpr ⟨isWritten_append.mpr ⟨?_, ?_⟩, isWritten_anchors _⟩ <;>
      exact isWritten_literal (by decide)
  rw [List.forall_mem_append]
  constructor
  · intro cell hcell
    obtain ⟨n, hn, hcell⟩ := List.mem_filterMap.mp hcell
    simp only [topicCell, Option.bind_eq_bind, Option.bind_eq_some_iff, Option.pure_def,
      Option.some.injEq] at hcell
    obtain ⟨id, hid, rfl⟩ := hcell
    exact Vertex.isWritten_onPage (hcells _ _ hid) (htopics n hn).label
      (isWritten_topicStyle (htopics n hn)) rfl
  · intro cell hcell
    obtain ⟨⟨id, e⟩, hp, hcell⟩ := List.mem_filterMap.mp hcell
    simp only [branchCell, Option.bind_eq_bind, Option.bind_eq_some_iff, Option.pure_def,
      Option.some.injEq] at hcell
    obtain ⟨s, hs, t, ht, rfl⟩ := hcell
    exact ⟨hlineIds id (List.of_mem_zip hp).1, isWritten_of_isChar (s := "") (by decide), hbranch,
      hcells _ _ hs, hcells _ _ ht⟩

/-! ### Sequence diagrams -/

/-- The cells of a sequence diagram. -/
theorem isWritten_sequenceCells {ps : List Element} {ms : List Message}
    (hps : ∀ p ∈ ps, p.IsWritten source) (hms : ∀ m ∈ ms, Xml.IsWritten source m.text) :
    ∀ cell ∈ sequenceCells ps ms, cell.IsWritten source := by
  cases hn : CellIds.issueAll {} (ps.map Element.id) with
  | mk participantIds ids₁ =>
  cases hl : ids₁.issueAll ((ps.map Element.id).map (· ++ "_lifeline")) with
  | mk lifelineIds ids₂ =>
  simp only [sequenceCells, hn, hl]
  have hparticipantIds : ∀ id ∈ participantIds, Xml.IsWritten source id :=
    CellIds.isWritten_issueAll hn (List.forall_mem_map.mpr fun p hp => (hps p hp).id)
  have hlifelineIds : ∀ id ∈ lifelineIds, Xml.IsWritten source id := by
    refine CellIds.isWritten_issueAll hl (List.forall_mem_map.mpr (List.forall_mem_map.mpr ?_))
    intro p hp
    exact isWritten_append.mpr ⟨(hps p hp).id, isWritten_literal (by decide)⟩
  have hcells := areWrittenNames_ofList (ps.map Element.id) hparticipantIds
  generalize Table.ofList ((ps.map Element.id).zip participantIds) = cellOf at hcells
  generalize Layout.sequence (ps.map Element.id) = boxes
  have hmessages : ∀ m ∈ ms.zipIdx.filter fun m => isDrawn boxes m.1,
      Xml.IsWritten source m.1.text := fun m hm =>
    hms _ (List.fst_mem_of_mem_zipIdx (List.mem_filter.mp hm).1)
  generalize ms.zipIdx.filter (fun m => isDrawn boxes m.1) = messages at hmessages ⊢
  cases hm : ids₂.issueAll (messages.map fun m => "msg" ++ toString m.2) with
  | mk messageIds ids₃ =>
  have hmessageIds : ∀ id ∈ messageIds, Xml.IsWritten source id := by
    refine CellIds.isWritten_issueAll hm (List.forall_mem_map.mpr fun m _ => ?_)
    simp (disch := decide) [isWritten_of_isChar]
  have hactor (isActor : Bool) : Xml.IsWritten source (participantStyle isActor) := by
    unfold participantStyle
    split
    · exact isWritten_literal (by decide)
    · exact isWritten_append.mpr ⟨isWritten_literal (by decide),
        isWritten_colors (isWritten_literal (by decide)) (isWritten_literal (by decide))⟩
  have hlifeline : Xml.IsWritten source lifelineStyle := isWritten_literal (by decide)
  rw [List.forall_mem_append, List.forall_mem_append]
  refine ⟨⟨?_, ?_⟩, ?_⟩
  · intro cell hcell
    obtain ⟨p, hp, hcell⟩ := List.mem_filterMap.mp hcell
    simp only [participantCell, Option.bind_eq_bind, Option.bind_eq_some_iff, Option.pure_def,
      Option.some.injEq] at hcell
    obtain ⟨id, hid, box, -, rfl⟩ := hcell
    exact Vertex.isWritten_onPage (hcells _ _ hid) (hps p hp).label (hactor p.isActor) rfl
  · intro cell hcell
    obtain ⟨⟨id, p⟩, hp, hcell⟩ := List.mem_filterMap.mp hcell
    simp only [lifelineCell, Option.bind_eq_bind, Option.bind_eq_some_iff, Option.pure_def,
      Option.some.injEq] at hcell
    obtain ⟨b, -, rfl⟩ := hcell
    exact ⟨hlifelineIds id (List.of_mem_zip hp).1, isWritten_of_isChar (s := "") (by decide),
      hlifeline, trivial⟩
  · intro cell hcell
    obtain ⟨⟨id, m⟩, hp, hcell⟩ := List.mem_filterMap.mp hcell
    have hmem := List.of_mem_zip hp
    simp only [messageCell, Option.bind_eq_bind, Option.bind_eq_some_iff, Option.pure_def,
      Option.some.injEq] at hcell
    obtain ⟨b, -, b', -, rfl⟩ := hcell
    exact ⟨hmessageIds id hmem.1, hmessages m hmem.2, isWritten_messageStyle _ _, trivial⟩

/-! ### Entity-relationship diagrams -/

/-- Texts can be written one after the other with a mark between them. -/
theorem isWritten_intercalate {mark : String} (hmark : Xml.IsWritten source mark)
    {ss : List String} (h : ∀ s ∈ ss, Xml.IsWritten source s) :
    Xml.IsWritten source (mark.intercalate ss) := by
  induction ss with
  | nil => exact isWritten_of_isChar (s := "") (by decide)
  | cons s rest ih =>
    have hrest := ih fun t ht => h t (List.mem_cons_of_mem s ht)
    cases rest with
    | nil => simpa using h s List.mem_cons_self
    | cons t rest =>
      rw [String.intercalate_cons_cons]
      exact isWritten_append.mpr
        ⟨isWritten_append.mpr ⟨h s List.mem_cons_self, hmark⟩, hrest⟩

/-- The label of an attribute can be written. -/
theorem isWritten_attributeLabel {a : Attribute} (h : a.IsWritten source) :
    Xml.IsWritten source (attributeLabel a) := by
  refine isWritten_intercalate (isWritten_literal (by decide)) ?_
  rw [List.forall_mem_cons, List.forall_mem_cons, List.forall_mem_map]
  exact ⟨h.type, h.name, h.keys⟩

/-- The texts of a row are written with legal characters and characters of the source. -/
structure Drawio.Row.IsWritten (source : List Char) (r : Row) : Prop where
  /-- Its preferred name. -/
  name : Xml.IsWritten source r.name
  /-- Its table. -/
  table : Xml.IsWritten source r.table
  /-- Its text. -/
  label : Xml.IsWritten source r.label
  /-- Style text. -/
  style : Xml.IsWritten source r.style

/-- Rows are named after their table, and hold attributes or say that there are none. -/
theorem isWritten_rows {table : String} (htable : Xml.IsWritten source table) (width : Int)
    {e : Entity} (he : e.IsWritten source) : ∀ r ∈ rows table width e, r.IsWritten source := by
  have hrowStyle {align : String} (halign : Xml.IsWritten source align) :
      Xml.IsWritten source (rowStyle align) := by
    refine isWritten_append.mpr ⟨isWritten_append.mpr ⟨isWritten_append.mpr
      ⟨isWritten_append.mpr ⟨?_, halign⟩, ?_⟩, ?_⟩, ?_⟩ <;>
      exact isWritten_literal (by decide)
  unfold rows
  split
  · refine List.forall_mem_singleton.mpr ⟨?_, htable, ?_, ?_⟩
    · exact isWritten_append.mpr ⟨htable, isWritten_literal (by decide)⟩
    · exact isWritten_of_isChar (s := "(no attributes)") (by decide)
    · exact isWritten_append.mpr ⟨hrowStyle (isWritten_literal (by decide)),
        isWritten_literal (by decide)⟩
  · refine List.forall_mem_map.mpr fun p hp => ⟨?_, htable, ?_, ?_⟩
    · exact isWritten_append.mpr
        ⟨isWritten_append.mpr ⟨htable, isWritten_literal (by decide)⟩, isWritten_natRepr _⟩
    · exact isWritten_attributeLabel (he.attributes p.1 (List.fst_mem_of_mem_zipIdx hp))
    · exact hrowStyle (isWritten_literal (by decide))

/-- The cells of tables and of their rows. -/
theorem isWritten_tableCells {ts : List TableParts}
    (h : ∀ t ∈ ts, t.table.IsWritten source ∧ ∀ r ∈ t.rows, r.IsWritten source) (ids : CellIds) :
    ∀ cell ∈ (tableCells ids ts).1, cell.IsWritten source := by
  induction ts generalizing ids with
  | nil => exact fun cell hcell => absurd hcell List.not_mem_nil
  | cons t rest ih =>
    obtain ⟨htable, hrows⟩ := h t List.mem_cons_self
    cases hr : ids.issueAll (t.rows.map Row.name) with | mk rowIds ids₁ =>
    have hrowIds : ∀ id ∈ rowIds, Xml.IsWritten source id :=
      CellIds.isWritten_issueAll hr (List.forall_mem_map.mpr fun r hr => (hrows r hr).name)
    have hrest := ih (fun t ht => h t (List.mem_cons_of_mem _ ht)) ids₁
    simp only [tableCells, hr, List.cons_append]
    refine List.forall_mem_cons.mpr ⟨htable, List.forall_mem_append.mpr ⟨?_, hrest⟩⟩
    rw [List.forall_mem_map]
    rintro ⟨id, r⟩ hp
    have hmem := List.of_mem_zip hp
    have hr := hrows r hmem.2
    exact ⟨hrowIds id hmem.1, hr.label, hr.style, fun s hs => Option.some.inj hs ▸ hr.table⟩

/-- The cells of an entity-relationship diagram. -/
theorem isWritten_entityCells (A : Number.Arithmetic) (boxes : Table Box) {es : List Entity}
    {relationships : List (Relationship × Nat)} (hes : ∀ e ∈ es, e.IsWritten source)
    (hrelationships : ∀ r ∈ relationships, Xml.IsWritten source r.1.label) :
    ∀ cell ∈ entityCells A boxes es relationships, cell.IsWritten source := by
  cases hn : CellIds.issueAll {} (es.map Entity.id) with | mk tableIds ids₁ =>
  simp only [entityCells, hn]
  have htableIds : ∀ id ∈ tableIds, Xml.IsWritten source id :=
    CellIds.isWritten_issueAll hn (List.forall_mem_map.mpr fun e he => (hes e he).id)
  have hcells := areWrittenNames_ofList (es.map Entity.id) htableIds
  generalize Table.ofList ((es.map Entity.id).zip tableIds) = cellOf at hcells ⊢
  have hstyle : Xml.IsWritten source tableStyle := by
    refine isWritten_append.mpr ⟨isWritten_append.mpr ⟨isWritten_append.mpr
      ⟨isWritten_append.mpr ⟨?_, ?_⟩, ?_⟩, isWritten_colors ?_ ?_⟩, ?_⟩ <;>
      exact isWritten_literal (by decide)
  have htables : ∀ t ∈ es.filterMap (tableParts boxes cellOf),
      t.table.IsWritten source ∧ ∀ r ∈ t.rows, r.IsWritten source := by
    intro t ht
    obtain ⟨e, he, ht⟩ := List.mem_filterMap.mp ht
    simp only [tableParts, Option.bind_eq_bind, Option.bind_eq_some_iff, Option.pure_def,
      Option.some.injEq] at ht
    obtain ⟨id, hid, box, -, rfl⟩ := ht
    have hid := hcells _ _ hid
    exact ⟨Vertex.isWritten_onPage hid (hes e he).label hstyle rfl,
      isWritten_rows hid box.width (hes e he)⟩
  generalize es.filterMap (tableParts boxes cellOf) = ts at htables ⊢
  cases hl : (tableCells ids₁ ts).2.issueAll
    (relationships.map fun r => "rel_" ++ toString r.2) with | mk lineIds ids₂ =>
  have hlineIds : ∀ id ∈ lineIds, Xml.IsWritten source id := by
    refine CellIds.isWritten_issueAll hl (List.forall_mem_map.mpr fun r _ => ?_)
    simp (disch := decide) [isWritten_of_isChar]
  rw [List.forall_mem_append]
  refine ⟨isWritten_tableCells htables ids₁, fun cell hcell => ?_⟩
  obtain ⟨⟨id, r⟩, hp, hcell⟩ := List.mem_filterMap.mp hcell
  have hmem := List.of_mem_zip hp
  simp only [relationshipCell, Option.bind_eq_bind, Option.bind_eq_some_iff, Option.pure_def,
    Option.some.injEq] at hcell
  obtain ⟨s, hs, t, ht, _, -, _, -, rfl⟩ := hcell
  exact ⟨hlineIds id hmem.1, hrelationships r hmem.2,
    isWritten_append.mpr ⟨isWritten_relationshipStyle _, isWritten_anchors _⟩, hcells _ _ hs,
    hcells _ _ ht⟩

/-- What is planned for an entity-relationship diagram are tables and links of it. -/
theorem Diagram.IsWritten.tablePlan {d : Diagram} (hd : d.IsWritten source) {plan : TablePlan}
    (h : d.tablePlan = .ok plan) {A : Number.Arithmetic} :
    ∀ cell ∈ plan.cells A, cell.IsWritten source := by
  obtain ⟨rs, htables, -, hlinks, hplan⟩ := Diagram.tablePlan_eq_ok.mp h
  refine isWritten_entityCells A _ (fun e he => ?_) fun r hr => ?_
  · exact hd.tables (.entity e) (htables ▸ List.mem_map_of_mem he)
  · have hr : r.1 ∈ rs := (List.of_mem_zip (hplan ▸ hr : r ∈ rs.zip _)).1
    have hmem := hlinks ▸ List.mem_map_of_mem (f := Connector.relationship) hr
    obtain ⟨l, hl, hlr⟩ := List.mem_map.mp hmem
    have hlabel := hd.links l.1 (List.fst_mem_of_mem_zipIdx (List.mem_filter.mp hl).1)
    rw [hlr] at hlabel
    exact hlabel

/-! ### All dialects -/

/-- **Main statement.** The cells that are drawn for a diagram are written with legal characters and
the characters with which its texts are written. -/
theorem Diagram.IsWritten.cells {d : Diagram} (hd : d.IsWritten source) {A : Number.Arithmetic}
    {cells : List Cell} (h : d.Draws A cells) : ∀ cell ∈ cells, cell.IsWritten source := by
  cases h with
  | sequence => exact isWritten_sequenceCells hd.parties hd.messages
  | entities _ hplan => exact hd.tablePlan hplan
  | mindmap _ hcells => exact isWritten_mindmapCells hd hcells
  | chart _ hc hcells =>
    have hterminals := Layout.Charted.isWritten_withTerminals hd
    obtain ⟨nodes, hnodes, -, rfl⟩ := Layout.chart_eq_ok.mp hc
    refine isWritten_chartCells (fun n hn => ?_) hterminals.edges hd.groups hcells
    exact hterminals.nodes (.node n) (hnodes ▸ List.mem_map_of_mem hn)

end Diagrams
