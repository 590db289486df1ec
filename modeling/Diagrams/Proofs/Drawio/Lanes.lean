import Diagrams.Proofs.Drawio.Frames
import Diagrams.Proofs.Drawio.Positions

/-!
# Lanes

**Main statement** (`toDrawio_framesGroups`): in the document that is drawn for a flowchart the lane
of a group is the smallest box that leaves the usual room around the boxes of all members of the
group.

The box around the members of a group is their frame (`isFrame_groupBox`). The members' boxes come
from the layout, with the terminals, and the same table gives the boxes that are drawn
(`mem_memberBoxes_iff`).
-/

namespace Diagrams

open Drawio Layout

namespace Drawio

/-! ### Boxes of members -/

/-- The boxes of the named nodes among the boxes that are drawn. -/
def memberBoxes (cellOf : String → String) (boxes : List Vertex) (members : List String) :
    List Box :=
  (boxes.filter fun v => v.id ∈ members.map cellOf).map (·.box)

/-- When nodes are drawn at the boxes of a table, by cells with distinct names, the boxes of named
nodes are those that the names have in the table. -/
theorem mem_memberBoxes_iff {cellOf : String → String} {boxes : List Vertex} {nodes : List Node}
    {table : Table Box} (hids : (boxes.map (·.id)).Nodup)
    (h : List.Forall₂ (fun v n => v.id = cellOf n.id ∧ table.get? n.id = some v.box) boxes nodes)
    {members : List String} (hmembers : members ⊆ nodes.map Node.id) (b : Box) :
    b ∈ memberBoxes cellOf boxes members ↔ b ∈ members.filterMap table.get? := by
  have hdrawn : ∀ m ∈ members, ∃ v ∈ boxes, v.id = cellOf m ∧ table.get? m = some v.box := by
    intro m hm
    obtain ⟨n, hn, rfl⟩ := List.mem_map.mp (hmembers hm)
    exact exists_of_mem_right h hn
  simp only [memberBoxes, List.mem_map, List.mem_filter, decide_eq_true_iff, List.mem_filterMap]
  constructor
  · rintro ⟨v, ⟨hv, m, hm, hid⟩, rfl⟩
    obtain ⟨w, hw, hwid, hbox⟩ := hdrawn m hm
    have hsame : w = v := List.inj_on_of_nodup_map hids hw hv (hwid.trans hid)
    exact ⟨m, hm, hsame ▸ hbox⟩
  · rintro ⟨m, hm, hb⟩
    obtain ⟨v, hv, hid, hbox⟩ := hdrawn m hm
    exact ⟨v, ⟨hv, m, hm, hid.symm⟩, Option.some.inj (hbox.symm.trans hb)⟩

/-- The box is the lane of a group: it has the group's label, and is the smallest box with the usual
room around the boxes of all members. -/
structure IsLane (cellOf : String → String) (boxes : List Vertex) (g : Group) (lane : Vertex) :
    Prop where
  /-- The text over the lane. -/
  label : lane.label = g.label
  /-- It is drawn as a lane. -/
  style : lane.style = groupStyle
  /-- Every member is drawn. -/
  members : ∀ m ∈ g.members, ∃ v ∈ boxes, v.id = cellOf m
  /-- Where it lies. -/
  frame : lane.box.IsFrame (memberBoxes cellOf boxes g.members)
  /-- No box with as much room is smaller. -/
  least : ∀ other : Box, other.HasRoom (memberBoxes cellOf boxes g.members) →
    lane.box.IsWithin other

end Drawio

/-- In the cells of a chart with boxes every group with members has its lane. -/
theorem Chart.exists_lanes {A : Number.Arithmetic} {c : Chart} {groups : List Group}
    {cells : List Cell} (hboxes : c.boxes.names = c.nodes.map Node.id)
    (hgroups : ∀ g ∈ groups, g.members ⊆ c.nodes.map Node.id)
    (hids : (cells.map Cell.id).Nodup) (h : c.cells A groups = .ok cells) :
    ∃ cellOf lanes boxes, pageBoxes cells = lanes ++ boxes ∧
      ShowsNodes cellOf boxes (c.nodes.map .node) ∧
      List.Forall₂ (fun lane g => IsLane cellOf boxes g lane) lanes
        (groups.filter fun g => g.members ≠ []) := by
  have hpage := (((sublist_pageBoxes cells).map Cell.id).nodup hids)
  rw [List.map_map] at hpage
  obtain ⟨cellOf, edges, groupIds, edgeIds, hcells, -, hgroupIds, -, rfl⟩ := exists_parts h
  have hlines : pageBoxes ((edgeIds.zip edges).filterMap fun p => c.edgeCell A cellOf p.1 p.2) =
      [] := by
    refine pageBoxes_eq_nil fun cell hcell => ?_
    obtain ⟨p, -, hp⟩ := List.mem_filterMap.mp hcell
    obtain ⟨l, -, -, rfl, -⟩ := edgeCell_spec hp
    exact ⟨l, rfl⟩
  rw [pageBoxes_append, pageBoxes_append, hlines, List.append_nil] at hpage ⊢
  rw [List.map_append] at hpage
  have hnodes := (showsAll_vertices (showsAll_nodes hboxes hcells)).1
  have hlanes := (showsAll_vertices (showsAll_lanes (hboxes ▸ hgroups) hgroupIds)).1
  refine ⟨cellName cellOf, _, _, rfl, ?_, ?_⟩
  · rw [ShowsNodes, List.forall₂_map_right_iff]
    exact hnodes.imp fun v n h => ⟨h.1, h.2.1⟩
  · refine List.forall₂_iff_zip.mpr ⟨hlanes.length_eq, fun {lane g} hp => ?_⟩
    obtain ⟨hlabel, hstyle, hbox⟩ := List.forall₂_zip hlanes hp
    have hg := hgroups g (List.mem_of_mem_filter (List.of_mem_zip hp).2)
    have hframe := (isFrame_groupBox hbox).congr (mem_memberBoxes_iff
      (List.nodup_append.mp hpage).2.1 (hnodes.imp fun v n h => ⟨h.1, h.2.2⟩) hg)
    refine ⟨hlabel, hstyle, fun m hm => ?_, hframe, fun other hroom => hframe.isWithin hroom⟩
    obtain ⟨n, hn, rfl⟩ := List.mem_map.mp (hg hm)
    obtain ⟨v, hv, hid, -⟩ := exists_of_mem_right hnodes hn
    exact ⟨v, hv, hid⟩

/-- In the document of a sound flowchart every group with members has its lane. -/
theorem Diagram.IsSound.exists_lanes {A : Number.Arithmetic} {d : Diagram} (hd : d.IsSound)
    (hkind : d.IsCharted) {cells : List Cell} (h : d.Draws A cells) :
    ∃ cellOf lanes boxes, pageBoxes cells = lanes ++ boxes ∧
      ShowsNodes cellOf boxes (withTerminals d).nodes ∧
      List.Forall₂ (fun lane g => IsLane cellOf boxes g lane) lanes
        (d.groups.filter fun g => g.members ≠ []) := by
  have hids := (h.linked hd.nodup_drawnNames).nodup
  obtain ⟨c, hc, hcells⟩ := h.exists_chart hkind
  have hnames := Chart.names_eq hc
  have hnodup := Charted.nodup_withTerminals hd.nodup_names
  obtain ⟨nodes, hnodes, -, rfl⟩ := chart_eq_ok.mp hc
  rw [hnodes]
  apply Chart.exists_lanes ?_ ?_ hids hcells
  · exact names_flowchart A (by rw [hnames]; exact hnodup) _ _
  · intro g hg
    rw [hnames]
    exact List.Subset.trans (hd.groups_sound g hg).2 (names_subset_withTerminals d)

/-! ### The main statement -/

/-- A box of the page is an element of the document, at its place. -/
theorem Drawio.isBoxAt_of_mem_pageBoxes {doc : Document} {v : Vertex}
    (h : v ∈ pageBoxes doc.cells) :
    v.toXml ∈ doc.toXml.cells ∧ v.toXml.IsBoxAt v.id v.label v.box := by
  obtain ⟨hcell, hcontainer⟩ := mem_pageBoxes.mp h
  exact ⟨mem_cells_toXml.mpr (.inr (.inr ⟨.vertex v, hcell, rfl⟩)), v.isBoxAt_toXml hcontainer⟩

/-- **Main statement.** In the document that is drawn for a flowchart, unless it is too wide, the
boxes are lanes and nodes. There is one lane for every group with members, and it is the smallest
box that leaves 50 units at the top and 20 units at the other sides around the boxes of all members.
The boxes are written with these numbers, as far as they are below `2 ^ 53`. -/
theorem toDrawio_framesGroups (A : Number.Arithmetic) (title : Option String) (stamp : Stamp)
    {code : String} {d : Diagram} (h : Diagram.parse code = .ok d)
    (hkind : d.kind = Dialect.flowchart) :
    d.DrawnOrWide A title stamp fun doc => ∃ cellOf lanes boxes,
      pageBoxes doc.cells = lanes ++ boxes ∧
      ((lanes ++ boxes).map (·.id)).Nodup ∧
      ShowsNodes cellOf boxes (withTerminals d).nodes ∧
      List.Forall₂ (fun lane g => IsLane cellOf boxes g lane) lanes
        (d.groups.filter fun g => g.members ≠ []) ∧
      ∀ v ∈ lanes ++ boxes, v.toXml ∈ doc.toXml.cells ∧ v.toXml.IsBoxAt v.id v.label v.box := by
  have hsound := isSound_of_parse code d h
  have hcharted : d.IsCharted := fun k hk => by
    rw [hkind] at hk
    cases hk
    rfl
  refine (Diagram.drawnOrWide_of_parse A h title stamp).imp fun doc hdoc _ => ?_
  have hdraws := (Diagram.toDrawio_spec hdoc).2
  obtain ⟨cellOf, lanes, boxes, hpage, hnodes, hlanes⟩ := hsound.exists_lanes hcharted hdraws
  have hids := ((sublist_pageBoxes doc.cells).map Cell.id).nodup
    (hdraws.linked hsound.nodup_drawnNames).nodup
  rw [List.map_map] at hids
  refine ⟨cellOf, lanes, boxes, hpage, hpage ▸ hids, hnodes, hlanes, fun v hv => ?_⟩
  exact isBoxAt_of_mem_pageBoxes (hpage ▸ hv)

/-- A group that lies above the origin, and one without members. -/
def raised : Diagram where
  direction := some Direction.bt
  nodes := [.node (.shaped "a" ⟨.rectangle, "x"⟩), .node (.plain "b")]
  edges := [.edge { id := "e1", source := "a", target := "b", arrow := some Arrow.solid.style }]
  groups := [⟨"g", "Back", ["a", "b"]⟩, ⟨"e", "e", []⟩]

set_option maxRecDepth 100000 in
/-- A group in a flowchart that runs upwards is framed, and a group without members is not. -/
theorem toDrawio_framesGroups_raised :
    Diagram.parse "graph BT\nsubgraph g [Back]\na[x] --> b\nend\nsubgraph e\nend" = .ok raised ∧
      ∃ doc cellOf lanes boxes,
        raised.toDrawio .exact none { moment := ⟨2024, 1, 2, 3, 4, 5, 678901⟩ } = .ok doc ∧
        pageBoxes doc.cells = lanes ++ boxes ∧
        ShowsNodes cellOf boxes (withTerminals raised).nodes ∧
        List.Forall₂ (fun lane g => IsLane cellOf boxes g lane) lanes
          [⟨"g", "Back", ["a", "b"]⟩] := by
  have hparse : Diagram.parse
      "graph BT\nsubgraph g [Back]\na[x] --> b\nend\nsubgraph e\nend" = .ok raised := rfl
  obtain ⟨doc, hdoc, cellOf, lanes, boxes, hpage, -, hnodes, hlanes, -⟩ :=
    (toDrawio_framesGroups .exact none { moment := ⟨2024, 1, 2, 3, 4, 5, 678901⟩ } hparse rfl).exact
  exact ⟨hparse, doc, cellOf, lanes, boxes, hdoc, hpage, hnodes, hlanes⟩

end Diagrams
