import Diagrams.Proofs.Layout.Coverage
import Diagrams.Proofs.Layout.Origin
import Diagrams.Proofs.Layout.Topics

/-!
# Whatever is read is laid out

**Main statement** (`exists_layout_of_parse`): for every text that can be read there is a layout,
which gives one box to every part that is drawn. The boxes lie on the grid, and those of a flowchart
not before the origin across its direction. What the layout looks up on the way is there.

For each dialect one lemma puts together which parts have boxes and where these lie. Nothing is
assumed of the edges: the nodes of a flowchart have places on cycles as well
(`Layout.exists_ranks`), and a mindmap that was read has no cycles (`Mindmap.isAcyclic_read`).
-/

namespace Diagrams

open Layout

/-- The box stands on the grid. -/
def Box.IsOnGrid (b : Box) : Prop := 10 ∣ b.x ∧ 10 ∣ b.y

/-- The boxes are a layout of the diagram. -/
structure Diagram.IsLaidOut (d : Diagram) (boxes : Table Box) : Prop where
  /-- No part has two boxes. -/
  nodup : boxes.names.Nodup
  /-- The parts of the diagram have boxes, a flowchart's terminals among them, and nothing else. -/
  names : boxes.names.Perm (withTerminals d).names
  /-- Boxes stand on the grid. -/
  onGrid : ∀ e ∈ boxes, e.2.IsOnGrid
  /-- No node of a flowchart lies before the origin across the direction. -/
  origin : d.kind = Dialect.flowchart → ∀ e ∈ boxes,
    if d.flow = Direction.lr ∨ d.flow = Direction.rl then 40 ≤ e.2.y else 100 ≤ e.2.x

/-- What is looked up for a layout is there: the level and the column of every node of a flowchart,
and a number of columns by which the places of entities can be divided. -/
structure Diagram.HasPlaces (d : Diagram) : Prop where
  /-- Every node of a flowchart has a level and a column. -/
  ranks : d.kind = Dialect.flowchart → ∀ n ∈ (withTerminals d).names,
    let r := Layout.ranks .exact (withTerminals d).names (graphOf (withTerminals d).edges)
    (∃ l, r.levels.get? n = some l) ∧ ∃ c, r.columns.get? n = some c
  /-- Entities stand in one column at least. -/
  columns : d.tables ≠ [] → 0 < gridColumns d.tables.length

/-! ### Boxes on the grid -/

namespace Layout

/-- Participants stand on the grid. -/
theorem isOnGrid_sequence {names : List String} {e : String × Box} (h : e ∈ sequence names) :
    e.2.IsOnGrid := by
  obtain ⟨p, -, rfl⟩ := List.mem_map.mp (Table.mem_of_mem_ofList h)
  simp only [Box.IsOnGrid, participantBox]
  omega

/-- Entities in a triangle stand on the grid. -/
theorem isOnGrid_triangle {junction : Entity} {others : List Entity} {e : String × Box}
    (h : e ∈ triangle junction others) : e.2.IsOnGrid := by
  rcases List.mem_cons.mp h with rfl | h
  · exact ⟨by simp [entityBox], by simp [entityBox]⟩
  · obtain ⟨p, -, rfl⟩ := List.mem_map.mp h
    simp only [Box.IsOnGrid, entityBox]
    omega

/-- Entities in a grid of their own stand on the grid. -/
theorem isOnGrid_gridBoxes {es : List Entity} {e : String × Box} (h : e ∈ gridBoxes es) :
    e.2.IsOnGrid := by
  obtain ⟨p, -, rfl⟩ := List.mem_map.mp h
  simp only [Box.IsOnGrid, entityBox]
  omega

/-- Entities stand on the grid. -/
theorem isOnGrid_entities {es : List Entity} {rs : List Connector} {e : String × Box}
    (h : e ∈ entities es rs) : e.2.IsOnGrid := by
  unfold entities at h
  split at h
  · split at h
    · exact isOnGrid_triangle (Table.mem_of_mem_ofList h)
    · exact isOnGrid_gridBoxes (Table.mem_of_mem_ofList h)
  · exact isOnGrid_gridBoxes (Table.mem_of_mem_ofList h)

/-- Topics stand on the grid. -/
theorem isOnGrid_mindmap (A : Number.Arithmetic) (names : List String) (g : Digraph) :
    ∀ e ∈ mindmap A names g, e.2.IsOnGrid :=
  forall_placeTopics (fun _ => True) (fun _ _ _ => ⟨dvd_snap A _, dvd_snap A _⟩)
    (fun _ _ => trivial) g [] _ trivial 50 fun _ he => absurd he List.not_mem_nil

/-- Nodes of a flowchart stand on the grid. -/
theorem isOnGrid_flowchart {A : Number.Arithmetic} {nodes : List Node} {g : Digraph}
    {direction : Term Direction} {e : String × Box} (h : e ∈ flowchart A nodes g direction) :
    e.2.IsOnGrid := by
  obtain ⟨n, -, rfl⟩ := List.mem_map.mp (Table.mem_of_mem_ofList h)
  simp only [Box.IsOnGrid, Orientation.point]
  split
  · exact ⟨dvd_snap A _, dvd_snap A _⟩
  · exact ⟨dvd_snap A _, dvd_snap A _⟩

/-- A grid has a column. -/
theorem gridColumns_pos {count : Int} (h : 0 < count) : 0 < gridColumns count := by
  unfold gridColumns
  split
  · exact h
  · split <;> omega

end Layout

/-! ### The dialects -/

namespace Diagram

variable {d : Diagram}

/-- Of a diagram without levels only the names and the grid matter. -/
theorem isLaidOut_of_names {boxes : Table Box} (hkind : d.kind ≠ Dialect.flowchart)
    (hd : d.IsSound) (hnames : boxes.names.Perm d.names) (hgrid : ∀ e ∈ boxes, e.2.IsOnGrid) :
    d.IsLaidOut boxes where
  nodup := hnames.nodup_iff.mpr hd.nodup_names
  names := by
    rw [names_withTerminals hkind]
    exact hnames
  onGrid := hgrid
  origin := fun h => absurd h hkind

/-- A sequence diagram is laid out. -/
theorem isLaidOut_sequence (hkind : d.kind = Dialect.sequence) (hd : d.IsSound) :
    d.IsLaidOut (sequence (d.parties.map Element.id)) := by
  have hids : d.parties.map Element.id = d.names := by
    rw [hd.parties_eq hkind, List.map_map, hd.names_of_sequence hkind]
    rfl
  rw [hids]
  exact isLaidOut_of_names (by simp [hkind]) hd (List.Perm.of_eq (names_sequence hd.nodup_names))
    fun e he => isOnGrid_sequence he

/-- An entity-relationship diagram is laid out. -/
theorem isLaidOut_entities (hkind : d.kind = Dialect.entityRelationship) (hd : d.IsSound) :
    d.IsLaidOut (Layout.entities d.entities d.links) := by
  have hids := hd.names_of_entities hkind
  have hnames := names_entities (hids ▸ hd.nodup_names) d.links
  rw [← hids] at hnames
  exact isLaidOut_of_names (by simp [hkind]) hd hnames fun e he => isOnGrid_entities he

/-- The entities of a sound diagram are laid out. -/
theorem exists_layout_entities (hkind : d.kind = Dialect.entityRelationship) (hd : d.IsSound) :
    ∃ boxes, d.layout .exact = .ok boxes ∧ d.IsLaidOut boxes := by
  refine ⟨_, ?_, isLaidOut_entities hkind hd⟩
  unfold Diagram.layout
  rw [hkind, entitiesOrFail_eq_ok.mpr (hd.tables_eq hkind)]
  rfl

/-- A mindmap is laid out. -/
theorem isLaidOut_mindmap (lines : List (List Char)) :
    (Mindmap.read lines).IsLaidOut ((Mindmap.read lines).mindmapLayout .exact) :=
  isLaidOut_of_names (by simp [Mindmap.read]) (Mindmap.isSound_read lines)
    (names_mindmapLayout .exact lines) (isOnGrid_mindmap _ _ _)

/-- Columns run to the side for the directions from left to right and back only. -/
theorem horizontal_of (t : Term Direction) :
    (Orientation.of t).horizontal = true ↔ t = Direction.lr ∨ t = Direction.rl := by
  cases t with
  | known direction => cases direction <;> decide
  | other word foreign => simp [Orientation.of]

/-- A flowchart is laid out. -/
theorem isLaidOut_flowchart {nodes : List Node}
    (hnodes : (withTerminals d).nodes = nodes.map .node) (hd : d.IsSound) :
    d.IsLaidOut (flowchart .exact nodes (graphOf (withTerminals d).edges) d.flow) := by
  have hids := Charted.names_eq hnodes
  have hnodup : (nodes.map Node.id).Nodup := hids ▸ Charted.nodup_withTerminals hd.nodup_names
  refine ⟨?_, ?_, fun e he => isOnGrid_flowchart he, ?_⟩
  · rw [names_flowchart .exact hnodup]
    exact hnodup
  · rw [names_flowchart .exact hnodup, hids]
  · intro _ e he
    obtain ⟨n, hn, rfl⟩ := List.mem_map.mp (Table.mem_of_mem_ofList he)
    have hpoint : let r := ranks .exact (nodes.map Node.id) (graphOf (withTerminals d).edges)
        let p := (Orientation.of d.flow).point .exact (r.levels.getD n.id 0) (r.columns.getD n.id 0)
        if (Orientation.of d.flow).horizontal then 40 ≤ p.2 else 100 ≤ p.1 := by
      apply point_after_origin
      obtain ⟨-, c, hc, hnonneg⟩ := exists_ranks keepsSign_exact (nodes.map Node.id)
        (graphOf (withTerminals d).edges) (List.mem_map_of_mem hn)
      rw [Table.getD, hc]
      exact hnonneg
    simp only [horizontal_of] at hpoint
    exact hpoint

/-- A flowchart of nodes is laid out. -/
theorem exists_layout_flowchart (hkind : d.kind = Dialect.flowchart) (hd : d.IsSound)
    (nodes : List Node) (hnodes : d.nodes = nodes.map .node) :
    ∃ boxes, d.layout .exact = .ok boxes ∧ d.IsLaidOut boxes := by
  obtain ⟨all, hall, -⟩ := exists_nodes_withTerminals hkind hnodes
  refine ⟨_, ?_, isLaidOut_flowchart hall hd⟩
  unfold Diagram.layout
  rw [hkind, chart_eq_of_nodes .exact hall, columnsInRange_exact]
  rfl

/-- Nothing that is looked up for a layout is missing. -/
theorem hasPlaces (d : Diagram) : d.HasPlaces where
  ranks := by
    intro _ n hn
    obtain ⟨hlevel, c, hc, -⟩ := exists_ranks keepsSign_exact _ (graphOf (withTerminals d).edges) hn
    exact ⟨hlevel, c, hc⟩
  columns := by
    intro h
    apply gridColumns_pos
    have hlength := List.length_pos_of_ne_nil h
    omega

end Diagram

/-- Whatever is read is laid out. -/
theorem Source.exists_layout_readBody (header : List Char) (body : List (List Char)) :
    ∃ boxes, (Source.readBody header body).layout .exact = .ok boxes ∧
      (Source.readBody header body).IsLaidOut boxes := by
  have hd := Source.isSound_readBody header body
  unfold Source.readBody at hd ⊢
  split at hd
  · exact ⟨_, rfl, Diagram.isLaidOut_sequence rfl hd⟩
  · exact Diagram.exists_layout_entities rfl hd
  · exact ⟨_, rfl, Diagram.isLaidOut_mindmap body⟩
  · exact Diagram.exists_layout_flowchart rfl hd _ rfl
  · exact Diagram.exists_layout_flowchart rfl hd _ rfl
  · exact Diagram.exists_layout_flowchart rfl hd _ rfl

/-- **Main statement.** Every text that can be read is laid out without a failure: what is looked up
is there, and each part that is drawn gets one box, on the grid and not before the origin. -/
theorem exists_layout_of_parse (code : String) (d : Diagram) (h : Diagram.parse code = .ok d) :
    d.HasPlaces ∧ ∃ boxes, d.layout .exact = .ok boxes ∧ d.IsLaidOut boxes := by
  obtain ⟨header, body, -, rfl⟩ := Diagram.eq_readBody_of_parse h
  exact ⟨Diagram.hasPlaces _, Source.exists_layout_readBody header body⟩

/-- A node that leads to itself and, twice, to one that leads back. -/
def looped : Diagram where
  direction := some Direction.lr
  nodes := [.node (.plain "a"), .node (.plain "b")]
  edges :=
    [.edge { id := "e1", source := "a", target := "a", arrow := some Arrow.solid.style },
      .edge { id := "e2", source := "a", target := "b", arrow := some Arrow.solid.style },
      .edge { id := "e3", source := "a", target := "b", arrow := some Arrow.solid.style },
      .edge { id := "e4", source := "b", target := "a", arrow := some Arrow.solid.style }]

set_option maxRecDepth 100000 in
/-- A flowchart with a loop, two edges alike and a cycle is laid out. -/
theorem exists_layout_of_parse_looped :
    Diagram.parse "graph LR\na-->a\na-->b\na-->b\nb-->a" = .ok looped ∧ looped.HasPlaces ∧
      ∃ boxes, looped.layout .exact = .ok boxes ∧ looped.IsLaidOut boxes := by
  have hparse : Diagram.parse "graph LR\na-->a\na-->b\na-->b\nb-->a" = .ok looped := rfl
  exact ⟨hparse, exists_layout_of_parse _ looped hparse⟩

end Diagrams
