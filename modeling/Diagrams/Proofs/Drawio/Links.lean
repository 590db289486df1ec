import Diagrams.Drawio
import Diagrams.Proofs.Drawio.CellIds
import Diagrams.Proofs.Layout.Terminals
import Mathlib.Data.List.Basic

/-!
# Cells refer to cells

**Main statement** (`linked_cells`): the cells that are drawn for a diagram whose nodes have
distinct names are *linked* (`Linked`): they have distinct names, none of which is reserved, a cell
lies in a box of the page, and a line joins boxes of the page.

All names are asked for at one place, so what a writer issues is told by `CellIds.Issues`; the names
of the cells are found again among them (`names_filterMap`). A line asks for the names of its ends
in the table from which the boxes got theirs, and is drawn only when the boxes are
(`Chart.linked_cells` and the others). Which cells are drawn for which dialect is said once, by
`Diagram.Draws`; a document holds them (`Diagram.toDrawio_spec`).
-/

namespace Diagrams.Drawio

/-! ### Linked cells -/

/-- One of the cells is a box of the name. -/
def IsBox (cells : List Cell) (name : String) : Prop := ∃ v, Cell.vertex v ∈ cells ∧ v.id = name

/-- Cells have names of their own and refer to boxes among them. -/
structure Linked (cells : List Cell) : Prop where
  /-- The names are distinct. -/
  nodup : (cells.map Cell.id).Nodup
  /-- No name is one of those that every page has. -/
  fresh : ∀ c ∈ cells, c.id ∉ CellIds.issued {}
  /-- A box in another one lies in a box among the cells. -/
  container : ∀ v, Cell.vertex v ∈ cells → ∀ name ∈ v.container, IsBox cells name
  /-- A line that joins cells joins boxes among the cells. -/
  ends : ∀ l, Cell.line l ∈ cells → ∀ source target, l.ends = .cells source target →
    IsBox cells source ∧ IsBox cells target

/-- With more cells a box is still there. -/
theorem IsBox.mono {cells cells' : List Cell} {name : String} (h : IsBox cells name)
    (hs : cells ⊆ cells') : IsBox cells' name := by
  obtain ⟨v, hv, hid⟩ := h
  exact ⟨v, hs hv, hid⟩

/-- A line joins the cells at its ends and no others. -/
theorem IsBox.of_ends {cells : List Cell} {l : Line} {source target : String}
    (hs : IsBox cells source) (ht : IsBox cells target) (hends : l.ends = .cells source target) :
    ∀ source' target', l.ends = .cells source' target' →
      IsBox cells source' ∧ IsBox cells target' := by
  intro source' target' hends'
  rw [hends] at hends'
  cases hends'
  exact ⟨hs, ht⟩

/-- Boxes and lines are linked when their names were issued, boxes lie in boxes and lines join
boxes. -/
theorem Linked.of_parts {boxes lines : List Cell} {names : List String} {ids : CellIds}
    (hissues : CellIds.Issues {} names ids)
    (hnames : ((boxes ++ lines).map Cell.id).Subperm names)
    (hboxes : ∀ c ∈ boxes, ∃ v, c = .vertex v ∧ ∀ name ∈ v.container, IsBox boxes name)
    (hlines : ∀ c ∈ lines, ∃ l, c = .line l ∧
      ∀ source target, l.ends = .cells source target → IsBox boxes source ∧ IsBox boxes target) :
    Linked (boxes ++ lines) where
  nodup := by
    obtain ⟨names', hperm, hsub⟩ := hnames
    exact hperm.nodup_iff.mp (hissues.nodup.sublist hsub)
  fresh := fun c hc => hissues.fresh c.id (hnames.subset (List.mem_map_of_mem hc))
  container := by
    intro v hv name hname
    rcases List.mem_append.mp hv with hv | hv
    · obtain ⟨w, hw, hin⟩ := hboxes _ hv
      cases hw
      exact (hin name hname).mono (List.subset_append_left _ _)
    · obtain ⟨l, hl, _⟩ := hlines _ hv
      cases hl
  ends := by
    intro l hl source target hends
    rcases List.mem_append.mp hl with hl | hl
    · obtain ⟨w, hw, _⟩ := hboxes _ hl
      cases hw
    · obtain ⟨m, hm, hin⟩ := hlines _ hl
      cases hm
      obtain ⟨hs, ht⟩ := hin source target hends
      exact ⟨hs.mono (List.subset_append_left _ _), ht.mono (List.subset_append_left _ _)⟩

/-! ### Names of cells -/

/-- In the table of a list whose names are distinct, the names have the values of the list. -/
theorem filterMap_get?_ofList {names values : List String} (h : names.Nodup)
    (hlength : names.length = values.length) :
    names.filterMap (Table.ofList (names.zip values)).get? = values := by
  have hnames : (names.zip values).map (·.1) = names := List.map_fst_zip hlength.le
  have hvalues : (names.zip values).map (·.2) = values := List.map_snd_zip hlength.ge
  have hget : ∀ e ∈ names.zip values,
      (Table.ofList (names.zip values)).get? e.1 = some e.2 := by
    intro e he
    exact Table.get?_ofList (by rw [hnames]; exact h) he
  calc names.filterMap (Table.ofList (names.zip values)).get?
      = ((names.zip values).map (·.1)).filterMap (Table.ofList (names.zip values)).get? := by
        rw [hnames]
    _ = (names.zip values).filterMap fun e => some e.2 := by
        rw [List.filterMap_map]
        exact List.filterMap_congr hget
    _ = values := by
        rw [List.filterMap_eq_map', hvalues]

/-- What is drawn for some things has the names that were asked for, as far as it is drawn. -/
theorem names_filterMap {α β : Type} (draw : α → Option β) (id : β → String)
    (name : α → Option String) (h : ∀ a c, draw a = some c → name a = some (id c)) (xs : List α) :
    ((xs.filterMap draw).map id).Sublist (xs.filterMap name) := by
  induction xs with
  | nil => exact List.Sublist.slnil
  | cons a rest ih =>
    cases hdraw : draw a with
    | none =>
      rw [List.filterMap_cons_none hdraw]
      cases hname : name a with
      | none =>
        rw [List.filterMap_cons_none hname]
        exact ih
      | some n =>
        rw [List.filterMap_cons_some hname]
        exact ih.cons n
    | some c =>
      rw [List.filterMap_cons_some hdraw, List.filterMap_cons_some (h a c hdraw), List.map_cons]
      exact ih.cons_cons (id c)

/-- Paired names are some of the names. -/
theorem map_fst_zip_sublist {α : Type} (names : List String) (xs : List α) :
    ((names.zip xs).map (·.1)).Sublist names := by
  induction names generalizing xs with
  | nil => exact List.Sublist.slnil
  | cons n rest ih =>
    cases xs with
    | nil => exact List.nil_sublist _
    | cons x xs => exact (ih xs).cons_cons n

/-- The same when every thing comes with the name of its cell. -/
theorem names_filterMap_zip {α : Type} (draw : String × α → Option Cell)
    (h : ∀ p c, draw p = some c → c.id = p.1) (names : List String) (xs : List α) :
    (((names.zip xs).filterMap draw).map Cell.id).Sublist names := by
  have hdraw := names_filterMap draw Cell.id (fun p => some p.1)
    (fun p c hc => by rw [h p c hc]) (names.zip xs)
  rw [List.filterMap_eq_map'] at hdraw
  exact hdraw.trans (map_fst_zip_sublist names xs)

/-- A box is drawn for the name that was asked for. -/
theorem isBox_of_get? {α : Type} {key : α → String} {xs : List α} {ids : List String}
    (draw : α → Option Cell) {name id : String}
    (hget : (Table.ofList ((xs.map key).zip ids)).get? name = some id)
    (hdraw : ∀ a, key a = name → ∃ v, draw a = some (.vertex v) ∧ v.id = id) :
    IsBox (xs.filterMap draw) id := by
  have hmem : name ∈ xs.map key := (List.of_mem_zip (Table.mem_of_get?_ofList hget)).1
  obtain ⟨a, ha, rfl⟩ := List.mem_map.mp hmem
  obtain ⟨v, hv, hid⟩ := hdraw a rfl
  exact ⟨v, List.mem_filterMap.mpr ⟨a, ha, hv⟩, hid⟩

/-- The names of the boxes of some things are those that were asked for first. -/
theorem names_boxes {α β : Type} {key : α → String} {xs : List α} {ids : List String}
    (draw : α → Option β) (id : β → String) (hnames : (xs.map key).Nodup)
    (hlength : xs.length = ids.length)
    (hdraw : ∀ a c, draw a = some c →
      (Table.ofList ((xs.map key).zip ids)).get? (key a) = some (id c)) :
    ((xs.filterMap draw).map id).Sublist ids := by
  have hsub := names_filterMap draw id _ hdraw xs
  rw [← Function.comp_def, ← List.filterMap_map] at hsub
  rwa [filterMap_get?_ofList hnames (by rw [List.length_map, hlength])] at hsub

end Diagrams.Drawio

namespace Diagrams

open Drawio

/-! ### Flowcharts -/

namespace Chart

variable {A : Number.Arithmetic} {c : Chart} {cellOf : Table String} {cell : Cell} {id : String}

/-- The cell of a node is a box of the page with the node's name. -/
theorem nodeCell_spec {n : Node} (h : c.nodeCell cellOf n = some cell) :
    ∃ v, cell = .vertex v ∧ cellOf.get? n.id = some v.id ∧ v.container = none := by
  simp only [nodeCell, Option.bind_eq_bind, Option.bind_eq_some_iff, Option.pure_def,
    Option.some.injEq] at h
  obtain ⟨id, hid, box, hbox, rfl⟩ := h
  exact ⟨_, rfl, hid, rfl⟩

/-- A node with a name and a box has a cell. -/
theorem exists_nodeCell {n : Node} {b : Box} (hid : cellOf.get? n.id = some id)
    (hbox : c.boxes.get? n.id = some b) :
    ∃ v, c.nodeCell cellOf n = some (.vertex v) ∧ v.id = id := by
  simp only [nodeCell, hid, hbox]
  exact ⟨_, rfl, rfl⟩

/-- The cell of an edge is a line between nodes with names and boxes. -/
theorem edgeCell_spec {e : Edge} (h : c.edgeCell A cellOf id e = some cell) :
    ∃ l source target, cell = .line l ∧ l.id = id ∧ l.ends = .cells source target ∧
      cellOf.get? e.source = some source ∧ cellOf.get? e.target = some target ∧
      (∃ b, c.boxes.get? e.source = some b) ∧ ∃ b, c.boxes.get? e.target = some b := by
  simp only [edgeCell, Option.bind_eq_bind, Option.bind_eq_some_iff, Option.pure_def,
    Option.some.injEq] at h
  obtain ⟨source, hs, target, ht, _, _, b, hb, b', hb', rfl⟩ := h
  exact ⟨_, source, target, rfl, rfl, rfl, hs, ht, ⟨b, hb⟩, ⟨b', hb'⟩⟩

/-- A chart has cells when its drawn edges are edges, and all numbers lie in the range. -/
theorem cells_eq_ok {groups : List Group} {cells : List Cell} :
    c.cells A groups = .ok cells ↔ ∃ edges, drawnEdges (c.nodes.map Node.id) c.edges =
      edges.map .edge ∧ cellsInRange A (c.cellsWith A groups edges) = true ∧
        cells = c.cellsWith A groups edges := by
  unfold Chart.cells
  rw [bind_eq_ok]
  refine exists_congr fun edges => ?_
  rw [mapError_eq_ok, edgesOrFail_eq_ok]
  exact and_congr_right fun _ => ite_eq_ok

/-- The cells of a flowchart are linked. -/
theorem linked_cells {groups : List Group} {cells : List Cell}
    (hnames : (c.nodes.map Node.id).Nodup) (h : c.cells A groups = .ok cells) : Linked cells := by
  obtain ⟨edges, -, -, rfl⟩ := cells_eq_ok.mp h
  unfold cellsWith
  cases hn : CellIds.issueAll {} (c.nodes.map Node.id) with | mk nodeIds ids₁ =>
  cases hg : ids₁.issueAll ((drawnGroups c.boxes groups).map (·.1)) with | mk groupIds ids₂ =>
  simp only [hn, hg]
  obtain ⟨hnodeIds, hlength⟩ := CellIds.issues_of_issueAll hn
  have hissues := (hnodeIds.append (CellIds.issues_of_issueAll hg).1).append
    (ids₂.issueAll_issues (edges.map Edge.id))
  rw [List.length_map] at hlength
  generalize hcellOf : Table.ofList ((c.nodes.map Node.id).zip nodeIds) = cellOf
  have hbox : ∀ {name id b}, cellOf.get? name = some id → c.boxes.get? name = some b →
      IsBox (c.nodes.filterMap (c.nodeCell cellOf)) id := by
    intro name id b hid hb
    refine isBox_of_get? (c.nodeCell cellOf) (hcellOf ▸ hid) fun n hn => ?_
    exact exists_nodeCell (hn ▸ hid) (hn ▸ hb)
  refine Linked.of_parts hissues ?_ ?_ ?_
  · -- nodes are named first, but the groups lie behind them
    have hnodes := names_boxes (c.nodeCell cellOf) Cell.id hnames hlength.symm
      fun n cell hcell => by
      obtain ⟨v, rfl, hid, _⟩ := nodeCell_spec hcell
      exact hcellOf ▸ hid
    have hlines := names_filterMap_zip (fun p => c.edgeCell A cellOf p.1 p.2)
      (fun p cell hcell => by
        obtain ⟨l, _, _, rfl, hid, _⟩ := edgeCell_spec hcell
        exact hid) (ids₂.issueAll (edges.map Edge.id)).1 edges
    rw [List.map_append, List.map_append, List.map_map]
    have hgroups := map_fst_zip_sublist groupIds (drawnGroups c.boxes groups)
    exact ((hgroups.append hnodes).append hlines).subperm.trans
      (List.perm_append_comm.append_right _).subperm
  · intro cell hcell
    rcases List.mem_append.mp hcell with hcell | hcell
    · obtain ⟨p, _, rfl⟩ := List.mem_map.mp hcell
      exact ⟨_, rfl, fun _ hname => nomatch hname⟩
    · obtain ⟨n, _, hn⟩ := List.mem_filterMap.mp hcell
      obtain ⟨v, rfl, _, hv⟩ := nodeCell_spec hn
      exact ⟨v, rfl, fun _ hname => by rw [hv] at hname; cases hname⟩
  · intro cell hcell
    obtain ⟨p, _, hp⟩ := List.mem_filterMap.mp hcell
    obtain ⟨l, source, target, rfl, _, hends, hs, ht, ⟨b, hb⟩, ⟨b', hb'⟩⟩ := edgeCell_spec hp
    refine ⟨l, rfl, IsBox.of_ends ?_ ?_ hends⟩
    · exact (hbox hs hb).mono (List.subset_append_right _ _)
    · exact (hbox ht hb').mono (List.subset_append_right _ _)

end Chart

/-! ### Mindmaps -/

section Mindmap

variable {boxes : Table Box} {cellOf : Table String} {cell : Cell} {id : String}

/-- The cell of a topic is a box of the page with the topic's name. -/
theorem topicCell_spec {n : Node} (h : topicCell boxes cellOf n = some cell) :
    ∃ v, cell = .vertex v ∧ cellOf.get? n.id = some v.id ∧ v.container = none := by
  simp only [topicCell, Option.bind_eq_bind, Option.bind_eq_some_iff, Option.pure_def,
    Option.some.injEq] at h
  obtain ⟨id, hid, rfl⟩ := h
  exact ⟨_, rfl, hid, rfl⟩

/-- A topic with a name has a cell. -/
theorem exists_topicCell {n : Node} (boxes : Table Box) (hid : cellOf.get? n.id = some id) :
    ∃ v, topicCell boxes cellOf n = some (.vertex v) ∧ v.id = id := by
  simp only [topicCell, hid]
  exact ⟨_, rfl, rfl⟩

/-- The cell of a branch is a line between topics with names. -/
theorem branchCell_spec {c : Connector} (h : branchCell cellOf id c = some cell) :
    ∃ l source target, cell = .line l ∧ l.id = id ∧ l.ends = .cells source target ∧
      cellOf.get? c.source = some source ∧ cellOf.get? c.target = some target := by
  simp only [branchCell, Option.bind_eq_bind, Option.bind_eq_some_iff, Option.pure_def,
    Option.some.injEq] at h
  obtain ⟨source, hs, target, ht, rfl⟩ := h
  exact ⟨_, source, target, rfl, rfl, rfl, hs, ht⟩

/-- The cells of a mindmap are linked. -/
theorem Diagram.linked_mindmapCells {d : Diagram} {cells : List Cell}
    (hnames : (d.nodes.map Element.id).Nodup) (h : d.mindmapCells boxes = .ok cells) :
    Linked cells := by
  obtain ⟨nodes, hnodes, h⟩ := bind_eq_ok.mp h
  rw [nodesOrFail_eq_ok.mp hnodes, List.map_map] at hnames
  cases hn : CellIds.issueAll {} (nodes.map Node.id) with | mk topicIds ids =>
  simp only [hn] at h
  cases h
  obtain ⟨htopicIds, hlength⟩ := CellIds.issues_of_issueAll hn
  rw [List.length_map] at hlength
  generalize knownEdges (nodes.map Node.id) d.edges = edges
  have hissues := htopicIds.append (ids.issueAll_issues (edges.map Connector.id))
  generalize hcellOf : Table.ofList ((nodes.map Node.id).zip topicIds) = cellOf
  have hbox : ∀ {name id}, cellOf.get? name = some id →
      IsBox (nodes.filterMap (topicCell boxes cellOf)) id := by
    intro name id hid
    refine isBox_of_get? (topicCell boxes cellOf) (hcellOf ▸ hid) fun n hn => ?_
    exact exists_topicCell boxes (hn ▸ hid)
  refine Linked.of_parts hissues ?_ ?_ ?_
  · have htopics := names_boxes (topicCell boxes cellOf) Cell.id hnames hlength.symm
      fun n cell hcell => by
      obtain ⟨v, rfl, hid, _⟩ := topicCell_spec hcell
      exact hcellOf ▸ hid
    have hlines := names_filterMap_zip (fun p => branchCell cellOf p.1 p.2)
      (fun p cell hcell => by
        obtain ⟨l, _, _, rfl, hid, _⟩ := branchCell_spec hcell
        exact hid) (ids.issueAll (edges.map Connector.id)).1 edges
    rw [List.map_append]
    exact (htopics.append hlines).subperm
  · intro cell hcell
    obtain ⟨n, _, hn⟩ := List.mem_filterMap.mp hcell
    obtain ⟨v, rfl, _, hv⟩ := topicCell_spec hn
    exact ⟨v, rfl, fun _ hname => by rw [hv] at hname; cases hname⟩
  · intro cell hcell
    obtain ⟨p, _, hp⟩ := List.mem_filterMap.mp hcell
    obtain ⟨l, source, target, rfl, _, hends, hs, ht⟩ := branchCell_spec hp
    exact ⟨l, rfl, (hbox hs).of_ends (hbox ht) hends⟩

end Mindmap

/-! ### Sequence diagrams -/

section Sequence

variable {boxes : Table Box} {cellOf : Table String} {cell : Cell} {id : String}

/-- The cell of a participant is a box of the page with the participant's name. -/
theorem participantCell_spec {p : Element} (h : participantCell boxes cellOf p = some cell) :
    ∃ v, cell = .vertex v ∧ cellOf.get? p.id = some v.id ∧ v.container = none := by
  simp only [participantCell, Option.bind_eq_bind, Option.bind_eq_some_iff, Option.pure_def,
    Option.some.injEq] at h
  obtain ⟨id, hid, box, hbox, rfl⟩ := h
  exact ⟨_, rfl, hid, rfl⟩

/-- A lifeline is a line between points. -/
theorem lifelineCell_spec {length : Int} {p : Element}
    (h : lifelineCell boxes length id p = some cell) :
    ∃ l source target, cell = .line l ∧ l.id = id ∧ l.ends = .points source target := by
  simp only [lifelineCell, Option.bind_eq_bind, Option.bind_eq_some_iff, Option.pure_def,
    Option.some.injEq] at h
  obtain ⟨b, hb, rfl⟩ := h
  exact ⟨_, _, _, rfl, rfl, rfl⟩

/-- A message is a line between points. -/
theorem messageCell_spec {place : Nat} {m : Message}
    (h : messageCell boxes id place m = some cell) :
    ∃ l source target, cell = .line l ∧ l.id = id ∧ l.ends = .points source target := by
  simp only [messageCell, Option.bind_eq_bind, Option.bind_eq_some_iff, Option.pure_def,
    Option.some.injEq] at h
  obtain ⟨b, hb, b', hb', rfl⟩ := h
  exact ⟨_, _, _, rfl, rfl, rfl⟩

/-- The cells of a sequence diagram are linked. -/
theorem linked_sequenceCells {ps : List Element} (hnames : (ps.map Element.id).Nodup)
    (ms : List Message) : Linked (sequenceCells ps ms) := by
  cases hn : CellIds.issueAll {} (ps.map Element.id) with | mk participantIds ids₁ =>
  cases hl : ids₁.issueAll ((ps.map Element.id).map (· ++ "_lifeline")) with
  | mk lifelineIds ids₂ =>
  simp only [sequenceCells, hn, hl]
  obtain ⟨hparticipantIds, hlength⟩ := CellIds.issues_of_issueAll hn
  rw [List.length_map] at hlength
  generalize Layout.sequence (ps.map Element.id) = boxes
  generalize Layout.lifelineLength ms.length = length
  generalize ms.zipIdx.filter (fun m => isDrawn boxes m.1) = messages
  have hissues := (hparticipantIds.append (CellIds.issues_of_issueAll hl).1).append
    (ids₂.issueAll_issues (messages.map fun m => "msg" ++ toString m.2))
  rw [List.append_assoc]
  rw [List.append_assoc] at hissues
  refine Linked.of_parts hissues ?_ ?_ ?_
  · have hparticipants := names_boxes (participantCell boxes _) Cell.id hnames hlength.symm
      fun p cell hcell => by
        obtain ⟨v, rfl, hid, _⟩ := participantCell_spec hcell
        exact hid
    have hlifelines := names_filterMap_zip (fun p => lifelineCell boxes length p.1 p.2)
      (fun p cell hcell => by
        obtain ⟨l, _, _, rfl, hid, _⟩ := lifelineCell_spec hcell
        exact hid) lifelineIds ps
    have hmessages := names_filterMap_zip (fun p => messageCell boxes p.1 p.2.2 p.2.1)
      (fun p cell hcell => by
        obtain ⟨l, _, _, rfl, hid, _⟩ := messageCell_spec hcell
        exact hid) (ids₂.issueAll (messages.map fun m => "msg" ++ toString m.2)).1 messages
    rw [List.map_append, List.map_append]
    exact (hparticipants.append (hlifelines.append hmessages)).subperm
  · intro cell hcell
    obtain ⟨p, _, hp⟩ := List.mem_filterMap.mp hcell
    obtain ⟨v, rfl, _, hv⟩ := participantCell_spec hp
    exact ⟨v, rfl, fun _ hname => by rw [hv] at hname; cases hname⟩
  · intro cell hcell
    have hpoints : ∃ l source target, cell = .line l ∧ l.ends = .points source target := by
      rcases List.mem_append.mp hcell with hcell | hcell
      · obtain ⟨p, _, hp⟩ := List.mem_filterMap.mp hcell
        obtain ⟨l, source, target, rfl, _, hends⟩ := lifelineCell_spec hp
        exact ⟨l, source, target, rfl, hends⟩
      · obtain ⟨p, _, hp⟩ := List.mem_filterMap.mp hcell
        obtain ⟨l, source, target, rfl, _, hends⟩ := messageCell_spec hp
        exact ⟨l, source, target, rfl, hends⟩
    obtain ⟨l, source, target, rfl, hends⟩ := hpoints
    exact ⟨l, rfl, fun _ _ hcells => by rw [hends] at hcells; cases hcells⟩

end Sequence

/-! ### Entity-relationship diagrams -/

section Entities

variable {A : Number.Arithmetic} {boxes : Table Box} {cellOf : Table String} {cell : Cell}
  {id : String}

/-- The table of an entity is a box of the page with the entity's name, and its rows lie in it. -/
theorem tableParts_spec {e : Entity} {t : TableParts} (h : tableParts boxes cellOf e = some t) :
    cellOf.get? e.id = some t.table.id ∧ t.table.container = none ∧
      ∀ r ∈ t.rows, r.table = t.table.id := by
  simp only [tableParts, Option.bind_eq_bind, Option.bind_eq_some_iff, Option.pure_def,
    Option.some.injEq] at h
  obtain ⟨id, hid, box, hbox, rfl⟩ := h
  refine ⟨hid, rfl, fun r hr => ?_⟩
  simp only [rows] at hr
  split at hr
  · rw [List.mem_singleton.mp hr]
  · obtain ⟨a, _, rfl⟩ := List.mem_map.mp hr
    rfl

/-- An entity with a name and a box has a table. -/
theorem exists_tableParts {e : Entity} {b : Box} (hid : cellOf.get? e.id = some id)
    (hbox : boxes.get? e.id = some b) :
    ∃ t, tableParts boxes cellOf e = some t ∧ t.table.id = id := by
  simp only [tableParts, hid, hbox]
  exact ⟨_, rfl, rfl⟩

/-- The cell of a relationship is a line between entities with names and boxes. -/
theorem relationshipCell_spec {place : Nat} {r : Relationship}
    (h : relationshipCell A boxes cellOf id place r = some cell) :
    ∃ l source target, cell = .line l ∧ l.id = id ∧ l.ends = .cells source target ∧
      cellOf.get? r.source = some source ∧ cellOf.get? r.target = some target ∧
      (∃ b, boxes.get? r.source = some b) ∧ ∃ b, boxes.get? r.target = some b := by
  simp only [relationshipCell, Option.bind_eq_bind, Option.bind_eq_some_iff, Option.pure_def,
    Option.some.injEq] at h
  obtain ⟨source, hs, target, ht, b, hb, b', hb', rfl⟩ := h
  exact ⟨_, source, target, rfl, rfl, rfl, hs, ht, ⟨b, hb⟩, ⟨b', hb'⟩⟩

/-- Rows are named table by table, and the tables have their names already. -/
theorem names_tableCells (ids : CellIds) (ts : List TableParts) :
    ∃ rowIds, CellIds.Issues ids rowIds (tableCells ids ts).2 ∧
      ((tableCells ids ts).1.map Cell.id).Perm (ts.map (·.table.id) ++ rowIds) := by
  induction ts generalizing ids with
  | nil => exact ⟨[], CellIds.Issues.nil ids, List.Perm.refl _⟩
  | cons t rest ih =>
    cases hr : ids.issueAll (t.rows.map Row.name) with | mk firstIds ids₁ =>
    obtain ⟨hfirst, hlength⟩ := CellIds.issues_of_issueAll hr
    obtain ⟨restIds, hrest, hperm⟩ := ih ids₁
    rw [List.length_map] at hlength
    simp only [tableCells, hr]
    refine ⟨firstIds ++ restIds, hfirst.append hrest, ?_⟩
    have hrows : ((firstIds.zip t.rows).map fun p => p.2.cell p.1).map Cell.id = firstIds := by
      rw [List.map_map]
      exact List.map_fst_zip hlength.le
    rw [List.map_append, List.map_cons, hrows, List.map_cons, List.cons_append, List.cons_append]
    refine List.Perm.cons t.table.id ?_
    have hfront := hperm.append_left firstIds
    refine hfront.trans ?_
    rw [← List.append_assoc, ← List.append_assoc]
    exact List.perm_append_comm.append_right restIds

/-- Among the cells of tables are the tables themselves, and all others are rows in them. -/
theorem mem_tableCells (ids : CellIds) (ts : List TableParts) :
    (∀ t ∈ ts, .vertex t.table ∈ (tableCells ids ts).1) ∧
      ∀ c ∈ (tableCells ids ts).1, ∃ t ∈ ts, c = .vertex t.table ∨
        ∃ r ∈ t.rows, ∃ id, c = r.cell id := by
  induction ts generalizing ids with
  | nil => exact ⟨fun _ h => absurd h List.not_mem_nil, fun _ h => absurd h List.not_mem_nil⟩
  | cons t rest ih =>
    obtain ⟨htables, hcells⟩ := ih (ids.issueAll (t.rows.map Row.name)).2
    constructor
    · intro t' ht'
      rcases List.mem_cons.mp ht' with rfl | ht'
      · exact List.mem_cons_self
      · exact List.mem_cons_of_mem _ (List.mem_append_right _ (htables t' ht'))
    · intro c hc
      rcases List.mem_cons.mp hc with rfl | hc
      · exact ⟨t, List.mem_cons_self, .inl rfl⟩
      · rcases List.mem_append.mp hc with hc | hc
        · obtain ⟨p, hp, rfl⟩ := List.mem_map.mp hc
          exact ⟨t, List.mem_cons_self, .inr ⟨p.2, (List.of_mem_zip hp).2, p.1, rfl⟩⟩
        · obtain ⟨t', ht', h⟩ := hcells c hc
          exact ⟨t', List.mem_cons_of_mem _ ht', h⟩

/-- The cells of tables and relationships are linked. -/
theorem linked_entityCells {es : List Entity} (hnames : (es.map Entity.id).Nodup)
    (boxes : Table Box) (relationships : List (Relationship × Nat)) :
    Linked (entityCells A boxes es relationships) := by
  cases hn : CellIds.issueAll {} (es.map Entity.id) with | mk tableIds ids₁ =>
  obtain ⟨htableIds, hlength⟩ := CellIds.issues_of_issueAll hn
  rw [List.length_map] at hlength
  simp only [entityCells, hn]
  generalize hcellOf : Table.ofList ((es.map Entity.id).zip tableIds) = cellOf
  generalize hts : es.filterMap (tableParts boxes cellOf) = ts
  obtain ⟨rowIds, hrowIds, hperm⟩ := names_tableCells ids₁ ts
  obtain ⟨htables, hcells⟩ := mem_tableCells ids₁ ts
  have hissues := (htableIds.append hrowIds).append ((tableCells ids₁ ts).2.issueAll_issues
    (relationships.map fun r => "rel_" ++ toString r.2))
  have hbox : ∀ {name id b}, cellOf.get? name = some id → boxes.get? name = some b →
      IsBox (tableCells ids₁ ts).1 id := by
    intro name id b hid hb
    have hmem := (List.of_mem_zip (Table.mem_of_get?_ofList (hcellOf ▸ hid))).1
    obtain ⟨e, he, rfl⟩ := List.mem_map.mp hmem
    obtain ⟨t, ht, rfl⟩ := exists_tableParts hid hb
    exact ⟨t.table, htables t (hts ▸ List.mem_filterMap.mpr ⟨e, he, ht⟩), rfl⟩
  refine Linked.of_parts hissues ?_ ?_ ?_
  · -- a table is named as its entity asks, before any row
    have htableNames := names_boxes (tableParts boxes cellOf) (·.table.id) hnames hlength.symm
      fun e t ht => hcellOf ▸ (tableParts_spec ht).1
    rw [hts] at htableNames
    have hlines := names_filterMap_zip (fun p => relationshipCell A boxes cellOf p.1 p.2.2 p.2.1)
      (fun p cell hcell => by
        obtain ⟨l, _, _, rfl, hid, _⟩ := relationshipCell_spec hcell
        exact hid) ((tableCells ids₁ ts).2.issueAll
          (relationships.map fun r => "rel_" ++ toString r.2)).1 relationships
    rw [List.map_append]
    refine ((hperm.append_right _).subperm.trans ?_)
    exact ((htableNames.append_right rowIds).append hlines).subperm
  · intro cell hcell
    obtain ⟨t, ht, rfl | ⟨r, hr, id, rfl⟩⟩ := hcells cell hcell
    · obtain ⟨e, _, he⟩ := List.mem_filterMap.mp (hts ▸ ht)
      exact ⟨t.table, rfl, fun _ hname => by rw [(tableParts_spec he).2.1] at hname; cases hname⟩
    · obtain ⟨e, _, he⟩ := List.mem_filterMap.mp (hts ▸ ht)
      refine ⟨_, rfl, fun name hname => ?_⟩
      obtain rfl : r.table = name := Option.some.inj hname
      rw [(tableParts_spec he).2.2 r hr]
      exact ⟨t.table, htables t ht, rfl⟩
  · intro cell hcell
    obtain ⟨p, _, hp⟩ := List.mem_filterMap.mp hcell
    obtain ⟨l, source, target, rfl, _, hends, hs, ht, ⟨b, hb⟩, ⟨b', hb'⟩⟩ :=
      relationshipCell_spec hp
    exact ⟨l, rfl, (hbox hs hb).of_ends (hbox ht hb') hends⟩

end Entities

/-! ### All dialects -/

/-- The names of the parts that get a box of their own. -/
def Diagram.drawnNames (d : Diagram) : List String :=
  match d.kind with
  | .known .sequence => d.parties.map Element.id
  | .known .entityRelationship => d.tables.map Element.id
  | .known .flowchart | .known .mindmap | .other .. => d.nodes.map Element.id

/-- The diagram is drawn as a flowchart: it is one, or of unknown kind. -/
def Diagram.IsCharted (d : Diagram) : Prop := ∀ k, d.kind = .known k → k = .flowchart

/-- What is charted is a flowchart or is of a foreign kind. -/
theorem Diagram.IsCharted.kind_cases {d : Diagram} (h : d.IsCharted) :
    d.kind = Dialect.flowchart ∨ ∃ word foreign, d.kind = .other word foreign := by
  cases hkind : d.kind with
  | known k =>
    cases h k hkind
    exact .inl rfl
  | other word foreign => exact .inr ⟨word, foreign, rfl⟩

/-- The names that are drawn are those of the nodes. -/
theorem Diagram.IsCharted.drawnNames {d : Diagram} (h : d.IsCharted) :
    d.drawnNames = d.nodes.map Element.id := by
  rcases h.kind_cases with hkind | ⟨word, foreign, hkind⟩ <;> rw [Diagram.drawnNames, hkind]

/-- The plan holds the entities and the relationships between them, each with its place among the
links. -/
theorem Diagram.tablePlan_eq_ok {d : Diagram} {plan : TablePlan} :
    d.tablePlan = .ok plan ↔ ∃ relationships : List Relationship,
      d.tables = plan.entities.map .entity ∧
      plan.boxes = Layout.entities plan.entities d.links ∧
      (drawnLinks plan.boxes d.links).map (·.1) = relationships.map .relationship ∧
      plan.relationships = relationships.zip ((drawnLinks plan.boxes d.links).map (·.2)) := by
  unfold Diagram.tablePlan
  rw [bind_eq_ok]
  constructor
  · rintro ⟨entities, hentities, h⟩
    obtain ⟨relationships, hrelationships, h⟩ := bind_eq_ok.mp h
    cases h
    exact ⟨relationships, entitiesOrFail_eq_ok.mp hentities, rfl,
      relationshipsOrFail_eq_ok.mp hrelationships, rfl⟩
  · rintro ⟨relationships, hentities, hboxes, hlinks, hrelationships⟩
    obtain ⟨entities, drawn, boxes⟩ := plan
    simp only at hentities hboxes hlinks hrelationships
    subst hboxes hrelationships
    exact ⟨entities, entitiesOrFail_eq_ok.mpr hentities,
      bind_eq_ok.mpr ⟨relationships, relationshipsOrFail_eq_ok.mpr hlinks, rfl⟩⟩

/-- The cells that are drawn for a diagram of each dialect. -/
inductive Diagram.Draws (A : Number.Arithmetic) (d : Diagram) : List Cell → Prop
  | sequence (hkind : d.kind = Dialect.sequence) : Draws A d d.sequenceCells
  | entities {plan : TablePlan} (hkind : d.kind = Dialect.entityRelationship)
    (h : d.tablePlan = .ok plan) : Draws A d (plan.cells A)
  | mindmap {cells : List Cell} (hkind : d.kind = Dialect.mindmap)
    (h : d.mindmapCells (d.mindmapLayout A) = .ok cells) : Draws A d cells
  | chart {c : Chart} {cells : List Cell} (hkind : d.IsCharted) (hc : d.chart A = .ok c)
    (h : c.cells A d.groups = .ok cells) : Draws A d cells

namespace Diagram.Draws

variable {A : Number.Arithmetic} {d : Diagram} {cells : List Cell}

/-- What is drawn for a sequence diagram are its cells. -/
theorem eq_sequenceCells (h : d.Draws A cells) (hkind : d.kind = Dialect.sequence) :
    cells = d.sequenceCells := by
  cases h with
  | sequence _ => rfl
  | entities hother _ => exact nomatch hkind.symm.trans hother
  | mindmap hother _ => exact nomatch hkind.symm.trans hother
  | chart hother _ _ => exact nomatch hother _ hkind

/-- What is drawn for a chart are the cells of the chart. -/
theorem exists_chart (h : d.Draws A cells) (hkind : d.IsCharted) :
    ∃ c, d.chart A = .ok c ∧ c.cells A d.groups = .ok cells := by
  cases h with
  | sequence hother => exact nomatch hkind _ hother
  | entities hother _ => exact nomatch hkind _ hother
  | mindmap hother _ => exact nomatch hkind _ hother
  | chart _ hc hcells => exact ⟨_, hc, hcells⟩

end Diagram.Draws

/-- A document has the title that is asked for, or the usual one, and the cells of the dialect. -/
theorem Diagram.toDrawio_spec {A : Number.Arithmetic} {d : Diagram} {title : Option String}
    {stamp : Stamp} {doc : Document} (h : d.toDrawio A title stamp = .ok doc) :
    doc.title = .text (orElse title (defaultTitle d.kind)) ∧ d.Draws A doc.cells := by
  unfold Diagram.toDrawio at h
  split at h
  · rename_i hkind
    cases h
    exact ⟨rfl, .sequence hkind⟩
  · rename_i hkind
    obtain ⟨plan, hplan, h⟩ := bind_eq_ok.mp h
    cases h
    exact ⟨rfl, .entities hkind (mapError_eq_ok.mp hplan)⟩
  · rename_i hkind
    obtain ⟨cells, hcells, h⟩ := bind_eq_ok.mp h
    cases h
    exact ⟨rfl, .mindmap hkind (mapError_eq_ok.mp hcells)⟩
  · rename_i hkind
    obtain ⟨c, hc, h⟩ := bind_eq_ok.mp h
    obtain ⟨cells, hcells, h⟩ := bind_eq_ok.mp h
    cases h
    refine ⟨rfl, .chart (fun k hk => ?_) hc hcells⟩
    rw [hkind] at hk
    cases hk
    rfl
  · rename_i hkind
    obtain ⟨c, hc, h⟩ := bind_eq_ok.mp h
    obtain ⟨cells, hcells, h⟩ := bind_eq_ok.mp h
    cases h
    refine ⟨rfl, .chart (fun k hk => ?_) hc hcells⟩
    rw [hkind] at hk
    cases hk

/-- The nodes of a chart have the names of the diagram's nodes and of its terminals. -/
theorem Chart.names_eq {A : Number.Arithmetic} {d : Diagram} {c : Chart}
    (h : d.chart A = .ok c) : c.nodes.map Node.id = (Layout.withTerminals d).names := by
  obtain ⟨nodes, hnodes, -, rfl⟩ := Layout.chart_eq_ok.mp h
  exact (Layout.Charted.names_eq hnodes).symm

/-- What is drawn for a diagram is linked when the parts with boxes have distinct names. -/
theorem Diagram.Draws.linked {A : Number.Arithmetic} {d : Diagram} {cells : List Cell}
    (h : d.Draws A cells) (hnames : d.drawnNames.Nodup) : Linked cells := by
  cases h with
  | sequence hkind =>
    rw [Diagram.drawnNames, hkind] at hnames
    exact linked_sequenceCells hnames d.messages
  | entities hkind hplan =>
    obtain ⟨-, htables, -⟩ := Diagram.tablePlan_eq_ok.mp hplan
    rw [Diagram.drawnNames, hkind, htables, List.map_map] at hnames
    exact linked_entityCells hnames _ _
  | mindmap hkind hcells =>
    rw [Diagram.drawnNames, hkind] at hnames
    exact Diagram.linked_mindmapCells hnames hcells
  | chart hkind hc hcells =>
    rw [hkind.drawnNames] at hnames
    refine Chart.linked_cells ?_ hcells
    rw [Chart.names_eq hc]
    exact Layout.Charted.nodup_withTerminals hnames

/-- So are the cells of every document. -/
theorem Diagram.linked_cells {A : Number.Arithmetic} {d : Diagram} {title : Option String}
    {stamp : Stamp} {doc : Document} (hnames : d.drawnNames.Nodup)
    (h : d.toDrawio A title stamp = .ok doc) : Linked doc.cells :=
  (Diagram.toDrawio_spec h).2.linked hnames

end Diagrams
