import Diagrams.Proofs.Drawio.Picture
import Diagrams.Proofs.Number.Binary64

/-!
# Rows of tables

**Main statement** (`toDrawio_hasRows`): in the document that is drawn for an entity-relationship
diagram every table holds one row for each attribute of its entity, in their order, or one row that
says that there are none. The rows stand in a stack below the header and end within the table, and
the page is large enough for all tables.

* `IsStack` — boxes that stand one below the other, from one height to another.
* `boxesIn` — the boxes that lie in a table. As tables have distinct names, these are the rows of the
  table and no others (`forall₂_boxesIn_tableCells`).
* `stack_rows`, `bottom_rows_le` — the rows are a stack that is not higher than the table. The
  height of the table is computed in the layout, and where the rows lie in the drawing.
* `hasRoom_pageSize` — the page reaches beyond all boxes.
* `cellsIn_eq` — in the written document the same cells name the table as their parent.
-/

namespace Diagrams

open Drawio Layout Number

/-! ### Stacks -/

/-- Boxes of one width at the left edge stand one below the other, from one height to another. -/
inductive IsStack (width : Int) : Int → Int → List Box → Prop
  | nil (y : Int) : IsStack width y y []
  | cons {top bottom : Int} {b : Box} {rest : List Box} (hx : b.x = 0) (hy : b.y = top)
    (hwidth : b.width = width) (hheight : 0 < b.height) (h : IsStack width b.bottom bottom rest) :
    IsStack width top bottom (b :: rest)

/-- Rows from a place on are a stack. -/
theorem Drawio.isStack_rowBox (width : Int) (place count : Nat) :
    IsStack width (headerHeight + place * rowHeight) (headerHeight + (place + count : Nat) * rowHeight)
      ((List.range' place count).map (rowBox width)) := by
  induction count generalizing place with
  | zero => exact IsStack.nil _
  | succ count ih =>
    rw [List.range'_succ, List.map_cons]
    have hrest := ih (place + 1)
    have hbottom : (rowBox width place).bottom = headerHeight + (place + 1 : Nat) * rowHeight := by
      simp only [Box.bottom, rowBox]
      push_cast
      ring
    rw [← hbottom, Nat.add_assoc, Nat.add_comm 1 count] at hrest
    exact .cons rfl rfl rfl (show 0 < rowHeight by decide) hrest

namespace Drawio

/-! ### Boxes in a box -/

/-- The boxes that lie in the box of a name, in their order. -/
def boxesIn (cells : List Cell) (name : String) : List Vertex :=
  (cells.filterMap Cell.asVertex?).filter fun v => v.container = some name

variable {cells cells' : List Cell} {name : String}

/-- The boxes in a container are found in each of two lists. -/
@[simp] theorem boxesIn_append (cells cells' : List Cell) (name : String) :
    boxesIn (cells ++ cells') name = boxesIn cells name ++ boxesIn cells' name := by
  simp [boxesIn]

/-- A container that no box names is empty. -/
theorem boxesIn_eq_nil (h : ∀ v, Cell.vertex v ∈ cells → v.container ≠ some name) :
    boxesIn cells name = [] := by
  rw [boxesIn, List.filter_eq_nil_iff]
  intro v hv
  simpa using h v (mem_filterMap_asVertex?.mp hv)

/-- A box of another container is passed over. -/
theorem boxesIn_vertex_of_ne {v : Vertex} (h : v.container ≠ some name) (cells : List Cell) :
    boxesIn (.vertex v :: cells) name = boxesIn cells name := by
  simp [boxesIn, Cell.asVertex?, h]

/-- The row is drawn as the box. -/
def ShowsRow (v : Vertex) (r : Row) : Prop :=
  v.label = r.label ∧ v.style = r.style ∧ v.box = r.box

/-- The cells of the rows of one table. -/
theorem forall₂_boxesIn_rows {ids : List String} {rows : List Row}
    (hlength : ids.length = rows.length) (h : ∀ r ∈ rows, r.table = name) :
    List.Forall₂ ShowsRow (boxesIn ((ids.zip rows).map fun p => p.2.cell p.1) name) rows := by
  induction rows generalizing ids with
  | nil => simp [boxesIn]
  | cons r rest ih =>
    obtain ⟨id, ids, rfl⟩ := List.exists_cons_of_length_eq_add_one hlength
    have hrest := ih (Nat.succ.inj hlength) fun r hr => h r (List.mem_cons_of_mem _ hr)
    have hr : r.table = name := h r List.mem_cons_self
    have hcons : boxesIn (((id :: ids).zip (r :: rest)).map fun p => p.2.cell p.1) name =
        { id, label := r.label, style := r.style, container := some r.table, box := r.box } ::
          boxesIn ((ids.zip rest).map fun p => p.2.cell p.1) name := by
      simp [boxesIn, Row.cell, Cell.asVertex?, hr]
    rw [hcons]
    exact .cons ⟨rfl, rfl, rfl⟩ hrest

/-- In a table with a name of its own lie its rows, and no others. -/
theorem forall₂_boxesIn_tableCells {ts : List TableParts} (hids : (ts.map (·.table.id)).Nodup)
    (hts : ∀ t ∈ ts, t.table.container = none ∧ ∀ r ∈ t.rows, r.table = t.table.id)
    (ids : CellIds) :
    ∀ t ∈ ts, List.Forall₂ ShowsRow (boxesIn (tableCells ids ts).1 t.table.id) t.rows := by
  induction ts generalizing ids with
  | nil => nofun
  | cons first rest ih =>
    obtain ⟨hfirst, hnodup⟩ := List.nodup_cons.mp hids
    have hrest : ∀ t ∈ rest, t.table.container = none ∧ ∀ r ∈ t.rows, r.table = t.table.id :=
      fun t ht => hts t (List.mem_cons_of_mem _ ht)
    obtain ⟨htable, hrows⟩ := hts first List.mem_cons_self
    have hsplit : ∀ name, boxesIn (tableCells ids (first :: rest)).1 name =
        boxesIn (((ids.issueAll (first.rows.map Row.name)).1.zip first.rows).map
          fun p => p.2.cell p.1) name ++
        boxesIn (tableCells (ids.issueAll (first.rows.map Row.name)).2 rest).1 name := by
      intro name
      rw [← boxesIn_append]
      exact boxesIn_vertex_of_ne (by rw [htable]; nofun) _
    intro t ht
    rw [hsplit]
    rcases List.mem_cons.mp ht with rfl | ht
    · -- the rows of later tables lie in those
      have hlater : boxesIn (tableCells (ids.issueAll (t.rows.map Row.name)).2 rest).1
          t.table.id = [] := by
        refine boxesIn_eq_nil fun v hv hin => ?_
        obtain ⟨t', ht', heq | ⟨r, hr, id, heq⟩⟩ := (mem_tableCells _ rest).2 _ hv
        · cases heq
          rw [(hrest t' ht').1] at hin
          cases hin
        · cases heq
          have hsame : t'.table.id = t.table.id :=
            ((hrest t' ht').2 r hr).symm.trans (Option.some.inj hin)
          exact hfirst (List.mem_map.mpr ⟨t', ht', hsame⟩)
      rw [hlater, List.append_nil]
      refine forall₂_boxesIn_rows ?_ hrows
      rw [CellIds.length_issueAll, List.length_map]
    · -- the rows of the first table lie in it
      have hearlier : boxesIn (((ids.issueAll (first.rows.map Row.name)).1.zip first.rows).map
          fun p => p.2.cell p.1) t.table.id = [] := by
        refine boxesIn_eq_nil fun v hv hin => ?_
        obtain ⟨p, hp, heq⟩ := List.mem_map.mp hv
        cases heq
        have hsame : first.table.id = t.table.id :=
          (hrows p.2 (List.of_mem_zip hp).2).symm.trans (Option.some.inj hin)
        exact hfirst (List.mem_map.mpr ⟨t, ht, hsame.symm⟩)
      rw [hearlier, List.nil_append]
      exact ih hnodup hrest _ t ht

/-! ### The rows of an entity -/

/-- The texts of the rows. -/
def rowLabels (e : Entity) : List String :=
  if e.attributes = [] then ["(no attributes)"] else e.attributes.map attributeLabel

/-- There is a row for each attribute, and one for a table without attributes. -/
theorem length_rowLabels (e : Entity) : (rowLabels e).length = max 1 e.attributes.length := by
  unfold rowLabels
  split
  · rename_i hnil
    rw [hnil]
    rfl
  · rename_i hne
    have hpos := List.length_pos_iff.mpr hne
    rw [List.length_map]
    omega

/-- The rows are labelled in their order. -/
theorem labels_rows (table : String) (width : Int) (e : Entity) :
    (rows table width e).map Row.label = rowLabels e := by
  unfold rows rowLabels
  split
  · rfl
  · calc (e.attributes.zipIdx.map fun p => (⟨table ++ "_attr" ++ toString p.2, table,
            attributeLabel p.1, rowStyle "left", rowBox width p.2⟩ : Row)).map Row.label
        = (e.attributes.zipIdx.map Prod.fst).map attributeLabel := by
          rw [List.map_map, List.map_map]
          rfl
      _ = e.attributes.map attributeLabel := by rw [List.zipIdx_map_fst]

/-- The rows stand one below the other. -/
theorem boxes_rows (table : String) (width : Int) (e : Entity) :
    (rows table width e).map Row.box =
      (List.range' 0 (max 1 e.attributes.length)).map (rowBox width) := by
  unfold rows
  split
  · rename_i hnil
    rw [hnil]
    rfl
  · rename_i hne
    have hpos := List.length_pos_iff.mpr hne
    have hcount : max 1 e.attributes.length = e.attributes.length := by omega
    calc (e.attributes.zipIdx.map fun p => (⟨table ++ "_attr" ++ toString p.2, table,
            attributeLabel p.1, rowStyle "left", rowBox width p.2⟩ : Row)).map Row.box
        = (e.attributes.zipIdx.map Prod.snd).map (rowBox width) := by
          rw [List.map_map, List.map_map]
          rfl
      _ = _ := by rw [List.zipIdx_map_snd, hcount]

/-- The rows are a stack below the header. -/
theorem stack_rows (table : String) (width : Int) (e : Entity) :
    IsStack width headerHeight (headerHeight + (max 1 e.attributes.length : Nat) * rowHeight)
      ((rows table width e).map Row.box) := by
  have hstack := isStack_rowBox width 0 (max 1 e.attributes.length)
  rw [← boxes_rows table] at hstack
  simpa using hstack

/-- The stack is not higher than the table. -/
theorem bottom_rows_le (attributes : Nat) :
    headerHeight + (max 1 attributes : Nat) * rowHeight ≤ entityHeight attributes := by
  unfold headerHeight rowHeight entityHeight
  omega

/-! ### The page -/

/-- A running maximum is at least its start and at least each value on the way. -/
theorem le_foldl_max {α : Type} (f : α → Int) (start : Int) (xs : List α) :
    start ≤ xs.foldl (fun m x => max m (f x)) start ∧
      ∀ x ∈ xs, f x ≤ xs.foldl (fun m x => max m (f x)) start := by
  induction xs generalizing start with
  | nil => exact ⟨le_rfl, nofun⟩
  | cons x rest ih =>
    obtain ⟨hstart, hrest⟩ := ih (max start (f x))
    refine ⟨le_trans (le_max_left _ _) hstart, fun y hy => ?_⟩
    rcases List.mem_cons.mp hy with rfl | hy
    · exact le_trans (le_max_right _ _) hstart
    · exact hrest y hy

/-- The page has its least size, and reaches beyond all boxes. -/
theorem hasRoom_pageSize (boxes : List Box) (width height : Int) :
    1100 ≤ (pageSize boxes width height).1 ∧ 850 ≤ (pageSize boxes width height).2 ∧
      ∀ b ∈ boxes, b.right + 100 ≤ (pageSize boxes width height).1 ∧
        b.bottom + 100 ≤ (pageSize boxes width height).2 := by
  obtain ⟨hwidth, hright⟩ := le_foldl_max (fun b : Box => b.right + 100) (max 1100 width) boxes
  obtain ⟨hheight, hbottom⟩ := le_foldl_max (fun b : Box => b.bottom + 100) (max 850 height) boxes
  exact ⟨le_trans (le_max_left _ _) hwidth, le_trans (le_max_left _ _) hheight,
    fun b hb => ⟨hright b hb, hbottom b hb⟩⟩

/-! ### Tables -/

/-- The boxes are the rows of an entity's table: one for each attribute, in their order, or one that
says that there are none. They are stacked below the header and end within the table. -/
structure HasRows (e : Entity) (table : Vertex) (rows : List Vertex) : Prop where
  /-- There is one row at least. -/
  length : rows.length = max 1 e.attributes.length
  /-- What the rows say. -/
  labels : rows.map (·.label) = rowLabels e
  /-- Where they lie in the table. -/
  stack : ∃ bottom ≤ table.box.height,
    IsStack table.box.width headerHeight bottom (rows.map (·.box))

/-- Boxes that go together with the rows of an entity are its rows in a table of its height. -/
theorem HasRows.of_rows {e : Entity} {table : Vertex} {boxes : List Vertex}
    (hheight : table.box.height = entityHeight e.attributes.length)
    (h : List.Forall₂ ShowsRow boxes (rows table.id table.box.width e)) :
    HasRows e table boxes := by
  have hlabels : boxes.map (·.label) = (rows table.id table.box.width e).map Row.label := by
    rw [← List.forall₂_eq_eq_eq, List.forall₂_map_left_iff, List.forall₂_map_right_iff]
    exact h.imp fun _ _ hrow => hrow.1
  have hboxes : boxes.map (·.box) = (rows table.id table.box.width e).map Row.box := by
    rw [← List.forall₂_eq_eq_eq, List.forall₂_map_left_iff, List.forall₂_map_right_iff]
    exact h.imp fun _ _ hrow => hrow.2.2
  have hrows := labels_rows table.id table.box.width e
  refine ⟨?_, hlabels.trans hrows, _, ?_, hboxes ▸ stack_rows table.id table.box.width e⟩
  · rw [h.length_eq, ← length_rowLabels, ← hrows, List.length_map]
  · rw [hheight]
    exact bottom_rows_le e.attributes.length

section Entities

variable {es : List Entity} {boxes : Table Box} {cellOf : Table String}

/-- Every entity has a table of its own height, with rows of the table's width. -/
theorem forall₂_tableParts
    (hboxes : ∀ e ∈ es, ∃ x y, boxes.get? e.id = some (entityBox x y e))
    (hcells : ∀ name ∈ es.map Entity.id, cellOf.get? name = some (cellName cellOf name)) :
    List.Forall₂ (fun t e => t.table.id = cellName cellOf e.id ∧ t.table.label = e.label ∧
        t.table.box.height = entityHeight e.attributes.length ∧
        t.rows = rows t.table.id t.table.box.width e ∧ boxes.get? e.id = some t.table.box)
      (es.filterMap (tableParts boxes cellOf)) es := by
  apply forall₂_filterMap
  intro e he
  obtain ⟨x, y, hb⟩ := hboxes e he
  simp only [tableParts, hcells e.id (List.mem_map_of_mem he), hb]
  exact ⟨_, rfl, rfl, rfl, rfl, rfl, rfl⟩

end Entities

end Drawio

/-- The cells of an entity-relationship diagram are those of its tables, and then lines. -/
theorem Drawio.exists_tableCells_append (A : Arithmetic) (boxes : Table Box) (es : List Entity)
    (rs : List (Relationship × Nat)) :
    ∃ cellOf ids lines,
      (∀ name ∈ es.map Entity.id, cellOf.get? name = some (cellName cellOf name)) ∧
        entityCells A boxes es rs =
          (tableCells ids (es.filterMap (tableParts boxes cellOf))).1 ++ lines ∧
        lines.filterMap Cell.asVertex? = [] := by
  obtain ⟨cellOf, ids, lineIds, hcells, -, heq⟩ := exists_entityParts A boxes es rs
  refine ⟨cellOf, ids, _, hcells, heq, filterMap_asVertex?_eq_nil fun c hc => ?_⟩
  obtain ⟨p, -, hp⟩ := List.mem_filterMap.mp hc
  obtain ⟨l, -, -, rfl, -⟩ := relationshipCell_spec hp
  exact ⟨l, rfl⟩

/-- Tables whose cells have distinct names have distinct names themselves. -/
theorem Drawio.nodup_tables {ids : CellIds} {ts : List TableParts}
    (h : ((tableCells ids ts).1.map Cell.id).Nodup) : (ts.map (·.table.id)).Nodup := by
  obtain ⟨rowIds, -, hperm⟩ := names_tableCells ids ts
  exact (List.nodup_append.mp (hperm.nodup_iff.mp h)).1

/-- In the cells of an entity-relationship diagram whose entities have distinct names every entity
has a table with its rows. -/
theorem Drawio.exists_hasRows (A : Arithmetic) {es : List Entity}
    (h : (es.map Entity.id).Nodup) (links : List Connector) (rs : List (Relationship × Nat)) :
    ∃ cellOf : String → String, List.Forall₂ (fun v e => v.id = cellOf e.id ∧ v.label = e.label ∧
        HasRows e v (boxesIn (entityCells A (Layout.entities es links) es rs) v.id) ∧
        (Layout.entities es links).get? e.id = some v.box)
      (pageBoxes (entityCells A (Layout.entities es links) es rs)) es := by
  have hlinked : Linked (entityCells A (Layout.entities es links) es rs) :=
    linked_entityCells h _ _
  obtain ⟨cellOf, ids, lines, hcells, heq, hnone⟩ :=
    exists_tableCells_append A (Layout.entities es links) es rs
  rw [heq] at hlinked ⊢
  have htables := forall₂_tableParts (fun e he => exists_get?_entities h links he) hcells
  have hparts : ∀ t ∈ es.filterMap (tableParts (Layout.entities es links) cellOf),
      t.table.container = none ∧ ∀ r ∈ t.rows, r.table = t.table.id := by
    intro t ht
    obtain ⟨e, -, he⟩ := List.mem_filterMap.mp ht
    exact (tableParts_spec he).2
  generalize es.filterMap (tableParts (Layout.entities es links) cellOf) = ts
    at hlinked htables hparts
  have hnodup := hlinked.nodup
  rw [List.map_append] at hnodup
  have hrows := forall₂_boxesIn_tableCells (nodup_tables (List.nodup_append.mp hnodup).1) hparts ids
  have hpage : pageBoxes ((tableCells ids ts).1 ++ lines) = ts.map (·.table) := by
    rw [pageBoxes_append, (pageBoxes_tableCells (fun t ht => (hparts t ht).1) ids).1, pageBoxes,
      hnone]
    exact List.append_nil _
  have hin : ∀ name, boxesIn ((tableCells ids ts).1 ++ lines) name =
      boxesIn (tableCells ids ts).1 name := by
    intro name
    rw [boxesIn_append, boxesIn, boxesIn, hnone]
    exact List.append_nil _
  refine ⟨cellName cellOf, ?_⟩
  rw [hpage, List.forall₂_map_left_iff]
  refine ((List.forall₂_and_left _ _).mpr ⟨hrows, htables⟩).imp ?_
  rintro t e ⟨hshown, hid, hlabel, hheight, hrowsOf, hbox⟩
  refine ⟨hid, hlabel, ?_, hbox⟩
  rw [hin]
  exact HasRows.of_rows hheight (hrowsOf ▸ hshown)

/-! ### Rows in a document -/

/-- The cells of a document that lie in the cell of a name. -/
def Drawio.Document.cellsIn (doc : Document) (name : String) : List Xml :=
  doc.toXml.cells.filter fun x => x.attribute? "parent" = some name

/-- What stands in a box is written under the name of the box. -/
theorem Drawio.parent_vertex_iff {v : Vertex} {name : String} (h : layer ≠ name) :
    v.toXml.attribute? "parent" = some name ↔ v.container = some name := by
  have hparent : v.toXml.attribute? "parent" = some (v.container.getD layer) := rfl
  rw [hparent]
  cases v.container with
  | none => simp [h]
  | some c => simp

/-- In a box of the page lie the same cells in the written document. -/
theorem Drawio.cellsIn_eq {doc : Document} {name : String} (h : name ∉ CellIds.issued {}) :
    doc.cellsIn name = (boxesIn doc.cells name).map Vertex.toXml := by
  have hlayer : layer ≠ name := by
    rintro rfl
    exact h (by decide)
  have hroot : "0" ≠ name := by
    rintro rfl
    exact h (by decide)
  have hbase : baseCells.filter (fun x => x.attribute? "parent" = some name) = [] := by
    rw [List.filter_eq_nil_iff]
    intro x hx
    have hparent : x.attribute? "parent" = none ∨ x.attribute? "parent" = some "0" := by
      rcases List.mem_cons.mp hx with rfl | hx
      · exact .inl rfl
      · exact .inr (List.mem_singleton.mp hx ▸ rfl)
    rcases hparent with hparent | hparent <;> simp [hparent, hroot]
  rw [Document.cellsIn, cells_toXml, List.filter_append, hbase, List.nil_append, boxesIn]
  induction doc.cells with
  | nil => rfl
  | cons c rest ih =>
    cases c with
    | vertex v =>
      have hparent := parent_vertex_iff (v := v) hlayer
      by_cases hin : v.container = some name
      · simp [Cell.toXml, Cell.asVertex?, hparent, hin, ih]
      · simp [Cell.toXml, Cell.asVertex?, hparent, hin, ih]
    | line l =>
      have hparent : l.toXml.attribute? "parent" = some layer := rfl
      rw [List.filterMap_cons_none rfl, ← ih]
      simp [Cell.toXml, hparent, hlayer]

/-- The element is a cell in another one with a text, drawn as a box at its left edge. Numbers from
`2 ^ 53` on may be rounded in its geometry. -/
structure Xml.IsRowAt (x : Xml) (table label : String) (b : Box) : Prop where
  /-- The cell in which it lies. -/
  parent : x.attribute? "parent" = some table
  /-- The text in it. -/
  label : x.attribute? "value" = some label
  /-- It is drawn as a box. -/
  vertex : x.attribute? "vertex" = some "1"
  /-- The geometry is all that it holds. -/
  geometry : ∃ g, x.children = [g] ∧ g.name = "mxGeometry" ∧ g.attribute? "x" = none ∧
    ∀ p ∈ [("y", b.y), ("width", b.width), ("height", b.height)],
      p.2.natAbs < 2 ^ 53 → g.attribute? p.1 = some (toString p.2)

/-- A row is written at its place in the table. -/
theorem Drawio.isRowAt_toXml {v : Vertex} {table : String} (h : v.container = some table) :
    v.toXml.IsRowAt table v.label v.box where
  parent := by
    show some (v.container.getD layer) = some table
    rw [h, Option.getD_some]
  label := rfl
  vertex := rfl
  geometry := by
    have hgeometry : v.geometry = .tag "mxGeometry"
        [("y", coordinateText v.box.y), ("width", coordinateText v.box.width),
          ("height", coordinateText v.box.height), ("as", "geometry")] [] := by
      rw [Vertex.geometry, if_neg (by simp [h])]
      rfl
    refine ⟨v.geometry, rfl, rfl, hgeometry ▸ rfl, fun p hp hsmall => ?_⟩
    have hnumber : v.geometry.attribute? p.1 = some (coordinateText p.2) := by
      rw [hgeometry]
      simp only [List.mem_cons, List.not_mem_nil, or_false] at hp
      rcases hp with rfl | rfl | rfl <;> rfl
    rw [hnumber, coordinateText_intCast hsmall]

/-- The element holds one diagram, on a page of the given size. -/
def Xml.HasPage (x : Xml) (width height : Int) : Prop :=
  ∃ diagram page, x.children = [diagram] ∧ diagram.children = [page] ∧
    page.attribute? "pageWidth" = some (toString width) ∧
    page.attribute? "pageHeight" = some (toString height)

/-- The page is written with its size. -/
theorem Drawio.Document.hasPage_toXml (doc : Document) : doc.toXml.HasPage doc.width doc.height :=
  ⟨_, _, rfl, rfl, rfl, rfl⟩

/-! ### The main statement -/

/-- The tables are entities, and what links two of them is a relationship. -/
structure Diagram.IsTabular (d : Diagram) : Prop where
  /-- The tables are entities. -/
  tables : ∀ t ∈ d.tables, ∃ e, t = .entity e
  /-- What links them are relationships. -/
  links : ∀ c ∈ d.links, c.source ∈ d.tables.map Element.id → c.target ∈ d.tables.map Element.id →
    ∃ r, c = .relationship r

/-- An entity-relationship diagram with distinct tables has a plan exactly when these are entities
and the links between them are relationships. -/
theorem Diagram.exists_tablePlan_iff {d : Diagram} (h : (d.tables.map Element.id).Nodup) :
    (∃ plan, d.tablePlan = .ok plan) ↔ d.IsTabular := by
  have hnames : ∀ {es : List Entity}, d.tables = es.map .entity →
      ∀ name, (Layout.entities es d.links).contains name = true ↔
        name ∈ d.tables.map Element.id := by
    intro es hes name
    rw [hes, List.map_map] at h ⊢
    rw [Table.contains_iff]
    exact (names_entities h d.links).mem_iff
  constructor
  · rintro ⟨plan, hplan⟩
    obtain ⟨rs, htables, hboxes, hrs, -⟩ := tablePlan_eq_ok.mp hplan
    refine ⟨fun t ht => ?_, fun c hc hs ht => ?_⟩
    · rw [htables] at ht
      obtain ⟨e, -, rfl⟩ := List.mem_map.mp ht
      exact ⟨e, rfl⟩
    · obtain ⟨i, hi⟩ := List.mem_iff_getElem?.mp hc
      have hdrawn : (c, i) ∈ drawnLinks plan.boxes d.links := by
        refine List.mem_filter.mpr ⟨List.mem_zipIdx_iff_getElem?.mpr hi, ?_⟩
        rw [hboxes, (hnames htables _).mpr hs, (hnames htables _).mpr ht]
        rfl
      have hmem := List.mem_map_of_mem (f := (·.1)) hdrawn
      rw [hrs] at hmem
      obtain ⟨r, -, hr⟩ := List.mem_map.mp hmem
      exact ⟨r, hr.symm⟩
  · intro htabular
    obtain ⟨es, hes⟩ := exists_map_eq htabular.tables
    obtain ⟨rs, hrs⟩ : ∃ rs : List Relationship,
        (drawnLinks (Layout.entities es d.links) d.links).map (·.1) = rs.map .relationship := by
      apply exists_map_eq
      intro c hc
      obtain ⟨l, hl, rfl⟩ := List.mem_map.mp hc
      obtain ⟨hmem, hends⟩ := List.mem_filter.mp hl
      rw [Bool.and_eq_true, hnames hes, hnames hes] at hends
      exact htabular.links l.1 (List.fst_mem_of_mem_zipIdx hmem) hends.1 hends.2
    exact ⟨_, tablePlan_of_entities hes hrs⟩

/-- **Main statement.** For an entity-relationship diagram whose tables have distinct names a
document is drawn exactly when its tables are entities and the links between them are relationships.
In every document every entity has a table; in the table lie the rows of its attributes, one by one
in their order, or a row that says that there are none; and these are stacked below the header and
end within the table. The page is not smaller than usual and reaches beyond all tables. -/
theorem toDrawio_hasRows (A : Arithmetic) (title : Option String) (stamp : Stamp) (d : Diagram)
    (hkind : d.kind = Dialect.entityRelationship) (h : (d.tables.map Element.id).Nodup) :
    ((∃ doc, d.toDrawio A title stamp = .ok doc) ↔ d.IsTabular) ∧
    ∀ doc, d.toDrawio A title stamp = .ok doc →
      (∃ (es : List Entity) (cellOf : String → String), d.tables = es.map .entity ∧
        List.Forall₂ (fun v e => v.id = cellOf e.id ∧ v.label = e.label ∧
          HasRows e v (boxesIn doc.cells v.id)) (pageBoxes doc.cells) es) ∧
      (∀ v ∈ pageBoxes doc.cells, doc.cellsIn v.id = (boxesIn doc.cells v.id).map Vertex.toXml ∧
        ∀ r ∈ boxesIn doc.cells v.id, r.toXml.IsRowAt v.id r.label r.box) ∧
      doc.toXml.HasPage doc.width doc.height ∧ 1100 ≤ doc.width ∧ 850 ≤ doc.height ∧
      ∀ v ∈ pageBoxes doc.cells, v.box.right + 100 ≤ doc.width ∧
        v.box.bottom + 100 ≤ doc.height := by
  constructor
  · rw [← Diagram.exists_tablePlan_iff h]
    constructor
    · rintro ⟨doc, hdoc⟩
      obtain ⟨plan, hplan, -⟩ := (Diagram.toDrawio_eq_ok_of_entities hkind).mp hdoc
      exact ⟨plan, hplan⟩
    · rintro ⟨plan, hplan⟩
      exact ⟨_, (Diagram.toDrawio_eq_ok_of_entities hkind).mpr ⟨plan, hplan, rfl⟩⟩
  intro doc hdoc
  obtain ⟨plan, hplan, rfl⟩ := (Diagram.toDrawio_eq_ok_of_entities hkind).mp hdoc
  obtain ⟨rs, htables, hboxes, -, -⟩ := Diagram.tablePlan_eq_ok.mp hplan
  have hnodup : (plan.entities.map Entity.id).Nodup := by
    rwa [htables, List.map_map] at h
  obtain ⟨cellOf, hrows⟩ := exists_hasRows A hnodup d.links plan.relationships
  have hlinked : Linked (plan.cells A) := linked_entityCells hnodup _ _
  rw [← hboxes] at hrows
  obtain ⟨hwidth, hheight, hroom⟩ := hasRoom_pageSize plan.boxes.values 850 600
  refine ⟨⟨plan.entities, cellOf, htables, ?_⟩, ?_, Document.hasPage_toXml _, hwidth, hheight, ?_⟩
  · exact hrows.imp fun v e ⟨hid, hlabel, hrows, _⟩ => ⟨hid, hlabel, hrows⟩
  · intro v hv
    refine ⟨cellsIn_eq (hlinked.fresh _ (mem_pageBoxes.mp hv).1), fun r hr => ?_⟩
    exact isRowAt_toXml (of_decide_eq_true (List.mem_filter.mp hr).2)
  · intro v hv
    obtain ⟨e, -, -, -, -, hbox⟩ := exists_of_mem_left hrows hv
    exact hroom v.box (List.mem_map_of_mem (Table.mem_of_get? hbox))

/-- An entity with two attributes and one without, listed as nodes alone, and a relationship to
something else. -/
def shelf : Diagram where
  kind := Dialect.entityRelationship
  direction := none
  nodes :=
    [.entity ⟨"book", "Book",
      [⟨"int", "id", [Key.primary], ""⟩, ⟨"string", "title", [], "as printed"⟩]⟩,
     .entity ⟨"shelf", "Shelf", []⟩]
  relationships := [{ id := "r1", source := "shelf", target := "room" }]

/-- The shelf is drawn, with the rows of its two tables. -/
theorem toDrawio_hasRows_shelf :
    shelf.kind = Dialect.entityRelationship ∧ (shelf.tables.map Element.id).Nodup ∧
      shelf.IsTabular ∧ ∃ doc : Document,
        shelf.toDrawio .binary64 none { moment := ⟨2024, 1, 2, 3, 4, 5, 678901⟩ } = .ok doc ∧
        (∃ (es : List Entity) (cellOf : String → String), shelf.tables = es.map .entity ∧
          List.Forall₂ (fun v e => v.id = cellOf e.id ∧ v.label = e.label ∧
            HasRows e v (boxesIn doc.cells v.id)) (pageBoxes doc.cells) es) ∧
        doc.toXml.HasPage doc.width doc.height ∧ 1100 ≤ doc.width ∧ 850 ≤ doc.height := by
  have hnodup : (shelf.tables.map Element.id).Nodup := by decide
  have htabular : shelf.IsTabular := by
    refine ⟨fun t ht => ?_, fun c hc _ _ => ?_⟩
    · rw [show shelf.tables = shelf.nodes from rfl] at ht
      simp only [shelf, List.mem_cons, List.not_mem_nil, or_false] at ht
      rcases ht with rfl | rfl <;> exact ⟨_, rfl⟩
    · obtain ⟨r, -, rfl⟩ := List.mem_map.mp (show c ∈ shelf.relationships.map .relationship from hc)
      exact ⟨r, rfl⟩
  obtain ⟨hdrawn, hshown⟩ :=
    toDrawio_hasRows .binary64 none { moment := ⟨2024, 1, 2, 3, 4, 5, 678901⟩ } shelf rfl hnodup
  obtain ⟨doc, hdoc⟩ := hdrawn.mpr htabular
  obtain ⟨htables, -, hpage, hwidth, hheight, -⟩ := hshown doc hdoc
  exact ⟨rfl, hnodup, htabular, doc, hdoc, htables, hpage, hwidth, hheight⟩

end Diagrams
