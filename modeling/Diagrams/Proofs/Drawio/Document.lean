import Diagrams.Proofs.Drawio.Range

/-!
# Documents without dangling references

**Main statement** (`toDrawio_hasOwnLinks`): in the document that is drawn for a diagram whose parts
have distinct names, no two cells share a name, and every cell that another one refers to is there
(`Xml.HasOwnLinks`). Whatever text is read, such a document is drawn for it.

The cells of a document are the two that every page has and those of the diagram
(`cells_toXml`), which are linked among themselves (`Diagram.linked_cells`).
-/

namespace Diagrams

/-! ### Cells in a document -/

namespace Xml

/-- What the attribute holds, as it is meant. -/
def Value.content : Value → String
  | text s => s
  | verbatim s => s

/-- The content of an attribute. -/
def attribute? (x : Xml) (name : String) : Option String :=
  (x.attributes.lookup name).map Value.content

mutual

/-- All elements of a name, in their order. -/
def named (name : String) : Xml → List Xml
  | element n attributes children =>
    if n = name then element n attributes children :: namedIn name children
    else namedIn name children

/-- All elements of a name among some elements and in them. -/
def namedIn (name : String) : List Xml → List Xml
  | [] => []
  | x :: rest => named name x ++ namedIn name rest

end

/-- Elements of a name are found in each of two lists. -/
theorem namedIn_append (name : String) (xs ys : List Xml) :
    namedIn name (xs ++ ys) = namedIn name xs ++ namedIn name ys := by
  induction xs with
  | nil => rfl
  | cons x rest ih => rw [List.cons_append, namedIn, namedIn, ih, List.append_assoc]

/-- Elements that hold no others of the name stand for themselves. -/
theorem namedIn_map {α : Type} {name : String} {f : α → Xml} (h : ∀ a, named name (f a) = [f a])
    (as : List α) : namedIn name (as.map f) = as.map f := by
  induction as with
  | nil => rfl
  | cons a rest ih => rw [List.map_cons, namedIn, h, ih, List.singleton_append]

/-- Elements in which nothing has the name. -/
theorem namedIn_eq_nil {name : String} {xs : List Xml} (h : ∀ x ∈ xs, named name x = []) :
    namedIn name xs = [] := by
  induction xs with
  | nil => rfl
  | cons x rest ih =>
    rw [namedIn, h x List.mem_cons_self, ih fun y hy => h y (List.mem_cons_of_mem x hy)]
    rfl

/-- The cells of a document. -/
def cells (x : Xml) : List Xml := x.named "mxCell"

/-- The cells have names of their own, among them the two reserved ones, and what they name as the
cell in which they lie or the cells that they join are cells as well; only boxes are joined. -/
structure HasOwnLinks (x : Xml) : Prop where
  /-- Every cell has a name. -/
  named : ∀ c ∈ x.cells, ∃ id, c.attribute? "id" = some id
  /-- The names are distinct. -/
  nodup : (x.cells.map (attribute? · "id")).Nodup
  /-- The root and the layer are there. -/
  reserved : ∀ id ∈ ["0", "1"], ∃ c ∈ x.cells, c.attribute? "id" = some id
  /-- A cell lies in a cell. -/
  parent : ∀ c ∈ x.cells, ∀ id ∈ c.attribute? "parent",
    ∃ d ∈ x.cells, d.attribute? "id" = some id
  /-- What a cell joins are boxes. -/
  ends : ∀ c ∈ x.cells, ∀ role ∈ ["source", "target"], ∀ id ∈ c.attribute? role,
    ∃ d ∈ x.cells, d.attribute? "id" = some id ∧ d.attribute? "vertex" = some "1"

end Xml

namespace Drawio

open Xml

/-! ### The document of linked cells -/

/-- An element of another name is none of those looked for. -/
theorem named_tag_of_ne {name n : String} {attributes : List (String × String)}
    {children : List Xml} (h : n ≠ name) :
    named name (.tag n attributes children) = namedIn name children := by
  rw [Xml.tag, named, if_neg h]

/-- There are no cells in a point. -/
theorem named_point (p : Point) (role : Option String) : named "mxCell" (p.toXml role) = [] := by
  rw [Point.toXml, named_tag_of_ne (by decide)]
  rfl

/-- A cell holds no other cells. -/
theorem named_cell (c : Cell) : named "mxCell" c.toXml = [c.toXml] := by
  have hcell : ∀ attributes (x : Xml), named "mxCell" x = [] →
      named "mxCell" (.tag "mxCell" attributes [x]) = [.tag "mxCell" attributes [x]] := by
    intro attributes x hx
    rw [Xml.tag, named, if_pos rfl, namedIn, hx]
    rfl
  cases c with
  | vertex v =>
    refine hcell _ _ ?_
    rw [Vertex.geometry, named_tag_of_ne (by decide)]
    rfl
  | line l =>
    refine hcell _ _ ?_
    rw [Line.geometry, named_tag_of_ne (by decide)]
    refine namedIn_eq_nil fun x hx => ?_
    rcases List.mem_append.mp hx with hx | hx
    · rcases List.mem_append.mp hx with hx | hx
      · split at hx
        · exact absurd hx List.not_mem_nil
        · rw [List.mem_singleton.mp hx, named_tag_of_ne (by decide)]
          refine namedIn_eq_nil fun y hy => ?_
          obtain ⟨p, _, rfl⟩ := List.mem_map.mp hy
          exact named_point p none
      · cases hends : l.ends with
        | cells s t =>
          rw [hends] at hx
          exact absurd hx List.not_mem_nil
        | points s t =>
          rw [hends] at hx
          rcases List.mem_cons.mp hx with rfl | hx
          · exact named_point _ _
          · rw [List.mem_singleton.mp hx]
            exact named_point _ _
    · obtain ⟨p, _, rfl⟩ := List.mem_map.mp hx
      exact named_point _ _

/-- The cells of a document are the two that every page has and those that are drawn. -/
theorem cells_toXml (doc : Document) : doc.toXml.cells = baseCells ++ doc.cells.map Cell.toXml := by
  have hroot : namedIn "mxCell" (baseCells ++ doc.cells.map Cell.toXml) =
      baseCells ++ doc.cells.map Cell.toXml := by
    rw [namedIn_append, namedIn_map named_cell]
    rfl
  have hroot' : namedIn "mxCell" [.tag "root" [] (baseCells ++ doc.cells.map Cell.toXml)] =
      baseCells ++ doc.cells.map Cell.toXml := by
    rw [namedIn, named_tag_of_ne (by decide), hroot, namedIn, List.append_nil]
  rw [Xml.cells, Document.toXml, named_tag_of_ne (by decide), namedIn, namedIn, List.append_nil,
    named, if_neg (by decide), namedIn, namedIn, List.append_nil, named_tag_of_ne (by decide),
    hroot']

/-- A cell is written under its name. -/
theorem id_toXml (c : Cell) : c.toXml.attribute? "id" = some c.id := by
  cases c <;> rfl

/-- A box of the page is marked as one. -/
theorem IsBox.exists_toXml {doc : Document} {name : String} (h : IsBox doc.cells name) :
    ∃ d ∈ doc.toXml.cells, d.attribute? "id" = some name ∧ d.attribute? "vertex" = some "1" := by
  obtain ⟨v, hv, rfl⟩ := h
  refine ⟨(Cell.vertex v).toXml, ?_, rfl, rfl⟩
  rw [cells_toXml]
  exact List.mem_append_right _ (List.mem_map_of_mem hv)

/-- The cells in which a cell lies: the layer, or a box. -/
theorem parent_toXml {c : Cell} {id : String} (h : id ∈ c.toXml.attribute? "parent") :
    id = layer ∨ ∃ v, c = .vertex v ∧ id ∈ v.container := by
  cases c with
  | vertex v =>
    obtain rfl : v.container.getD layer = id := Option.some.inj h
    cases hc : v.container with
    | none => exact .inl rfl
    | some name => exact .inr ⟨v, rfl, hc⟩
  | line l => exact .inl (Option.some.inj h).symm

/-- Only a line joins cells. -/
theorem ends_toXml {c : Cell} {role id : String} (hrole : role ∈ ["source", "target"])
    (h : id ∈ c.toXml.attribute? role) :
    ∃ l source target, c = .line l ∧ l.ends = .cells source target ∧
      (id = source ∨ id = target) := by
  cases c with
  | vertex v =>
    rcases List.mem_cons.mp hrole with rfl | hrole
    · cases h
    · obtain rfl := List.mem_singleton.mp hrole
      cases h
  | line l =>
    cases hends : l.ends with
    | points s t =>
      have hnone : (Cell.line l).toXml.attribute? role = none := by
        rw [Cell.toXml, Line.toXml, hends]
        rcases List.mem_cons.mp hrole with rfl | hrole
        · rfl
        · obtain rfl := List.mem_singleton.mp hrole
          rfl
      rw [hnone] at h
      cases h
    | cells s t =>
      refine ⟨l, s, t, rfl, hends, ?_⟩
      rw [Cell.toXml, Line.toXml, hends] at h
      rcases List.mem_cons.mp hrole with rfl | hrole
      · exact .inl (Option.some.inj h).symm
      · obtain rfl := List.mem_singleton.mp hrole
        exact .inr (Option.some.inj h).symm

/-- A cell of a document is the root, the layer or one that is drawn. -/
theorem mem_cells_toXml {doc : Document} {x : Xml} :
    x ∈ doc.toXml.cells ↔ x = .tag "mxCell" [("id", "0")] [] ∨
      x = .tag "mxCell" [("id", layer), ("parent", "0")] [] ∨ ∃ c ∈ doc.cells, c.toXml = x := by
  rw [cells_toXml, baseCells, List.mem_append, List.mem_cons, List.mem_singleton, List.mem_map,
    or_assoc]

/-- The document of linked cells has no dangling references. -/
theorem hasOwnLinks_of_linked {doc : Document} (h : Linked doc.cells) :
    doc.toXml.HasOwnLinks where
  named := by
    intro x hx
    obtain rfl | rfl | ⟨c, _, rfl⟩ := mem_cells_toXml.mp hx
    · exact ⟨"0", rfl⟩
    · exact ⟨layer, rfl⟩
    · exact ⟨c.id, id_toXml c⟩
  nodup := by
    have hdrawn : (doc.cells.map Cell.toXml).map (attribute? · "id") =
        (doc.cells.map Cell.id).map some := by
      rw [List.map_map, List.map_map]
      exact List.map_congr_left fun c _ => id_toXml c
    have hbase : baseCells.map (attribute? · "id") = (CellIds.issued {}).map some := rfl
    rw [cells_toXml, List.map_append, hdrawn, hbase, ← List.map_append]
    refine List.Nodup.map (fun _ _ => Option.some.inj)
      (List.nodup_append.mpr ⟨by decide, h.nodup, ?_⟩)
    rintro id hid id' hid' rfl
    obtain ⟨c, hc, rfl⟩ := List.mem_map.mp hid'
    exact h.fresh c hc hid
  reserved := by
    intro id hid
    rcases List.mem_cons.mp hid with rfl | hid
    · exact ⟨_, mem_cells_toXml.mpr (.inl rfl), rfl⟩
    · obtain rfl := List.mem_singleton.mp hid
      exact ⟨_, mem_cells_toXml.mpr (.inr (.inl rfl)), rfl⟩
  parent := by
    intro x hx id hid
    obtain rfl | rfl | ⟨c, hc, rfl⟩ := mem_cells_toXml.mp hx
    · cases hid
    · obtain rfl : "0" = id := Option.some.inj hid
      exact ⟨_, mem_cells_toXml.mpr (.inl rfl), rfl⟩
    · rcases parent_toXml hid with rfl | ⟨v, rfl, hv⟩
      · exact ⟨_, mem_cells_toXml.mpr (.inr (.inl rfl)), rfl⟩
      · obtain ⟨d, hd, hdid, _⟩ := (h.container v hc id hv).exists_toXml
        exact ⟨d, hd, hdid⟩
  ends := by
    intro x hx role hrole id hid
    obtain rfl | rfl | ⟨c, hc, rfl⟩ := mem_cells_toXml.mp hx
    · rcases List.mem_cons.mp hrole with rfl | hrole
      · cases hid
      · obtain rfl := List.mem_singleton.mp hrole
        cases hid
    · rcases List.mem_cons.mp hrole with rfl | hrole
      · cases hid
      · obtain rfl := List.mem_singleton.mp hrole
        cases hid
    · obtain ⟨l, source, target, rfl, hends, heq⟩ := ends_toXml hrole hid
      obtain ⟨hsource, htarget⟩ := h.ends l hc source target hends
      rcases heq with rfl | rfl
      · exact hsource.exists_toXml
      · exact htarget.exists_toXml

end Drawio

open Drawio

/-- The parts of a sound diagram that get boxes have distinct names. -/
theorem Diagram.IsSound.nodup_drawnNames {d : Diagram} (h : d.IsSound) : d.drawnNames.Nodup := by
  have hnodup := h.nodup_names
  unfold Diagram.drawnNames
  split
  · rename_i hkind
    rw [h.names_of_sequence hkind] at hnodup
    rwa [h.parties_eq hkind, List.map_map]
  · rename_i hkind
    rw [h.names_of_entities hkind] at hnodup
    rwa [h.tables_eq hkind, List.map_map]
  · exact hnodup
  · exact hnodup
  · exact hnodup

/-! ### No dangling references -/

/-- A document that is drawn for a diagram whose parts have distinct names has cells with distinct
names, and what cells refer to is there. Such a document is drawn for every text that can be read,
unless it is a flowchart that is too wide. -/
theorem toDrawio_hasOwnLinks (A : Number.Arithmetic) (title : Option String) (stamp : Stamp) :
    (∀ (d : Diagram) (doc : Document), d.drawnNames.Nodup → d.toDrawio A title stamp = .ok doc →
      doc.toXml.HasOwnLinks) ∧
    ∀ code d, Diagram.parse code = .ok d →
      d.DrawnOrWide A title stamp fun doc => doc.toXml.HasOwnLinks := by
  have hlinks : ∀ (d : Diagram) (doc : Document), d.drawnNames.Nodup →
      d.toDrawio A title stamp = .ok doc → doc.toXml.HasOwnLinks :=
    fun d doc hnames h => hasOwnLinks_of_linked (Diagram.linked_cells hnames h)
  refine ⟨hlinks, fun code d h => ?_⟩
  have hnames := (isSound_of_parse code d h).nodup_drawnNames
  exact (Diagram.drawnOrWide_of_parse A h title stamp).imp fun doc hdoc _ => hlinks d doc hnames hdoc

/-- Nodes with names that a document reserves or makes up itself. -/
def clashing : Diagram where
  nodes := [.node (.plain "0"), .node (.plain "1"), .node (.plain "0_1"), .node (.plain "sg0"),
    .node (.plain "e1")]
  edges := [.edge { id := "e1", source := "0", target := "1" }]
  groups := [⟨"g", "g", ["0", "sg0"]⟩]

/-- Nodes with such names get cells of their own, to which all references lead. -/
theorem toDrawio_hasOwnLinks_clashing :
    ∃ doc, clashing.toDrawio .exact none { moment := ⟨2024, 1, 2, 3, 4, 5, 678901⟩ } = .ok doc ∧
      doc.toXml.HasOwnLinks := by
  obtain ⟨doc, hdoc, -⟩ := (Diagram.drawnOrWide_flowchart .exact (d := clashing) rfl
    [.plain "0", .plain "1", .plain "0_1", .plain "sg0", .plain "e1"] rfl
    [{ id := "e1", source := "0", target := "1" }] rfl none _).exact
  exact ⟨doc, hdoc, (toDrawio_hasOwnLinks .exact none _).1 clashing doc (by decide) hdoc⟩

end Diagrams
