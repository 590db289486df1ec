import Diagrams.Proofs.Drawio.Links

/-!
# What a page shows

The cells of a page are seen in two ways: the boxes that lie on the page itself (`pageBoxes`), and
the lines (`pageLines`). A page is compared with the parts of a diagram by `List.Forall₂`, which
says that cells and parts go together one by one in their order.

* `showsAll_vertices`, `showsAll_lines` — the views of cells that all are boxes, or all are lines.
* `forall₂_filterMap`, `forall₂_filterMap_zip` — when a cell is drawn for every part, cells and
  parts go together.
* `firstEdges` — the first edge of every pair of ends; these are the edges that are drawn
  (`drawnEdges_eq_firstEdges`).
-/

namespace Diagrams

namespace Drawio

/-! ### Views -/

/-- The boxes that lie on the page itself. -/
def pageBoxes (cells : List Cell) : List Vertex :=
  (cells.filterMap Cell.asVertex?).filter fun v => v.container = none

/-- The lines. -/
def pageLines (cells : List Cell) : List Line := cells.filterMap Cell.asLine?

/-- The boxes of the page are found in each of two lists. -/
@[simp] theorem pageBoxes_append (cells cells' : List Cell) :
    pageBoxes (cells ++ cells') = pageBoxes cells ++ pageBoxes cells' := by
  simp [pageBoxes]

/-- The lines of the page are found in each of two lists. -/
@[simp] theorem pageLines_append (cells cells' : List Cell) :
    pageLines (cells ++ cells') = pageLines cells ++ pageLines cells' := by
  simp [pageLines]

/-- The boxes among the cells. -/
theorem mem_filterMap_asVertex? {cells : List Cell} {v : Vertex} :
    v ∈ cells.filterMap Cell.asVertex? ↔ .vertex v ∈ cells := by
  rw [List.mem_filterMap]
  constructor
  · rintro ⟨c, hc, hv⟩
    cases c with
    | vertex w =>
      cases hv
      exact hc
    | line l => cases hv
  · exact fun hv => ⟨_, hv, rfl⟩

/-- The boxes of the page are those that stand in no other box. -/
theorem mem_pageBoxes {cells : List Cell} {v : Vertex} :
    v ∈ pageBoxes cells ↔ .vertex v ∈ cells ∧ v.container = none := by
  rw [pageBoxes, List.mem_filter, mem_filterMap_asVertex?, decide_eq_true_iff]

/-- Lines are no boxes. -/
theorem filterMap_asVertex?_eq_nil {cells : List Cell} (h : ∀ c ∈ cells, ∃ l, c = .line l) :
    cells.filterMap Cell.asVertex? = [] := by
  rw [List.filterMap_eq_nil_iff]
  intro c hc
  obtain ⟨l, rfl⟩ := h c hc
  rfl

/-- Among lines there is no box. -/
theorem pageBoxes_eq_nil {cells : List Cell} (h : ∀ c ∈ cells, ∃ l, c = .line l) :
    pageBoxes cells = [] := by
  rw [pageBoxes, filterMap_asVertex?_eq_nil h]
  rfl

/-- The boxes of a page are among its cells, in their order. -/
theorem sublist_pageBoxes (cells : List Cell) :
    ((pageBoxes cells).map Cell.vertex).Sublist cells := by
  induction cells with
  | nil => exact .slnil
  | cons c rest ih =>
    cases c with
    | line l => exact ih.cons _
    | vertex v =>
      by_cases hv : v.container = none
      · have hboxes : pageBoxes (.vertex v :: rest) = v :: pageBoxes rest := by
          simp [pageBoxes, Cell.asVertex?, hv]
        rw [hboxes]
        exact ih.cons_cons _
      · have hboxes : pageBoxes (.vertex v :: rest) = pageBoxes rest := by
          simp [pageBoxes, Cell.asVertex?, hv]
        rw [hboxes]
        exact ih.cons _

/-- No box lies in another one. -/
def IsFlat (cells : List Cell) : Prop := ∀ v, Cell.vertex v ∈ cells → v.container = none

variable {α β : Type} {cells cells' : List Cell} {xs : List α}

/-- Two lists are flat when each of them is. -/
theorem IsFlat.append (h : IsFlat cells) (h' : IsFlat cells') : IsFlat (cells ++ cells') := by
  intro v hv
  rcases List.mem_append.mp hv with hv | hv
  · exact h v hv
  · exact h' v hv

/-- Cells that are boxes of the page go together with what they show, and hold no lines. -/
theorem showsAll_vertices {R : Vertex → α → Prop}
    (h : List.Forall₂ (fun c a => ∃ v, c = .vertex v ∧ v.container = none ∧ R v a) cells xs) :
    List.Forall₂ R (pageBoxes cells) xs ∧ pageLines cells = [] ∧ IsFlat cells := by
  induction h with
  | nil => exact ⟨.nil, rfl, by simp [IsFlat]⟩
  | cons hc _ ih =>
    obtain ⟨v, rfl, hv, hR⟩ := hc
    have hboxes : ∀ cells, pageBoxes (.vertex v :: cells) = v :: pageBoxes cells := by
      intro cells
      simp [pageBoxes, Cell.asVertex?, hv]
    refine ⟨?_, ih.2.1, ?_⟩
    · rw [hboxes]
      exact .cons hR ih.1
    · intro w hw
      rcases List.mem_cons.mp hw with heq | hw
      · cases heq
        exact hv
      · exact ih.2.2 w hw

/-- Cells that are lines go together with what they show, and hold no boxes. -/
theorem showsAll_lines {R : Line → α → Prop}
    (h : List.Forall₂ (fun c a => ∃ l, c = .line l ∧ R l a) cells xs) :
    List.Forall₂ R (pageLines cells) xs ∧ pageBoxes cells = [] ∧ IsFlat cells := by
  induction h with
  | nil => exact ⟨.nil, rfl, by simp [IsFlat]⟩
  | cons hc _ ih =>
    obtain ⟨l, rfl, hR⟩ := hc
    refine ⟨.cons hR ih.1, ih.2.1, ?_⟩
    intro w hw
    rcases List.mem_cons.mp hw with heq | hw
    · cases heq
    · exact ih.2.2 w hw

/-! ### Parts and cells -/

/-- What is drawn for every part goes together with the parts. -/
theorem forall₂_filterMap {draw : α → Option β} {R : β → α → Prop}
    (h : ∀ a ∈ xs, ∃ b, draw a = some b ∧ R b a) : List.Forall₂ R (xs.filterMap draw) xs := by
  induction xs with
  | nil => exact .nil
  | cons a rest ih =>
    obtain ⟨b, hb, hR⟩ := h a List.mem_cons_self
    rw [List.filterMap_cons_some hb]
    exact .cons hR (ih fun a ha => h a (List.mem_cons_of_mem _ ha))

/-- The same when every part comes with the name of its cell. -/
theorem forall₂_filterMap_zip {ids : List String} {draw : String × α → Option β}
    {R : β → α → Prop} (hlength : ids.length = xs.length)
    (h : ∀ id, ∀ a ∈ xs, ∃ b, draw (id, a) = some b ∧ R b a) :
    List.Forall₂ R ((ids.zip xs).filterMap draw) xs := by
  induction xs generalizing ids with
  | nil => simp
  | cons a rest ih =>
    obtain ⟨id, ids, rfl⟩ := List.exists_cons_of_length_eq_add_one hlength
    obtain ⟨b, hb, hR⟩ := h id a List.mem_cons_self
    simp only [List.zip_cons_cons, List.filterMap_cons, hb]
    exact .cons hR (ih (Nat.succ.inj hlength) fun id a ha => h id a (List.mem_cons_of_mem _ ha))

/-- With what a cell goes together. -/
theorem exists_of_mem_left {R : β → α → Prop} {bs : List β} (h : List.Forall₂ R bs xs) {b : β}
    (hb : b ∈ bs) : ∃ a ∈ xs, R b a := by
  induction h with
  | nil => cases hb
  | cons hR _ ih =>
    rcases List.mem_cons.mp hb with rfl | hb
    · exact ⟨_, List.mem_cons_self, hR⟩
    · obtain ⟨a, ha, hR⟩ := ih hb
      exact ⟨a, List.mem_cons_of_mem _ ha, hR⟩

/-- What goes together with a part of the list. -/
theorem exists_of_mem_right {R : β → α → Prop} {bs : List β} (h : List.Forall₂ R bs xs) {a : α}
    (ha : a ∈ xs) : ∃ b ∈ bs, R b a := by
  induction h with
  | nil => cases ha
  | cons hR _ ih =>
    rcases List.mem_cons.mp ha with rfl | ha
    · exact ⟨_, List.mem_cons_self, hR⟩
    · obtain ⟨b, hb, hR⟩ := ih ha
      exact ⟨b, List.mem_cons_of_mem _ hb, hR⟩

/-- Places do not count when cells and parts are compared. -/
theorem forall₂_zipIdx_iff {R : β → α → Prop} {bs : List β} :
    List.Forall₂ (fun b p => R b p.1) bs xs.zipIdx ↔ List.Forall₂ R bs xs := by
  conv_rhs => rw [← List.zipIdx_map_fst 0 xs, List.forall₂_map_right_iff]

/-- When every part is kept, each keeps its place. -/
theorem filter_zipIdx_eq_self {p : α → Bool} (h : ∀ x ∈ xs, p x = true) :
    xs.zipIdx.filter (fun x => p x.1) = xs.zipIdx := by
  rw [List.filter_eq_self]
  intro x hx
  exact h x.1 (List.fst_mem_of_mem_zipIdx hx)

/-! ### First edges -/

/-- The ends of a connector. -/
def pairOf (e : Connector) : String × String := (e.source, e.target)

/-- The first edge of every pair of ends, the pairs in the order in which they are first seen. -/
def firstEdges (edges : List Connector) : List Connector :=
  (edges.map pairOf).eraseDups.filterMap fun p => edges.find? fun e => pairOf e = p

/-- The first edges are among the edges. -/
theorem firstEdges_subset (edges : List Connector) : firstEdges edges ⊆ edges := by
  intro e he
  obtain ⟨p, -, hp⟩ := List.mem_filterMap.mp he
  exact List.mem_of_find?_eq_some hp

/-- The first edge is one of them, and the others have other ends. -/
theorem firstEdges_cons (e : Connector) (edges : List Connector) :
    firstEdges (e :: edges) = e :: firstEdges (edges.filter fun f => pairOf f ≠ pairOf e) := by
  have hpairs : (edges.map pairOf).filter (fun p => !p == pairOf e) =
      (edges.filter fun f => pairOf f ≠ pairOf e).map pairOf := by
    rw [List.filter_map]
    congr 1
    apply List.filter_congr
    intro f _
    rw [Function.comp_apply, beq_eq_decide, decide_not]
  rw [firstEdges, List.map_cons, List.eraseDups_cons, hpairs]
  rw [List.filterMap_cons_some (b := e) (by simp), firstEdges]
  congr 1
  apply List.filterMap_congr
  intro p hp
  have hne : pairOf e ≠ p := by
    rintro rfl
    rw [List.mem_eraseDups] at hp
    obtain ⟨f, hf, hfe⟩ := List.mem_map.mp hp
    simp [hfe] at hf
  rw [List.find?_cons_of_neg (by simpa using hne), List.find?_filter]
  congr 1
  funext f
  by_cases hf : pairOf f = p
  · simp [hf, Ne.symm hne]
  · simp [hf]

/-- What is kept beside some pairs are the first edges of the other pairs. -/
theorem firstOfPairs_eq (pairs : List (String × String)) (edges : List Connector) :
    firstOfPairs pairs edges = firstEdges (edges.filter fun e => pairOf e ∉ pairs) := by
  induction edges generalizing pairs with
  | nil => rfl
  | cons e rest ih =>
    rw [firstOfPairs, ← pairOf]
    by_cases he : pairOf e ∈ pairs
    · rw [if_pos he, ih, List.filter_cons_of_neg (by simpa using he)]
    · have hrest : (rest.filter fun f => pairOf f ∉ pairs).filter
          (fun f => pairOf f ≠ pairOf e) = rest.filter fun f => pairOf f ∉ pairOf e :: pairs := by
        rw [List.filter_filter]
        apply List.filter_congr
        intro f _
        simp [not_or]
      rw [if_neg he, ih, List.filter_cons_of_pos (by simpa using he), firstEdges_cons, hrest]

/-- All edges are known when all ends are. -/
theorem knownEdges_eq_self {names : List String} {edges : List Connector}
    (h : ∀ e ∈ edges, e.source ∈ names ∧ e.target ∈ names) : knownEdges names edges = edges := by
  rw [knownEdges, List.filter_eq_self]
  intro e he
  simp [h e he]

/-- Then the first edges of all pairs are drawn. -/
theorem drawnEdges_eq_firstEdges {names : List String} {edges : List Connector}
    (h : ∀ e ∈ edges, e.source ∈ names ∧ e.target ∈ names) :
    drawnEdges names edges = firstEdges edges := by
  rw [drawnEdges, knownEdges_eq_self h, firstOfPairs_eq]
  congr 1
  simp

end Drawio

end Diagrams
