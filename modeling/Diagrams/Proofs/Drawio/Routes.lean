import Diagrams.Proofs.Drawio.Fits
import Diagrams.Proofs.Drawio.Picture
import Diagrams.Proofs.Layout.Flow

/-!
# Edges that run around boxes

**Main statement** (`routes_of_acyclic`): in the drawing of a flowchart whose known edges form no
cycle no edge runs around the right side of its boxes when the flowchart runs down. When it runs up,
all edges do that do not start at a diamond; when it runs to the side, those of them do whose target
stands higher than their source.

Which course an edge takes is decided by the boxes alone (`length_waypoints_eq_two_iff`), whatever
the direction. Along the direction the boxes are at least a level apart (`KeepsHalves.flows`), which
is more than their heights and the tolerance make up for; across it they stand where their columns
are. The middles of boxes are computed without loss under `KeepsHalves`, since levels are bounded by
the number of nodes.
-/

namespace Diagrams

open Drawio Layout Number

variable {A : Arithmetic}

/-! ### Courses -/

namespace Drawio

/-- How far the middle of a box is below that of another one. -/
def fall (A : Arithmetic) (source target : Box) : Rat :=
  A.sub (center A target).y (center A source).y

/-- An edge runs around the right side when it leads up and does not start at a diamond. -/
theorem length_waypoints_eq_two_iff (A : Arithmetic) (shape : Term Shape) (source target : Box) :
    (route A shape source target).waypoints.length = 2 ↔
      shape ≠ Shape.diamond ∧ fall A source target < -sameHeight := by
  have hsame : (0 : Rat) < sameHeight := by decide +kernel
  have hfall : A.sub (center A target).y (center A source).y = fall A source target := rfl
  unfold route
  dsimp only
  rw [hfall]
  split_ifs with hdiamond hright hleft hdown hup hside
  · simp [hdiamond]
  · simp [hdiamond]
  · simp [hdiamond]
  · have hnot : ¬fall A source target < -sameHeight := by linarith
    simp [hnot]
  · simp [hdiamond, hup]
  · simp [hup]
  · simp [hup]

/-- Whether an edge of a flowchart without cycles runs around the right side of its boxes. -/
def RunsAround (A : Arithmetic) (direction : Term Direction) (shape : Term Shape)
    (source target : Box) : Prop :=
  match direction with
  | .known .td | .known .tb | .other .. => False
  | .known .bt => shape ≠ Shape.diamond
  | .known .lr | .known .rl => shape ≠ Shape.diamond ∧ fall A source target < -sameHeight

end Drawio

/-! ### Middles of boxes -/

namespace Layout

variable {bound : Nat}

/-- The middle of a box is computed without loss. -/
theorem KeepsHalves.center_y (h : KeepsHalves A bound) {b : Box}
    (hb : 2 * b.y.natAbs + b.height.natAbs < bound) :
    (center A b).y = ((2 * b.y + b.height : Int) : Rat) / 2 := by
  have hy : A.ofInt b.y = b.y := h.round_intCast (by omega)
  have hheight : A.div b.height 2 = (b.height : Rat) / 2 := h b.height (by omega)
  have hsum : (b.y : Rat) + (b.height : Rat) / 2 = ((2 * b.y + b.height : Int) : Rat) / 2 := by
    push_cast
    ring
  show A.add (A.ofInt b.y) (A.div b.height 2) = _
  rw [hy, hheight, Arithmetic.add, hsum]
  exact h _ (by omega)

/-- So is the distance of two middles. -/
theorem KeepsHalves.fall_eq (h : KeepsHalves A bound) {s t : Box}
    (hbound : (2 * s.y.natAbs + s.height.natAbs) + (2 * t.y.natAbs + t.height.natAbs) < bound) :
    fall A s t = ((2 * t.y + t.height - (2 * s.y + s.height) : Int) : Rat) / 2 := by
  have hdifference : ((2 * t.y + t.height : Int) : Rat) / 2 - ((2 * s.y + s.height : Int) : Rat) / 2 =
      ((2 * t.y + t.height - (2 * s.y + s.height) : Int) : Rat) / 2 := by
    push_cast
    ring
  rw [fall, h.center_y (by omega), h.center_y (by omega), Arithmetic.sub, hdifference]
  exact h _ (by omega)

/-- A middle is more than the tolerance higher than another one when it is so in half units. -/
theorem half_lt_neg_sameHeight_iff (k : Int) : ((k : Rat) / 2 < -sameHeight) ↔ k < -40 := by
  have hsame : sameHeight = 20 := rfl
  rw [hsame, div_lt_iff₀ (by norm_num), ← Int.cast_lt (R := Rat)]
  norm_num

/-- A node is of one of two heights. -/
theorem nodeSize_height (n : Node) : (nodeSize n).2 = 50 ∨ (nodeSize n).2 = 80 := by
  unfold nodeSize
  split
  · exact .inr rfl
  · exact .inl rfl

variable {nodes : List Node} {edges : Digraph}

/-- A box of a flowchart that runs up or down is not far from the start. -/
theorem KeepsHalves.natAbs_y_le (h : KeepsHalves A (40 * nodes.length))
    {direction : Term Direction} (hvertical : (Orientation.of direction).horizontal = false)
    {n : String} (hn : n ∈ nodes.map Node.id) :
    ∃ s, (flowchart A nodes edges direction).get? n = some s ∧
      s.y.natAbs + 50 ≤ 90 * nodes.length ∧ (s.height = 50 ∨ s.height = 80) := by
  obtain ⟨s, hs, hpoint, node, hsize⟩ := exists_get?_flowchart A edges direction hn
  have hlevel : (ranks A (nodes.map Node.id) edges).levels.getD n 0 < (nodes.map Node.id).length :=
    getD_levels_lt hn
  rw [List.length_map] at hlevel
  have hy := h.point_eq (Orientation.of direction) (Nat.mul_le_mul_left 40 hlevel)
    ((ranks A (nodes.map Node.id) edges).columns.getD n 0)
  rw [← hpoint, hvertical] at hy
  have hle := natAbs_along_le (Orientation.of direction) 40 90
    ((ranks A (nodes.map Node.id) edges).levels.getD n 0)
  refine ⟨s, hs, ?_, ?_⟩
  · have hy' : s.y = _ := hy
    rw [hy']
    push_cast at hle
    omega
  · have hheight : s.height = (nodeSize node).2 := congrArg Prod.snd hsize
    rw [hheight]
    exact nodeSize_height node

/-- An edge along which levels rise takes its course from its direction. -/
theorem KeepsHalves.runsAround_iff (h : KeepsHalves A (400 * nodes.length))
    (hacyclic : (edges.within (nodes.map Node.id)).IsAcyclic) (direction : Term Direction)
    {a b : String} (hab : (edges.within (nodes.map Node.id)).Arrow a b) {s t : Box}
    (hs : (flowchart A nodes edges direction).get? a = some s)
    (ht : (flowchart A nodes edges direction).get? b = some t) (shape : Term Shape) :
    (route A shape s t).waypoints.length = 2 ↔ RunsAround A direction shape s t := by
  have hsmall : KeepsHalves A (40 * nodes.length) := h.mono (by omega)
  obtain ⟨s', t', hs', ht', hbeyond⟩ := hsmall.flows hacyclic direction hab
  obtain rfl : s = s' := Option.some.inj (hs.symm.trans hs')
  obtain rfl : t = t' := Option.some.inj (ht.symm.trans ht')
  obtain ⟨-, ha, hb⟩ := Digraph.arrow_within.mp hab
  -- up or down, a level is more than the heights of the boxes make up for
  have hvertical' : (Orientation.of direction).horizontal = false →
      (s.y + 90 ≤ t.y → ¬fall A s t < -sameHeight) ∧
        (t.y + 90 ≤ s.y → fall A s t < -sameHeight) := by
    intro hvertical
    obtain ⟨s', hs', hys, hheights⟩ := hsmall.natAbs_y_le hvertical ha
    obtain ⟨t', ht', hyt, hheightt⟩ := hsmall.natAbs_y_le hvertical hb
    obtain rfl : s = s' := Option.some.inj (hs.symm.trans hs')
    obtain rfl : t = t' := Option.some.inj (ht.symm.trans ht')
    rw [h.fall_eq (by omega), half_lt_neg_sameHeight_iff]
    omega
  have hdown : (Orientation.of direction).horizontal = false → s.y + 90 ≤ t.y →
      ¬(shape ≠ Shape.diamond ∧ fall A s t < -sameHeight) :=
    fun hvertical hlow hup => (hvertical' hvertical).1 hlow hup.2
  rw [length_waypoints_eq_two_iff]
  match direction, hbeyond with
  | .known .td, hlow => exact iff_false_intro (hdown rfl hlow)
  | .known .tb, hlow => exact iff_false_intro (hdown rfl hlow)
  | .other .., hlow => exact iff_false_intro (hdown rfl hlow)
  | .known .bt, hhigh => exact and_iff_left ((hvertical' rfl).2 hhigh)
  | .known .lr, _ => exact Iff.rfl
  | .known .rl, _ => exact Iff.rfl

end Layout

/-! ### Drawings -/

/-- The line joins the ends of an edge, and takes its course from the direction. -/
def Chart.Follows (A : Arithmetic) (c : Chart) (direction : Term Direction)
    (cellOf : String → String) (l : Line) (e : Connector) : Prop :=
  l.Joins cellOf e.source e.target ∧ ∃ shape s t, c.shapeOf e.source = some shape ∧
    c.boxes.get? e.source = some s ∧ c.boxes.get? e.target = some t ∧
    (l.waypoints.length = 2 ↔ RunsAround A direction shape s t)

/-- The lines of a drawn flowchart follow its direction, one for each edge that is drawn. -/
def Diagram.IsRouted (A : Arithmetic) (d : Diagram) (cells : List Cell) : Prop :=
  ∃ c cellOf, d.chart A = .ok c ∧ List.Forall₂ (c.Follows A d.flow cellOf) (pageLines cells)
    (drawnEdges (c.nodes.map Node.id) c.edges)

/-- The known edges of a flowchart with its terminals form no cycle. -/
def Diagram.IsAcyclic (d : Diagram) : Prop :=
  ((graphOf (withTerminals d).edges).within (withTerminals d).names).IsAcyclic

/-- The edges that are drawn are known. -/
theorem Drawio.arrow_of_mem_drawnEdges {names : List String} {edges : List Connector}
    {e : Connector} (h : e ∈ drawnEdges names edges) :
    ((graphOf edges).within names).Arrow e.source e.target := by
  obtain ⟨hmem, hknown⟩ := List.mem_filter.mp (firstOfPairs_subset _ _ h)
  simp only [Bool.and_eq_true, List.contains_iff_mem] at hknown
  exact Digraph.arrow_within.mpr ⟨arrow_graphOf.mpr ⟨e, hmem, rfl, rfl⟩, hknown⟩

/-- Cells without lines show none. -/
theorem Drawio.pageLines_eq_nil {cells : List Cell} (h : ∀ cell ∈ cells, ∃ v, cell = .vertex v) :
    pageLines cells = [] := by
  rw [pageLines, List.filterMap_eq_nil_iff]
  intro cell hcell
  obtain ⟨v, rfl⟩ := h cell hcell
  rfl

/-- Parts that are drawn as boxes add no line. -/
theorem Drawio.pageLines_map_eq_nil {α : Type} {f : α → Cell} (h : ∀ a, ∃ v, f a = .vertex v)
    {parts : List α} : pageLines (parts.map f) = [] := by
  apply pageLines_eq_nil
  intro cell hcell
  obtain ⟨a, -, rfl⟩ := List.mem_map.mp hcell
  exact h a

/-- A line is drawn for every edge that is drawn, when these follow the direction. -/
theorem Chart.exists_follows {c : Chart} {groups : List Group} {cells : List Cell}
    {direction : Term Direction} (h : c.cells A groups = .ok cells)
    (hboxes : ∀ name ∈ c.nodes.map Node.id, ∃ b, c.boxes.get? name = some b)
    (hedges : ∀ e ∈ drawnEdges (c.nodes.map Node.id) c.edges, ∀ shape s t,
      c.boxes.get? e.source = some s → c.boxes.get? e.target = some t →
      ((route A shape s t).waypoints.length = 2 ↔ RunsAround A direction shape s t)) :
    ∃ cellOf, List.Forall₂ (c.Follows A direction cellOf) (pageLines cells)
      (drawnEdges (c.nodes.map Node.id) c.edges) := by
  obtain ⟨cellOf, edges, groupIds, edgeIds, hcells, hdrawn, -, hedgeIds, rfl⟩ := exists_parts h
  have hnodes : pageLines (c.nodes.filterMap (c.nodeCell cellOf)) = [] := by
    apply pageLines_eq_nil
    intro cell hcell
    obtain ⟨n, -, hn⟩ := List.mem_filterMap.mp hcell
    obtain ⟨v, hv, -⟩ := nodeCell_spec hn
    exact ⟨v, hv⟩
  have hlines : List.Forall₂ (fun cell e => ∃ l, cell = .line l ∧
      c.Follows A direction (cellName cellOf) l (.edge e))
      ((edgeIds.zip edges).filterMap fun p => c.edgeCell A cellOf p.1 p.2) edges := by
    apply forall₂_filterMap_zip hedgeIds
    intro id e he
    have hmem : Connector.edge e ∈ drawnEdges (c.nodes.map Node.id) c.edges :=
      hdrawn ▸ List.mem_map_of_mem he
    obtain ⟨-, hs, ht⟩ := Digraph.arrow_within.mp (arrow_of_mem_drawnEdges hmem)
    obtain ⟨l, shape, s, t, hcell, hshows, hshape, hbox, hbox', hlength⟩ :=
      exists_edgeCell A hcells hboxes hs ht id
    refine ⟨_, hcell, l, rfl, hshows.2.2, shape, s, t, hshape, hbox, hbox', ?_⟩
    rw [hlength]
    exact hedges _ hmem shape s t hbox hbox'
  refine ⟨cellName cellOf, ?_⟩
  rw [pageLines_append, pageLines_append, pageLines_map_eq_nil fun _ => ⟨_, rfl⟩, hnodes, hdrawn,
    List.forall₂_map_right_iff]
  exact (showsAll_lines hlines).1

/-- The lines of a flowchart without cycles follow its direction when its coordinates are computed
without loss. -/
theorem Diagram.Draws.isRouted {d : Diagram} {cells : List Cell} (h : d.Draws A cells)
    (hkind : d.IsCharted) (hacyclic : d.IsAcyclic)
    (hkept : KeepsHalves A (400 * (withTerminals d).nodes.length)) : d.IsRouted A cells := by
  cases h with
  | sequence hother => exact nomatch hkind _ hother
  | entities hother => exact nomatch hkind _ hother
  | mindmap hother => exact nomatch hkind _ hother
  | @chart c _ _ hc hcells =>
    have hnames := Chart.names_eq hc
    obtain ⟨nodes, hnodes, -, rfl⟩ := chart_eq_ok.mp hc
    rw [hnodes, List.length_map] at hkept
    rw [Diagram.IsAcyclic, ← hnames] at hacyclic
    have hboxes : ∀ name ∈ nodes.map Node.id, ∃ b,
        (flowchart A nodes (graphOf (withTerminals d).edges) d.flow).get? name = some b := by
      intro name hname
      obtain ⟨b, hb, -⟩ := exists_get?_flowchart A (graphOf (withTerminals d).edges) d.flow hname
      exact ⟨b, hb⟩
    obtain ⟨cellOf, hlines⟩ := Chart.exists_follows hcells hboxes fun e he shape s t hs ht =>
      hkept.runsAround_iff hacyclic d.flow (arrow_of_mem_drawnEdges he) hs ht shape
    exact ⟨_, cellOf, hc, hlines⟩

/-- A flowchart that was read without cycles has none with its terminals. -/
theorem Diagram.isAcyclic_of_isSound {d : Diagram} (hkind : d.kind = Dialect.flowchart)
    (hd : d.IsSound) (h : (graphOf d.edges).IsAcyclic) : d.IsAcyclic := by
  have hsound : Charted.IsSound ⟨d.nodes, d.edges⟩ := ⟨hd.nodup_names, hd.edge_ends, h⟩
  have hc := hsound.withTerminals hkind
  rw [Diagram.IsAcyclic, within_graphOf hc.ends]
  exact hc.acyclic

/-- **Main statement.** When the known edges of a flowchart form no cycle, every line of its drawing
follows the direction of the flowchart: none runs around the right side when it runs down. Without
rounding this holds for all sizes, and with 53 bits up to sizes that no flowchart has. Every
flowchart that is read without cycles has none with its terminals, and is drawn unless it is too
wide. -/
theorem routes_of_acyclic (title : Option String) (stamp : Stamp) :
    (∀ (d : Diagram) (doc : Document), d.IsCharted → d.IsAcyclic →
      (d.toDrawio .exact title stamp = .ok doc → d.IsRouted .exact doc.cells) ∧
      ((withTerminals d).nodes.length ≤ 2 ^ 44 →
        d.toDrawio .binary64 title stamp = .ok doc → d.IsRouted .binary64 doc.cells)) ∧
    ∀ code d, Diagram.parse code = .ok d → d.kind = Dialect.flowchart →
      (graphOf d.edges).IsAcyclic →
      d.IsCharted ∧ d.IsAcyclic ∧ ∀ A, d.DrawnOrWide A title stamp fun _ => True := by
  constructor
  · intro d doc hkind hacyclic
    refine ⟨fun h => ?_, fun hlength h => ?_⟩
    · exact (Diagram.toDrawio_spec h).2.isRouted hkind hacyclic (keepsHalves_exact _)
    · exact (Diagram.toDrawio_spec h).2.isRouted hkind hacyclic
        (keepsHalves_binary64.mono (by omega))
  · intro code d h hkind hacyclic
    have hcharted : d.IsCharted := by
      intro k hk
      rw [hkind] at hk
      cases hk
      rfl
    exact ⟨hcharted, Diagram.isAcyclic_of_isSound hkind (isSound_of_parse code d h) hacyclic,
      fun A => Diagram.drawnOrWide_of_parse A h title stamp⟩

/-- An edge that leads up. -/
def rising : Diagram where
  direction := some Direction.bt
  nodes := [.node (.plain "A"), .node (.plain "B")]
  edges := [.edge { id := "e1", source := "A", target := "B", arrow := some Arrow.solid.style }]

set_option maxRecDepth 100000 in
/-- The text of the rising flowchart. -/
theorem parse_rising : Diagram.parse "graph BT\nA --> B" = .ok rising := rfl

/-- It has no cycle. -/
theorem isAcyclic_graphOf_rising : (graphOf rising.edges).IsAcyclic := by
  have hrank : (graphOf rising.edges).Rises fun n => if n = "B" then 1 else 0 := by
    intro a b hab
    obtain ⟨e, he, rfl, rfl⟩ := arrow_graphOf.mp hab
    obtain rfl := List.mem_singleton.mp he
    decide
  exact hrank.isAcyclic

/-- The nodes of the rising flowchart with its terminals. -/
theorem nodes_rising : (withTerminals rising).nodes =
    [startNode, .plain "A", .plain "B", stopNode].map .node := by
  decide

/-- One column is enough for it, so it is drawn. -/
theorem exists_toDrawio_rising (stamp : Stamp) :
    ∃ doc, rising.toDrawio .binary64 none stamp = .ok doc := by
  have hfits : ¬ rising.IsTooWide .binary64 :=
    Diagram.not_isTooWide_of_rises ["Start", "A", "B", "Stop"].idxOf nodes_rising
      (by decide) (by decide) (by decide) (by decide) (by decide)
  obtain ⟨doc, hdoc, -⟩ := (Diagram.drawnOrWide_of_parse .binary64 parse_rising none
    stamp).resolve_right fun hwide => hfits hwide.1
  exact ⟨doc, hdoc⟩

/-- The edge runs around the right side of its boxes, although it leads to the next level. -/
theorem runs_around_rising :
    Diagram.parse "graph BT\nA --> B" = .ok rising ∧ (graphOf rising.edges).IsAcyclic ∧
      ∃ doc, rising.toDrawio .binary64 none { moment := ⟨2024, 1, 2, 3, 4, 5, 678901⟩ } = .ok doc ∧
        ∃ l ∈ pageLines doc.cells, l.waypoints.length = 2 := by
  obtain ⟨doc, hdoc⟩ := exists_toDrawio_rising { moment := ⟨2024, 1, 2, 3, 4, 5, 678901⟩ }
  have hsound := isSound_of_parse _ _ parse_rising
  have hacyclic := Diagram.isAcyclic_of_isSound rfl hsound isAcyclic_graphOf_rising
  have hkept : KeepsHalves .binary64 (400 * (withTerminals rising).nodes.length) :=
    keepsHalves_binary64.mono (by decide)
  obtain ⟨c, cellOf, hc, hlines⟩ := (Diagram.toDrawio_spec hdoc).2.isRouted
    (fun k hk => (Term.known.inj hk).symm) hacyclic hkept
  obtain ⟨nodes, hnodes, -, rfl⟩ := chart_eq_ok.mp hc
  obtain rfl := nodes_unique nodes_rising hnodes
  have he : .edge { id := "e1", source := "A", target := "B", arrow := some Arrow.solid.style } ∈
      drawnEdges ["Start", "A", "B", "Stop"] (withTerminals rising).edges := by decide
  obtain ⟨l, hl, -, shape, s, t, hshape, -, -, hcourse⟩ := exists_of_mem_right hlines he
  have hplain : shape = Shape.rectangle := (Option.some.inj hshape).symm
  refine ⟨parse_rising, isAcyclic_graphOf_rising, doc, hdoc, l, hl, hcourse.mpr ?_⟩
  show shape ≠ Shape.diamond
  rw [hplain]
  decide

/-- Its drawing follows the direction. -/
theorem routes_of_acyclic_rising :
    ∃ doc, rising.toDrawio .binary64 none { moment := ⟨2024, 1, 2, 3, 4, 5, 678901⟩ } = .ok doc ∧
      rising.IsRouted .binary64 doc.cells := by
  obtain ⟨hcharted, hacyclic, -⟩ :=
    (routes_of_acyclic none { moment := ⟨2024, 1, 2, 3, 4, 5, 678901⟩ }).2 _ rising parse_rising rfl
      isAcyclic_graphOf_rising
  obtain ⟨doc, hdoc⟩ := exists_toDrawio_rising { moment := ⟨2024, 1, 2, 3, 4, 5, 678901⟩ }
  exact ⟨doc, hdoc, ((routes_of_acyclic none _).1 rising doc hcharted hacyclic).2 (by decide) hdoc⟩

end Diagrams
