import Diagrams.Proofs.Drawio.Frames
import Diagrams.Proofs.Drawio.Range
import Diagrams.Proofs.Layout.Flow
import Diagrams.Proofs.Layout.Stretch

/-!
# Flowcharts within the range of numbers

With 53 bits and a range that ends at `2 ^ 1024` a flowchart is drawn as long as it is not of a size
that only counted columns can reach.

**Main statements**: when the boxes of a flowchart are small, so are all numbers that are written
for its cells (`Diagram.not_hasWideCell_of_isSmall`); and a flowchart is not too wide when not more
than `2 ^ 44` columns are reserved (`Diagram.not_isTooWide_of_reserved_le`), as for a forest
(`Diagram.not_isTooWide_of_rises`).

Each step of the drawing may double a bound, so all bounds are powers of two. Rounding does not pass
these (`Number.abs_toBinary64_le`).
-/

namespace Diagrams

open Number Drawio

/-! ### Bounds -/

section Bounds

variable {k : Nat} {a b q : Rat}

/-- A rounded sum lies within the next power of two. -/
theorem Number.abs_add_le_two_pow (ha : |a| ≤ 2 ^ k) (hb : |b| ≤ 2 ^ k) :
    |Arithmetic.binary64.add a b| ≤ 2 ^ (k + 1) := by
  apply abs_toBinary64_le
  calc |a + b|
      ≤ |a| + |b| := abs_add_le a b
    _ ≤ 2 ^ k + 2 ^ k := add_le_add ha hb
    _ = 2 ^ (k + 1) := by ring

/-- The fraction of a number may be cut off. -/
theorem Number.abs_floor_le_two_pow (h : |q| ≤ 2 ^ k) : |((q.floor : Int) : Rat)| ≤ 2 ^ k := by
  obtain ⟨hlow, hhigh⟩ := abs_le.mp h
  refine abs_le.mpr ⟨?_, (Rat.floor_le q).trans hhigh⟩
  have hfloor : -(2 : Int) ^ k ≤ q.floor := Rat.le_floor_iff.mpr (by push_cast; exact hlow)
  exact_mod_cast hfloor

/-- The nearest integer lies within the next power of two. -/
theorem Number.abs_nearest_le_two_pow (h : |q| ≤ 2 ^ k) :
    |((Arithmetic.binary64.nearest q : Int) : Rat)| ≤ 2 ^ (k + 1) := by
  apply abs_floor_le_two_pow
  apply abs_add_le_two_pow h
  have hone : (1 : Rat) ≤ 2 ^ k := one_le_pow₀ (by norm_num)
  rw [abs_of_pos (by norm_num)]
  linarith

/-- A whole number lies within a power of two when its size does. -/
theorem Number.abs_intCast_le_two_pow {n : Int} (h : n.natAbs ≤ 2 ^ k) : |(n : Rat)| ≤ 2 ^ k := by
  rw [← Int.cast_abs, ← Nat.cast_natAbs]
  exact_mod_cast h

end Bounds

/-! ### Small boxes -/

/-- The numbers of a box are below `2 ^ 53`. -/
structure Box.IsSmall (b : Box) : Prop where
  /-- The left edge. -/
  x : b.x.natAbs < 2 ^ 53
  /-- The upper edge. -/
  y : b.y.natAbs < 2 ^ 53
  /-- The width. -/
  width : b.width.natAbs < 2 ^ 53
  /-- The height. -/
  height : b.height.natAbs < 2 ^ 53

namespace Drawio

/-- Both coordinates of a point lie within a power of two. -/
def Point.IsWithin (k : Nat) (p : Point) : Prop := |p.x| ≤ 2 ^ k ∧ |p.y| ≤ 2 ^ k

variable {boxes : Table Box}

/-- The middle of a small box. -/
theorem isWithin_center {b : Box} (h : b.IsSmall) : (center .binary64 b).IsWithin 54 := by
  have hwhole : ∀ n : Int, n.natAbs < 2 ^ 53 → |Arithmetic.binary64.ofInt n| ≤ 2 ^ 53 :=
    fun n hn => abs_toBinary64_le (abs_intCast_le_two_pow hn.le)
  have hhalf : ∀ n : Int, n.natAbs < 2 ^ 53 → |Arithmetic.binary64.div n 2| ≤ 2 ^ 53 := by
    intro n hn
    apply abs_toBinary64_le
    have hbound := abs_intCast_le_two_pow hn.le
    rw [abs_div, abs_two]
    linarith [abs_nonneg (n : Rat)]
  exact ⟨abs_add_le_two_pow (hwhole _ h.x) (hhalf _ h.width),
    abs_add_le_two_pow (hwhole _ h.y) (hhalf _ h.height)⟩

/-- The points through which an edge runs between small boxes. -/
theorem isWithin_waypoints {s t : Box} (hs : s.IsSmall) (ht : t.IsSmall) (shape : Term Shape) :
    ∀ p ∈ (route .binary64 shape s t).waypoints, p.IsWithin 55 := by
  have hmiddle : ∀ {b : Box}, b.IsSmall → |(center .binary64 b).x| ≤ 2 ^ 55 ∧
      |(center .binary64 b).y| ≤ 2 ^ 55 := by
    intro b hb
    have hle : (2 : Rat) ^ 54 ≤ 2 ^ 55 := by norm_num
    exact ⟨(isWithin_center hb).1.trans hle, (isWithin_center hb).2.trans hle⟩
  have hside : |((max s.right t.right + backEdgeGap : Int) : Rat)| ≤ 2 ^ 55 := by
    apply abs_intCast_le_two_pow
    obtain ⟨hx, -, hwidth, -⟩ := hs
    obtain ⟨hx', -, hwidth', -⟩ := ht
    unfold Box.right backEdgeGap
    omega
  have hstep : (⟨(center .binary64 t).x, (center .binary64 s).y⟩ : Point).IsWithin 55 :=
    ⟨(hmiddle ht).1, (hmiddle hs).2⟩
  unfold route
  dsimp only
  split_ifs
  · exact List.forall_mem_singleton.mpr hstep
  · exact List.forall_mem_singleton.mpr hstep
  · exact nofun
  · exact nofun
  · exact List.forall_mem_cons.mpr ⟨⟨hside, (hmiddle hs).2⟩,
      List.forall_mem_singleton.mpr ⟨hside, (hmiddle ht).2⟩⟩
  · exact nofun
  · exact nofun

/-- The label of an edge stands near the edge. -/
theorem isWithin_labelOffset (edges : List Connector) (e : Connector) :
    (labelOffset edges e).IsWithin 55 := by
  have hall : ∀ p ∈ usualOffset :: branchOffsets, p.IsWithin 55 := by
    intro p hp
    simp only [usualOffset, branchOffsets, List.mem_cons, List.not_mem_nil, or_false] at hp
    rcases hp with rfl | rfl | rfl | rfl | rfl <;> norm_num [Point.IsWithin]
  apply hall
  unfold labelOffset
  dsimp only
  split
  · exact List.mem_cons_self
  · generalize Option.getD _ 0 = place
    rw [List.getD_eq_getElem?_getD]
    cases h : branchOffsets[place]? with
    | none => exact List.mem_cons_self
    | some p => exact List.mem_cons_of_mem _ (List.mem_of_getElem? h)

/-! ### Small cells -/

/-- The numbers of a cell lie within `2 ^ 60`, which is far from the end of the range. -/
def Cell.IsSmall (c : Cell) : Prop := ∀ q ∈ c.numbers, |q| ≤ 2 ^ 60

/-- The box of a node or of a group is small enough. -/
theorem Vertex.isSmall {v : Vertex} (hx : v.box.x.natAbs ≤ 2 ^ 60) (hy : v.box.y.natAbs ≤ 2 ^ 60)
    (hwidth : v.box.width.natAbs ≤ 2 ^ 60) (hheight : v.box.height.natAbs ≤ 2 ^ 60) :
    (Cell.vertex v).IsSmall := by
  intro q hq
  simp only [Cell.numbers, List.mem_cons, List.not_mem_nil, or_false] at hq
  rcases hq with rfl | rfl | rfl | rfl <;> exact abs_intCast_le_two_pow (by assumption)

/-- The box around the members of a group, when their boxes are small. -/
theorem isSmall_lane {v : Vertex} {members : List String} (hsmall : ∀ e ∈ boxes, e.2.IsSmall)
    (h : groupBox boxes members = some v.box) : (Cell.vertex v).IsSmall := by
  have hmember : ∀ b ∈ members.filterMap boxes.get?, b.IsSmall := by
    intro b hb
    obtain ⟨m, -, hm⟩ := List.mem_filterMap.mp hb
    exact hsmall _ (Table.mem_of_get? hm)
  have hframe := isFrame_groupBox h
  obtain ⟨l, hl, hleft⟩ := hframe.left_attained
  obtain ⟨r, hr, hright⟩ := hframe.right_attained
  obtain ⟨t, ht, htop⟩ := hframe.top_attained
  obtain ⟨b, hb, hbottom⟩ := hframe.bottom_attained
  have hl := (hmember l hl).x
  have ht := (hmember t ht).y
  obtain ⟨hrx, -, hrwidth, -⟩ := hmember r hr
  obtain ⟨-, hby, -, hbheight⟩ := hmember b hb
  unfold Box.right at hright
  unfold Box.bottom at hbottom
  exact Vertex.isSmall (by omega) (by omega) (by omega) (by omega)

end Drawio

namespace Chart

variable {c : Chart} {groups : List Group} {edges : List Edge}

/-- The line of an edge between small boxes. -/
theorem isSmall_edgeCell (hsmall : ∀ e ∈ c.boxes, e.2.IsSmall) {cellOf : Table String} {id : String}
    {e : Edge} {cell : Cell} (h : c.edgeCell .binary64 cellOf id e = some cell) : cell.IsSmall := by
  simp only [edgeCell, Option.bind_eq_bind, Option.bind_eq_some_iff, Option.pure_def,
    Option.some.injEq] at h
  obtain ⟨source, -, target, -, shape, -, s, hs, t, ht, rfl⟩ := h
  have hcourse := isWithin_waypoints (hsmall _ (Table.mem_of_get? hs))
    (hsmall _ (Table.mem_of_get? ht)) shape
  have hwritten : ∀ q : Rat, |q| ≤ 2 ^ 55 →
      |((Arithmetic.binary64.nearest (Arithmetic.binary64.round q) : Int) : Rat)| ≤ 2 ^ 60 :=
    fun q hq => (abs_nearest_le_two_pow (abs_toBinary64_le hq)).trans (by norm_num)
  intro q hq
  simp only [Cell.numbers, Ends.places, List.nil_append, List.mem_flatMap, List.mem_append,
    List.mem_map, Option.mem_toList] at hq
  obtain ⟨p, ⟨w, hw, rfl⟩ | hp, hq⟩ := hq
  · obtain ⟨hx, hy⟩ := hcourse w hw
    simp only [List.mem_cons, List.not_mem_nil, or_false] at hq
    rcases hq with rfl | rfl
    · exact hwritten _ hx
    · exact hwritten _ hy
  · split at hp
    · cases hp
    · obtain rfl := Option.some.inj hp
      obtain ⟨hx, hy⟩ := isWithin_labelOffset c.edges (.edge e)
      have hle : (2 : Rat) ^ 55 ≤ 2 ^ 60 := by norm_num
      simp only [List.mem_cons, List.not_mem_nil, or_false] at hq
      rcases hq with rfl | rfl
      · exact hx.trans hle
      · exact hy.trans hle

/-- When the boxes of a chart are small, so are its cells. -/
theorem isSmall_cellsWith (hsmall : ∀ e ∈ c.boxes, e.2.IsSmall) :
    ∀ cell ∈ c.cellsWith .binary64 groups edges, cell.IsSmall := by
  unfold cellsWith
  intro cell hcell
  simp only [List.mem_append, List.mem_map, List.mem_filterMap] at hcell
  rcases hcell with (⟨⟨id, name, g, box⟩, hp, rfl⟩ | ⟨n, -, hn⟩) | ⟨p, -, hp⟩
  · exact isSmall_lane hsmall (groupBox_of_mem_drawnGroups (List.of_mem_zip hp).2)
  · simp only [nodeCell, Option.bind_eq_bind, Option.bind_eq_some_iff, Option.pure_def,
      Option.some.injEq] at hn
    obtain ⟨id, -, b, hb, rfl⟩ := hn
    obtain ⟨hx, hy, hwidth, hheight⟩ := hsmall _ (Table.mem_of_get? hb)
    exact Vertex.isSmall (by dsimp only at *; omega) (by dsimp only at *; omega)
      (by dsimp only at *; omega) (by dsimp only at *; omega)
  · exact isSmall_edgeCell hsmall hp

/-- So all numbers that are written for them lie in the range. -/
theorem cellsInRange_of_isSmall (hsmall : ∀ e ∈ c.boxes, e.2.IsSmall) :
    cellsInRange .binary64 (c.cellsWith .binary64 groups edges) = true := by
  simp only [cellsInRange, List.all_eq_true]
  intro cell hcell q hq
  exact inRange_binary64 (k := 60) (by norm_num)
    (abs_toBinary64_le (isSmall_cellsWith hsmall cell hcell q hq))

end Chart

/-! ### Flowcharts -/

namespace Layout

/-- A flowchart of a size that can be written down has small boxes when not too many columns are
reserved. -/
theorem isSmall_flowchart {nodes : List Node} {edges : Digraph} (direction : Term Direction)
    (hnodes : nodes.length ≤ 2 ^ 44) (hlabels : ∀ n ∈ nodes, n.label.length ≤ 2 ^ 44)
    (hreserved : reserved (nodes.map Node.id) edges ≤ 2 ^ 44) :
    ∀ e ∈ flowchart .binary64 nodes edges direction, e.2.IsSmall := by
  intro e he
  obtain ⟨n, hn, rfl⟩ := List.mem_map.mp (Table.mem_of_mem_ofList he)
  have hname : n.id ∈ nodes.map Node.id := List.mem_map_of_mem hn
  -- across the direction a column bounds the box, and along it a level
  obtain ⟨last, hlast⟩ := Nat.exists_eq_add_of_le' ((one_le_reserved edges hname).trans hreserved)
  obtain ⟨c, hc, hcolumn⟩ := exists_columnsOf (keepsBounds_binary64.confines (by omega))
    (nodes.map Node.id) ((edges.within (nodes.map Node.id)).roots (nodes.map Node.id))
    (hreserved.trans hlast.le) hname
  have hc : (ranks .binary64 (nodes.map Node.id) edges).columns.getD n.id 0 = c := by
    rw [Table.getD]
    exact congrArg (Option.getD · 0) hc
  generalize hlevelEq : (ranks .binary64 (nodes.map Node.id) edges).levels.getD n.id 0 = level
  have hlevel : level < (nodes.map Node.id).length := hlevelEq ▸ getD_levels_lt hname
  rw [List.length_map] at hlevel
  have hacross := keepsBounds_binary64.point_mem (by omega) (Orientation.of direction) level hcolumn
  have halong := keepsHalves_binary64.point_eq (Orientation.of direction) (l := level) (by omega) c
  have hside := natAbs_along_le (Orientation.of direction) 100 200 level
  have hdown := natAbs_along_le (Orientation.of direction) 40 90 level
  have hlabel := hlabels n hn
  have hsize : (nodeSize n).1.natAbs < 2 ^ 53 ∧ (nodeSize n).2.natAbs < 2 ^ 53 := by
    unfold nodeSize
    split <;> dsimp only <;> omega
  simp only [hc]
  push_cast at hside hdown
  split at hacross <;> rename_i horizontal
  · rw [if_pos horizontal] at halong
    exact ⟨by dsimp only; omega, by dsimp only; omega, hsize.1, hsize.2⟩
  · rw [if_neg horizontal] at halong
    exact ⟨by dsimp only; omega, by dsimp only; omega, hsize.1, hsize.2⟩

end Layout

namespace Diagram

variable {d : Diagram}

/-- **Main statement.** When the boxes of a diagram are small, no number that is written for a cell
lies beyond the range. -/
theorem not_hasWideCell_of_isSmall
    (hsmall : ∀ c, d.chart .binary64 = .ok c → ∀ e ∈ c.boxes, e.2.IsSmall) :
    ¬ d.HasWideCell .binary64 := by
  rintro ⟨-, c, edges, hc, -, hwide⟩
  rw [Chart.cellsInRange_of_isSmall (hsmall c hc)] at hwide
  cases hwide

/-- A diagram whose boxes are small is drawn: no column and no cell lies beyond the range. -/
theorem not_isTooWide_of_layout {boxes : Table Box} (h : d.layout .binary64 = .ok boxes)
    (hsmall : ∀ e ∈ boxes, e.2.IsSmall) : ¬ d.IsTooWide .binary64 := by
  rintro (hwide | hwide)
  · rw [hwide.layout_eq_error] at h
    cases h
  · refine not_hasWideCell_of_isSmall (fun c hc => ?_) hwide
    rw [layout, hwide.kind] at h
    obtain ⟨c', hc', rfl⟩ := map_eq_ok.mp h
    rw [hc] at hc'
    cases hc'
    exact hsmall

/-- **Main statement.** A flowchart of a size that can be written down is not too wide when not more
than `2 ^ 44` columns are reserved. -/
theorem not_isTooWide_of_reserved_le {nodes : List Node}
    (hnodes : (Layout.withTerminals d).nodes = nodes.map .node) (hlength : nodes.length ≤ 2 ^ 44)
    (hlabels : ∀ n ∈ nodes, n.label.length ≤ 2 ^ 44)
    (hreserved : Layout.reserved (nodes.map Node.id)
      (Layout.graphOf (Layout.withTerminals d).edges) ≤ 2 ^ 44) : ¬ d.IsTooWide .binary64 := by
  rintro (⟨-, others, hothers, hwide⟩ | hwide)
  · obtain rfl := nodes_unique hnodes hothers
    have hstays := Layout.keepsBounds_binary64.staysWithin (by norm_num) hreserved
    rw [hstays.1] at hwide
    cases hwide
  · refine not_hasWideCell_of_isSmall (fun c hc => ?_) hwide
    obtain ⟨others, hothers, -, rfl⟩ := Layout.chart_eq_ok.mp hc
    obtain rfl := nodes_unique hnodes hothers
    exact Layout.isSmall_flowchart d.flow hlength hlabels hreserved

/-- So is none whose arrows lead to higher numbers, and no two of them to the same node: it has no
more columns than nodes. -/
theorem not_isTooWide_of_rises {nodes : List Node} (rank : String → Nat)
    (hnodes : (Layout.withTerminals d).nodes = nodes.map .node) (hlength : nodes.length ≤ 2 ^ 44)
    (hlabels : ∀ n ∈ nodes, n.label.length ≤ 2 ^ 44) (hnodup : (nodes.map Node.id).Nodup)
    (hrank : ∀ e ∈ ((Layout.graphOf (Layout.withTerminals d).edges).within
      (nodes.map Node.id)).arrows, rank e.1 < rank e.2)
    (htargets : (((Layout.graphOf (Layout.withTerminals d).edges).within
      (nodes.map Node.id)).arrows.map (·.2)).Nodup) : ¬ d.IsTooWide .binary64 := by
  have hrises : ((Layout.graphOf (Layout.withTerminals d).edges).within
      (nodes.map Node.id)).Rises rank :=
    fun _ _ hab => hrank _ (Digraph.arrow_iff.mp hab)
  have hreserved := Layout.reserved_le_length hnodup ⟨hrises.isAcyclic, htargets⟩
  rw [List.length_map] at hreserved
  exact not_isTooWide_of_reserved_le hnodes hlength hlabels (hreserved.trans hlength)

end Diagram

end Diagrams
