import Diagrams.Proofs.Graph.Levels
import Diagrams.Proofs.Layout.Columns
import Diagrams.Proofs.Layout.Terminals
import Mathlib.Algebra.Order.Floor.Ring
import Mathlib.Data.Rat.Floor

/-!
# Boxes of a flowchart do not overlap

**Main statement** (`flowchart_boxes_disjoint`): when every node of an acyclic flowchart is reached
from exactly one root, the boxes of the nodes are disjoint, whatever the direction, as long as no
diamond is made wider than a column by its label. Forests are such flowcharts, and so are acyclic
flowcharts that get a terminal at their start.

Nodes of one level stand in columns that are at least one apart (`columnsOf_spaced`), so they are as
far from each other as columns are; other nodes are as far from each other as levels are
(`point_apart`). No box is larger than these distances (`nodeSize_le`).
-/

namespace Diagrams.Layout

open Number Diagrams.Digraph

/-! ### Coordinates -/

/-- Without rounding a coordinate goes to the nearest grid line, and up from the middle. -/
theorem snap_exact (q : Rat) : snap .exact q = (q / 10 + 1 / 2).floor * 10 := rfl

/-- Numbers that are some steps of the grid apart stay so on the grid. -/
theorem snap_add_le {p q : Rat} {k : Int} (h : p + 10 * k ≤ q) :
    snap .exact p + 10 * k ≤ snap .exact q := by
  have hdiv : p / 10 + 1 / 2 + (k : Rat) ≤ q / 10 + 1 / 2 := by linarith
  have hfloor : (p / 10 + 1 / 2).floor + k ≤ (q / 10 + 1 / 2).floor := by
    rw [Rat.le_floor_iff, Int.cast_add]
    exact (add_le_add_left (Rat.floor_le _) _).trans hdiv
  rw [snap_exact, snap_exact]
  omega

/-- The same on either side. -/
theorem snap_apart {p q : Rat} {k : Int} (h : p + 10 * k ≤ q ∨ q + 10 * k ≤ p) :
    snap .exact p + 10 * k ≤ snap .exact q ∨ snap .exact q + 10 * k ≤ snap .exact p :=
  h.imp snap_add_le snap_add_le

/-- A higher level lies at least a gap further on. -/
theorem along_lt (o : Orientation) (start : Int) {gap : Int} (hgap : 0 ≤ gap) {l l' : Nat}
    (h : l < l') :
    if o.backward then o.along start gap l' + gap ≤ o.along start gap l
    else o.along start gap l + gap ≤ o.along start gap l' := by
  have hstep : (l : Int) * gap + gap ≤ l' * gap := by
    have hle : ((l : Int) + 1) * gap ≤ l' * gap :=
      Int.mul_le_mul_of_nonneg_right (by omega) hgap
    rwa [Int.add_mul, Int.one_mul] at hle
  unfold Orientation.along
  cases o.backward <;>
    simp only [if_true, Bool.false_eq_true, if_false, Int.one_mul, Int.neg_mul] <;> omega

/-- Different levels are at least a gap apart. -/
theorem along_apart (o : Orientation) (start : Int) {gap : Int} (hgap : 0 ≤ gap) {l l' : Nat}
    (h : l ≠ l') :
    o.along start gap l + gap ≤ o.along start gap l' ∨
      o.along start gap l' + gap ≤ o.along start gap l := by
  rcases Nat.lt_or_gt_of_ne h with hl | hl <;> have hl := along_lt o start hgap hl <;>
    split at hl <;> omega

/-- Columns that are one apart are a gap apart. -/
theorem across_apart (start : Int) {gap : Int} (hgap : 0 ≤ gap) {c d : Rat} (h : c + 1 ≤ d) :
    across .exact start gap c + gap ≤ across .exact start gap d := by
  have hgap' : (0 : Rat) ≤ gap := by exact_mod_cast hgap
  have hmul : (c + 1) * (gap : Rat) ≤ d * gap := mul_le_mul_of_nonneg_right h hgap'
  show (start : Rat) + c * gap + gap ≤ start + d * gap
  linarith

/-- Nodes of different levels, or of columns that are one apart, are far from each other. -/
theorem point_apart (o : Orientation) {l l' : Nat} {c d : Rat}
    (h : l ≠ l' ∨ c + 1 ≤ d ∨ d + 1 ≤ c) :
    let p := o.point .exact l c
    let q := o.point .exact l' d
    (p.1 + 200 ≤ q.1 ∨ q.1 + 200 ≤ p.1) ∨ (p.2 + 90 ≤ q.2 ∨ q.2 + 90 ≤ p.2) := by
  have hlevel : ∀ {start : Int} (k : Int), 0 ≤ 10 * k → l ≠ l' →
      snap .exact (o.along start (10 * k) l) + 10 * k ≤ snap .exact (o.along start (10 * k) l') ∨
      snap .exact (o.along start (10 * k) l') + 10 * k ≤ snap .exact (o.along start (10 * k) l) := by
    intro start k hk hl
    refine snap_apart ?_
    have := along_apart o start hk hl
    exact_mod_cast this
  have hcolumn : ∀ {start : Int} (k : Int), 0 ≤ 10 * k → (c + 1 ≤ d ∨ d + 1 ≤ c) →
      snap .exact (across .exact start (10 * k) c) + 10 * k ≤
          snap .exact (across .exact start (10 * k) d) ∨
      snap .exact (across .exact start (10 * k) d) + 10 * k ≤
          snap .exact (across .exact start (10 * k) c) := by
    intro start k hk hcd
    refine snap_apart ?_
    have := hcd.imp (across_apart start hk) (across_apart start hk)
    push_cast at this ⊢
    exact this
  intro p q
  cases ho : o.horizontal with
  | true =>
    have hp : p = (snap .exact (o.along 100 200 l), snap .exact (across .exact 40 90 c)) := by
      simp only [p, Orientation.point, ho]
      rfl
    have hq : q = (snap .exact (o.along 100 200 l'), snap .exact (across .exact 40 90 d)) := by
      simp only [q, Orientation.point, ho]
      rfl
    rw [hp, hq]
    exact h.imp (hlevel 20 (by decide)) (hcolumn 9 (by decide))
  | false =>
    have hp : p = (snap .exact (across .exact 100 200 c), snap .exact (o.along 40 90 l)) := by
      simp only [p, Orientation.point, ho]
      rfl
    have hq : q = (snap .exact (across .exact 100 200 d), snap .exact (o.along 40 90 l')) := by
      simp only [q, Orientation.point, ho]
      rfl
    rw [hp, hq]
    exact h.symm.imp (hcolumn 20 (by decide)) (hlevel 9 (by decide))

/-- No box is wider than a column or higher than a level, unless the label of a diamond is long. -/
theorem nodeSize_le {n : Node} (h : n.shape = Shape.diamond → n.label.length ≤ 25) :
    (nodeSize n).1 ≤ 200 ∧ (nodeSize n).2 ≤ 80 := by
  unfold nodeSize
  split
  · rename_i hshape
    have hlabel := h hshape
    constructor
    · show max 160 ((n.label.length : Int) * 8) ≤ 200
      omega
    · exact le_rfl
  · exact ⟨by decide, by decide⟩

/-! ### Flowcharts in which every node has one root -/

/-- The names are distinct, the known edges between them form no cycle, and every name is reached
from exactly one root. -/
structure OneRooted (names : List String) (edges : Digraph) : Prop where
  /-- The names are distinct. -/
  nodup : names.Nodup
  /-- The known edges form no cycle. -/
  acyclic : (edges.within names).IsAcyclic
  /-- Every name has one root. -/
  root : ∀ n ∈ names, ∃! r, r ∈ (edges.within names).roots names ∧
    (edges.within names).Reaches r n

/-- A name that is reached from a listed name along known edges is listed. -/
theorem mem_of_reaches_within {names : List String} {edges : Digraph} {a b : String}
    (ha : a ∈ names) (hab : (edges.within names).Reaches a b) : b ∈ names := by
  rcases hab.cases_tail with rfl | ⟨c, _, hcb⟩
  · exact ha
  · exact (arrow_within.mp hcb).2.2

/-- In an acyclic graph every listed name has a root. -/
theorem exists_root {names : List String} {edges : Digraph}
    (h : (edges.within names).IsAcyclic) {n : String} (hn : n ∈ names) :
    ∃ r, r ∈ (edges.within names).roots names ∧ (edges.within names).Reaches r n := by
  obtain ⟨r, hr, hrn⟩ := h.exists_source_reaches n
  refine ⟨r, h.mem_roots_within.mpr ⟨?_, hr⟩, hrn⟩
  rcases hrn.cases_head with rfl | ⟨b, hrb, _⟩
  · exact hn
  · exact (arrow_within.mp hrb).2.1

/-- In an acyclic graph levels rise along the known edges. -/
theorem rises_levels_within {names : List String} {edges : Digraph}
    (h : (edges.within names).IsAcyclic) : (edges.within names).Rises fun n =>
      ((edges.within names).levels names ((edges.within names).roots names)).getD n 0 :=
  h.rises_levels fun _ _ hab => exists_root h (arrow_within.mp hab).2.1

/-- When levels rise along all arrows, columns are given along all of them. -/
theorem treeOf_eq {g : Digraph} {levels : Table Nat} (h : g.Rises fun n => levels.getD n 0) :
    treeOf g levels = g := by
  have hall : g.arrows.filter (fun r =>
      1 < (g.next r.1).length || levels.getD r.1 0 < levels.getD r.2 0) = g.arrows := by
    refine List.filter_eq_self.mpr fun r hr => ?_
    have := h (arrow_iff.mpr hr)
    simp [this]
  unfold treeOf
  rw [hall]

namespace OneRooted

variable {names : List String} {edges : Digraph}

/-- Levels rise along the known edges. -/
theorem rises (h : OneRooted names edges) :
    (edges.within names).Rises fun n => (ranks .exact names edges).levels.getD n 0 :=
  rises_levels_within h.acyclic

/-- No two roots reach a common name. -/
theorem roots_apart (h : OneRooted names edges) :
    ((edges.within names).roots names).Pairwise fun r r' =>
      ∀ n, (edges.within names).Reaches r n → ¬(edges.within names).Reaches r' n := by
  refine (nodup_roots h.nodup).imp_of_mem fun {r r'} hr hr' hne n hrn hrn' => hne ?_
  have hn : n ∈ names := mem_of_reaches_within (h.acyclic.mem_roots_within.mp hr).1 hrn
  exact (h.root n hn).unique ⟨hr, hrn⟩ ⟨hr', hrn'⟩

/-- Nodes of one level stand in columns that are at least one apart. -/
theorem columns_spaced (h : OneRooted names edges) :
    ∃ hi, Spaced (fun n => (ranks .exact names edges).levels.getD n 0)
      (ranks .exact names edges).columns 0 hi names := by
  have htree : (ranks .exact names edges).columns =
      columnsOf .exact (edges.within names) names ((edges.within names).roots names) := by
    have heq := treeOf_eq h.rises
    exact congrArg (fun t => columnsOf .exact t names ((edges.within names).roots names)) heq
  rw [htree]
  exact columnsOf_spaced h.acyclic h.rises names h.roots_apart

/-- Distinct nodes lie on different levels or in columns that are one apart. -/
theorem apart (h : OneRooted names edges) {m n : String} (hm : m ∈ names) (hn : n ∈ names)
    (hmn : m ≠ n) :
    let r := ranks .exact names edges
    r.levels.getD m 0 ≠ r.levels.getD n 0 ∨
      r.columns.getD m 0 + 1 ≤ r.columns.getD n 0 ∨
      r.columns.getD n 0 + 1 ≤ r.columns.getD m 0 := by
  intro r
  obtain ⟨hi, hs⟩ := h.columns_spaced
  obtain ⟨c, hc, _⟩ := hs.within m hm
  obtain ⟨d, hd, _⟩ := hs.within n hn
  by_cases hlevel : r.levels.getD m 0 = r.levels.getD n 0
  · refine .inr ?_
    rw [Table.getD, Table.getD, hc, hd]
    exact hs.apart m hm n hn hmn hlevel c d hc hd
  · exact .inl hlevel

end OneRooted

/-- Distinct names have boxes that do not overlap. -/
def DisjointBoxes (names : List String) (boxes : Table Box) : Prop :=
  ∀ m ∈ names, ∀ n ∈ names, m ≠ n →
    ∃ a b, boxes.get? m = some a ∧ boxes.get? n = some b ∧ ¬a.Overlaps b

/-- The boxes of nodes that each have one root are disjoint. -/
theorem OneRooted.disjointBoxes {nodes : List Node} {edges : Digraph}
    (h : OneRooted (nodes.map Node.id) edges)
    (hlabels : ∀ n ∈ nodes, n.shape = Shape.diamond → n.label.length ≤ 25)
    (direction : Term Direction) :
    DisjointBoxes (nodes.map Node.id) (flowchart .exact nodes edges direction) := by
  intro m hm n hn hmn
  have hapart := h.apart hm hn hmn
  obtain ⟨m, hm', rfl⟩ := List.mem_map.mp hm
  obtain ⟨n, hn', rfl⟩ := List.mem_map.mp hn
  have hbox : ∀ {n : Node}, n ∈ nodes →
      (flowchart .exact nodes edges direction).get? n.id =
        (let r := ranks .exact (nodes.map Node.id) edges
         let p := (Orientation.of direction).point .exact (r.levels.getD n.id 0)
          (r.columns.getD n.id 0)
         some ⟨p.1, p.2, (nodeSize n).1, (nodeSize n).2⟩) := by
    intro n hn
    refine Table.get?_ofList ?_ (List.mem_map_of_mem hn)
    rw [List.map_map]
    exact h.nodup
  refine ⟨_, _, hbox hm', hbox hn', ?_⟩
  have hpoint := point_apart (Orientation.of direction) hapart
  obtain ⟨hwm, hhm⟩ := nodeSize_le (hlabels m hm')
  obtain ⟨hwn, hhn⟩ := nodeSize_le (hlabels n hn')
  simp only [Box.Overlaps, Box.right, Box.bottom]
  omega

/-! ### Forests -/

/-- Forests: no two known edges lead to one node from different nodes. -/
theorem OneRooted.of_forest {names : List String} {edges : Digraph} (hnodup : names.Nodup)
    (hacyclic : (edges.within names).IsAcyclic)
    (hforest : ∀ ⦃a a' b⦄, (edges.within names).Arrow a b → (edges.within names).Arrow a' b →
      a = a') : OneRooted names edges where
  nodup := hnodup
  acyclic := hacyclic
  root := by
    intro n hn
    obtain ⟨r, hr, hrn⟩ := exists_root hacyclic hn
    refine ⟨r, ⟨hr, hrn⟩, fun r' ⟨hr', hrn'⟩ => ?_⟩
    exact source_unique_of_reaches hforest (hacyclic.mem_roots_within.mp hr').2
      (hacyclic.mem_roots_within.mp hr).2 hrn' hrn

/-- One node reaches all others: every other node has an edge into it. -/
theorem OneRooted.of_targets {names : List String} {edges : Digraph} (hnodup : names.Nodup)
    (hacyclic : (edges.within names).IsAcyclic) {start : String}
    (htargets : ∀ n ∈ names, n ≠ start → (edges.within names).isTarget n = true) :
    OneRooted names edges where
  nodup := hnodup
  acyclic := hacyclic
  root := by
    have hstart : ∀ r ∈ (edges.within names).roots names, r = start := by
      intro r hr
      obtain ⟨hmem, hsource⟩ := hacyclic.mem_roots_within.mp hr
      by_contra hne
      rw [htargets r hmem hne] at hsource
      exact nomatch hsource
    intro n hn
    obtain ⟨r, hr, hrn⟩ := exists_root hacyclic hn
    exact ⟨r, ⟨hr, hrn⟩, fun r' ⟨hr', _⟩ => (hstart r' hr').trans (hstart r hr).symm⟩

/-! ### Flowcharts with a terminal at their start -/

/-- A flowchart that gets a start is reached from it. -/
theorem OneRooted.of_start {d : Diagram} (hkind : d.kind = Dialect.flowchart)
    (hsound : Charted.IsSound ⟨d.nodes, d.edges⟩) (hadded : .node startNode ∉ d.nodes)
    (hstart : .node startNode ∈ (withTerminals d).nodes) :
    OneRooted (withTerminals d).names (graphOf (withTerminals d).edges) := by
  have hchart := withTerminals_flowchart hkind
  set started := Charted.addStart ⟨d.nodes, d.edges⟩ (Diagram.entryPoints d.nodes d.edges)
  have hadded' : .node startNode ∈ started.nodes := by
    rw [hchart] at hstart
    rcases started.nodes_addStop (Diagram.exitPoints d.nodes d.edges) with hn | hn
    · exact hn ▸ hstart
    · rw [hn] at hstart
      exact (List.mem_append.mp hstart).resolve_right (by decide)
  have hc : (withTerminals d).IsSound := hsound.withTerminals hkind
  have htargets := Charted.isTarget_addStop (Diagram.exitPoints d.nodes d.edges)
    (Charted.isTarget_addStart hadded hadded')
  rw [← hchart] at htargets
  rw [← within_graphOf hc.ends] at htargets
  refine OneRooted.of_targets hc.nodup ?_ htargets
  rw [within_graphOf hc.ends]
  exact hc.acyclic

/-! ### Disjoint boxes -/

/-- The boxes of a flowchart are disjoint when its known edges form no cycle, every node is reached
from exactly one root and diamonds have labels of at most 25 characters. Every node of a forest is
reached from one root, and so is every node of an acyclic flowchart to which a start is added: there
the terminals have boxes as well. -/
theorem flowchart_boxes_disjoint :
    (∀ (nodes : List Node) (edges : Digraph) (direction : Term Direction),
      OneRooted (nodes.map Node.id) edges →
      (∀ n ∈ nodes, n.shape = Shape.diamond → n.label.length ≤ 25) →
      DisjointBoxes (nodes.map Node.id) (flowchart .exact nodes edges direction)) ∧
    (∀ (names : List String) (edges : Digraph), names.Nodup → (edges.within names).IsAcyclic →
      (∀ a a' b, (edges.within names).Arrow a b → (edges.within names).Arrow a' b → a = a') →
      OneRooted names edges) ∧
    (∀ (d : Diagram) (nodes : List Node), d.kind = Dialect.flowchart → d.nodes = nodes.map .node →
      Charted.IsSound ⟨d.nodes, d.edges⟩ →
      .node startNode ∉ d.nodes → .node startNode ∈ (withTerminals d).nodes →
      (∀ n ∈ nodes, n.shape = Shape.diamond → n.label.length ≤ 25) →
      ∃ chart, d.chart .exact = .ok chart ∧
        DisjointBoxes (withTerminals d).names chart.boxes) := by
  refine ⟨fun nodes edges direction h hlabels => h.disjointBoxes hlabels direction,
    fun names edges => OneRooted.of_forest, ?_⟩
  intro d nodes hkind hnodes hsound hadded hstart hlabels
  have hrooted := OneRooted.of_start hkind hsound hadded hstart
  obtain ⟨all, hall, hmem⟩ := exists_nodes_withTerminals hkind hnodes
  have hnames : (withTerminals d).names = all.map Node.id := by
    rw [Charted.names, hall, List.map_map]
    rfl
  have hchart : d.chart .exact = .ok ⟨all, (withTerminals d).edges,
      flowchart .exact all (graphOf (withTerminals d).edges) d.flow⟩ := by
    exact chart_eq_ok.mpr ⟨all, hall, columnsInRange_exact _ _ _, rfl⟩
  refine ⟨_, hchart, ?_⟩
  rw [hnames] at hrooted ⊢
  refine hrooted.disjointBoxes (fun n hn hshape => ?_) d.flow
  rcases hmem n hn with hn | rfl | rfl
  · exact hlabels n hn hshape
  · exact absurd hshape (by decide)
  · exact absurd hshape (by decide)

/-- Two nodes lead to a third one. -/
def merging : Diagram where
  nodes := [.node (.plain "a"), .node (.plain "b"), .node (.shaped "c" ⟨.diamond, "done?"⟩)]
  edges :=
    [.edge { id := "e1", source := "a", target := "c" },
      .edge { id := "e2", source := "b", target := "c" }]

/-- The flowchart with merging branches is sound. -/
theorem isSound_merging : Charted.IsSound ⟨merging.nodes, merging.edges⟩ where
  nodup := by decide
  ends := by decide
  acyclic := by
    have hrank : (graphOf merging.edges).Rises fun n => if n = "c" then 1 else 0 := by
      intro a b hab
      obtain ⟨e, he, rfl, rfl⟩ := arrow_graphOf.mp hab
      clear hab
      revert e
      decide
    exact hrank.isAcyclic

/-- Two nodes with an edge are a forest, and two that lead to a third get a start. -/
theorem flowchart_boxes_disjoint_merging :
    DisjointBoxes ["a", "b"]
      (flowchart .exact [.plain "a", .plain "b"] ⟨[("a", "b")]⟩ Direction.lr) ∧
    ∃ chart, merging.chart .exact = .ok chart ∧
      DisjointBoxes ["Start", "a", "b", "c", "Stop"] chart.boxes := by
  have hpair : ∀ a b, (Digraph.within ⟨[("a", "b")]⟩ ["a", "b"]).Arrow a b → a = "a" ∧ b = "b" := by
    intro a b hab
    have hmem : (a, b) ∈ [("a", "b")] := (List.mem_filter.mp (arrow_iff.mp hab)).1
    exact Prod.mk.inj (List.mem_singleton.mp hmem)
  have hrank : (Digraph.within ⟨[("a", "b")]⟩ ["a", "b"]).Rises fun n =>
      if n = "b" then 1 else 0 := by
    intro a b hab
    obtain ⟨rfl, rfl⟩ := hpair a b hab
    decide
  refine ⟨?_, ?_⟩
  · refine flowchart_boxes_disjoint.1 [.plain "a", .plain "b"] _ _ ?_ (by decide)
    refine flowchart_boxes_disjoint.2.1 ["a", "b"] _ (by decide) hrank.isAcyclic ?_
    intro a a' b ha ha'
    exact (hpair a b ha).1.trans (hpair a' b ha').1.symm
  · exact flowchart_boxes_disjoint.2.2 merging [.plain "a", .plain "b",
      .shaped "c" ⟨.diamond, "done?"⟩] rfl rfl isSound_merging (by decide) (by decide) (by decide)

end Diagrams.Layout
