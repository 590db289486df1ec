import Diagrams.Proofs.Graph.Forest
import Diagrams.Proofs.Layout.Flow
import Diagrams.Proofs.Layout.Origin
import Mathlib

/-!
# How far a flowchart stretches across its direction

**Main statement** (`columns_within`): all nodes of a flowchart stand in as many columns as the
widths of its nodes make up together. Without cycles the widths of the roots are enough, and in a
forest these are not more than there are nodes.

A width counts a name once for each way to it, and columns are reserved by widths, whereas a name is
placed once. So with names that several arrows lead to, the columns may be more than the nodes
(`column_behind_shared`).

The columns that are given at most, `reserved`, are a matter of the graph alone. The extent of a
search is bounded by the widths of the names that are met (`extent_le_sum`), without cycles by the
widths of the targets (`Meets.extent_le`), and these are bounded by the number of names where no name
is met again (`Unfolds.sum_le`).
-/

namespace Diagrams

open Layout Number

variable {w : String → Nat}

namespace Digraph

variable {g : Digraph} {seen seen' targets : List String} {f : Forest}

/-- Without cycles a search takes no more columns than its targets. -/
theorem Meets.extent_le (hw : g.IsWidth w) (h : g.Meets seen targets f seen') :
    extent w f ≤ (targets.map w).sum := by
  induction h with
  | nil => exact Nat.le_refl 0
  | again _ _ ih =>
    rw [extent, List.map_cons, List.sum_cons]
    exact ih.trans (Nat.le_add_left _ _)
  | @first _ _ _ b _ _ _ _ _ _ ihBelow ihRest =>
    rw [extent, List.map_cons, List.sum_cons, Nat.max_eq_left (ihBelow.trans (hw.sum_next_le b))]
    exact Nat.add_le_add_left ihRest _

/-- Where no name is met again, targets take no more columns than there are names. -/
theorem Unfolds.sum_le (hw : g.IsWidth w) (h : g.Unfolds targets f) :
    (targets.map w).sum ≤ f.names.length := by
  induction h with
  | nil => exact Nat.le_refl 0
  | @first b _ _ _ _ _ ihBelow ihRest =>
    rw [List.map_cons, List.sum_cons, hw b, Forest.names, List.length_append, List.length_cons]
    omega

/-- In an acyclic graph the widths that are counted without a memory are the widths of its names. -/
theorem IsAcyclic.isWidth_plainWidth (h : g.IsAcyclic) : g.IsWidth (g.plainWidth []) := by
  obtain ⟨w, hw⟩ := h.exists_isWidth
  have hnone : Remembers w none := nofun
  have hplain : g.plainWidth [] = w := funext fun n => (h.width_eq hw hnone n).1
  rwa [hplain]

end Digraph

namespace Layout

open Diagrams.Digraph

/-! ### Extents -/

section Extents

variable {f : Forest}

/-- A search takes no more columns than the names that it meets. -/
theorem extent_le_sum (w : String → Nat) (f : Forest) : extent w f ≤ (f.names.map w).sum := by
  induction f with
  | nil => exact Nat.le_refl 0
  | again _ _ ih => exact ih
  | first name below rest ihBelow ihRest =>
    rw [extent, Forest.names, List.map_append, List.map_cons, List.sum_append, List.sum_cons]
    omega

variable (hw : ∀ n, 1 ≤ w n)
include hw

/-- A search that meets a name takes a column. -/
theorem one_le_extent {n : String} (hn : n ∈ f.names) : 1 ≤ extent w f := by
  induction f with
  | nil => exact absurd hn List.not_mem_nil
  | again _ _ ih => exact ih hn
  | first name below rest _ _ =>
    have hname := hw name
    rw [extent]
    omega

/-- A search and the names that it does not meet take no more columns than all names. -/
theorem extent_add_length_le {names : List String} (hnodup : f.names.Nodup)
    (hsubset : f.names ⊆ names) :
    extent w f + (names.filter fun n => n ∉ f.names).length ≤ (names.map w).sum := by
  have hmet : extent w f ≤ ((names.filter fun n => n ∈ f.names).map w).sum := by
    have hsubperm : f.names.Subperm (names.filter fun n => n ∈ f.names) :=
      List.subperm_of_subset hnodup fun n hn => List.mem_filter.mpr ⟨hsubset hn, by simpa using hn⟩
    obtain ⟨l, hperm, hsub⟩ := hsubperm
    refine (extent_le_sum w f).trans ?_
    rw [← (hperm.map w).sum_eq]
    exact (hsub.map w).sum_le_sum fun _ _ => Nat.zero_le _
  have hleft : (names.filter fun n => n ∉ f.names).length ≤
      ((names.filter fun n => n ∉ f.names).map w).sum := by
    have hlength := List.length_le_sum_of_one_le ((names.filter fun n => n ∉ f.names).map w)
    rw [List.length_map] at hlength
    apply hlength
    intro v hv
    obtain ⟨n, -, rfl⟩ := List.mem_map.mp hv
    exact hw n
  have hparts := ((List.filter_append_perm (fun n => decide (n ∈ f.names)) names).map w).sum_eq
  rw [List.map_append, List.sum_append] at hparts
  simp only [decide_not] at hleft ⊢
  omega

end Extents

/-! ### Columns of a flowchart -/

section Reserved

variable {names : List String} {edges : Digraph}

/-- The arrows along which columns are given in a flowchart. -/
def columnTree (names : List String) (edges : Digraph) : Digraph :=
  let g := edges.within names
  treeOf g (g.levels names (g.roots names))

/-- What the search from the roots meets. -/
def columnForest (names : List String) (edges : Digraph) : Forest :=
  ((columnTree names edges).search [] ((edges.within names).roots names)).1

/-- How many columns are given at most: those that the search takes, and one for each name that it
does not meet. -/
def reserved (names : List String) (edges : Digraph) : Nat :=
  extent ((columnTree names edges).plainWidth []) (columnForest names edges) +
    (names.filter fun n => n ∉ (columnForest names edges).names).length

/-- A flowchart with a node has a column. -/
theorem one_le_reserved (edges : Digraph) {n : String} (hn : n ∈ names) :
    1 ≤ reserved names edges := by
  by_cases hmet : n ∈ (columnForest names edges).names
  · exact (one_le_extent (one_le_plainWidth _ []) hmet).trans (Nat.le_add_right _ _)
  · refine le_trans (List.length_pos_of_mem (a := n) ?_) (Nat.le_add_left _ _)
    exact List.mem_filter.mpr ⟨hn, by simpa using hmet⟩

/-- Columns are given along known edges only. -/
theorem arrow_of_columnTree {a b : String} (h : (columnTree names edges).Arrow a b) :
    (edges.within names).Arrow a b :=
  arrow_iff.mpr (List.mem_filter.mp (arrow_iff.mp h)).1

/-- The search from the roots meets no other names. -/
theorem names_columnForest_subset (names : List String) (edges : Digraph) :
    (columnForest names edges).names ⊆ names := by
  intro n hn
  obtain ⟨r, hr, hrn⟩ := (meets_search (columnTree names edges) [] _).reaches hn
  have hway : (edges.within names).Reaches r n :=
    Relation.ReflTransGen.mono (fun _ _ => arrow_of_columnTree) _ _ hrn
  exact mem_of_reaches_within ((edges.within names).roots_subset names hr) hway

/-- There are no more columns than the widths of all names. -/
theorem reserved_le_sum (names : List String) (edges : Digraph) :
    reserved names edges ≤ (names.map ((columnTree names edges).plainWidth [])).sum :=
  extent_add_length_le (one_le_plainWidth _ []) (meets_search _ [] _).nodup_names
    (names_columnForest_subset names edges)

section Acyclic

variable (h : (edges.within names).IsAcyclic)
include h

/-- Without cycles columns are given along all known edges. -/
theorem columnTree_of_isAcyclic : columnTree names edges = edges.within names :=
  treeOf_eq (rises_levels_within h)

/-- Then the search from the roots meets all names. -/
theorem names_subset_columnForest : names ⊆ (columnForest names edges).names := by
  intro n hn
  obtain ⟨r, hr, hrn⟩ := exists_root h hn
  refine (meets_search _ _ _).mem_names_iff_reaches.mpr ⟨r, hr, ?_⟩
  rwa [columnTree_of_isAcyclic h]

/-- So there are no more columns than the widths of the roots. -/
theorem reserved_le_of_isAcyclic :
    reserved names edges ≤
      (((edges.within names).roots names).map ((edges.within names).plainWidth [])).sum := by
  have hmet : (names.filter fun n => n ∉ (columnForest names edges).names) = [] := by
    rw [List.filter_eq_nil_iff]
    intro n hn
    simpa using names_subset_columnForest h hn
  rw [reserved, hmet, List.length_nil, Nat.add_zero, columnForest, columnTree_of_isAcyclic h]
  exact (meets_search _ _ _).extent_le h.isWidth_plainWidth

end Acyclic

/-- In a forest there are no more columns than names. -/
theorem reserved_le_length (hnodup : names.Nodup) (h : (edges.within names).IsForest) :
    reserved names edges ≤ names.length := by
  set g := edges.within names
  have hunfolds : g.Unfolds (g.roots names) (columnForest names edges) := by
    rw [columnForest, columnTree_of_isAcyclic h.acyclic]
    exact h.unfolds_search (nodup_roots hnodup) fun r hr => (h.acyclic.mem_roots_within.mp hr).2
  calc reserved names edges
      ≤ ((g.roots names).map (g.plainWidth [])).sum := reserved_le_of_isAcyclic h.acyclic
    _ ≤ (columnForest names edges).names.length := hunfolds.sum_le h.acyclic.isWidth_plainWidth
    _ ≤ names.length :=
        (List.subperm_of_subset (meets_search _ [] _).nodup_names
          (names_columnForest_subset names edges)).length_le

end Reserved

/-! ### Flowcharts -/

/-- Across the direction of the flowchart all nodes stand in the first columns: these lie in the
range of numbers, and each node has a column, and a box that starts there. -/
def StaysWithin (A : Arithmetic) (nodes : List Node) (edges : Digraph) (size : Nat) : Prop :=
  (∀ direction, columnsInRange A nodes edges direction = true) ∧
  ∀ n ∈ nodes.map Node.id,
    (∃ c, (ranks A (nodes.map Node.id) edges).columns.get? n = some c ∧ 0 ≤ c ∧ c + 1 ≤ size) ∧
    ∀ direction, ∃ b, (flowchart A nodes edges direction).get? n = some b ∧
      if (Orientation.of direction).horizontal then 40 ≤ b.y ∧ b.y + 90 ≤ 40 + 90 * size
      else 100 ≤ b.x ∧ b.x + 200 ≤ 100 + 200 * size

/-- The flowchart stretches over the first columns at most, without rounding and with 53 bits up to
sizes that no drawing has. -/
def Stretches (nodes : List Node) (edges : Digraph) (size : Nat) : Prop :=
  StaysWithin .exact nodes edges size ∧
    (size ≤ 2 ^ 44 → StaysWithin .binary64 nodes edges size)

variable {nodes : List Node} {edges : Digraph} {size : Nat}

/-- Rounding within bounds keeps all nodes within the columns that are reserved. -/
theorem KeepsBounds.staysWithin {A : Arithmetic} {limit : Nat} (h : KeepsBounds A limit)
    (hlimit : 400 * size ≤ limit) (hroom : reserved (nodes.map Node.id) edges ≤ size) :
    StaysWithin A nodes edges size := by
  have hplaced : ∀ n ∈ nodes.map Node.id, ∃ last c, size = last + 1 ∧
      (ranks A (nodes.map Node.id) edges).columns.get? n = some c ∧ c ∈ Set.Icc (0 : Rat) last := by
    intro n hn
    obtain ⟨last, rfl⟩ := Nat.exists_eq_add_of_le' ((one_le_reserved edges hn).trans hroom)
    obtain ⟨c, hc, hmem⟩ := exists_columnsOf (h.confines (by omega)) (nodes.map Node.id) _ hroom hn
    exact ⟨last, c, rfl, hc, hmem⟩
  constructor
  · intro direction
    rw [columnsInRange, List.all_eq_true]
    intro n hn
    obtain ⟨last, c, rfl, hc, hmem⟩ := hplaced n.id (List.mem_map_of_mem hn)
    rw [Table.getD, hc]
    exact h.inRange_mul_gap hlimit (Orientation.of direction) hmem
  intro n hn
  obtain ⟨last, c, rfl, hc, hmem⟩ := hplaced n hn
  refine ⟨⟨c, hc, hmem.1, ?_⟩, fun direction => ?_⟩
  · rw [Nat.cast_add_one]
    exact add_le_add_left hmem.2 1
  · obtain ⟨b, hb, hplace, -⟩ := exists_get?_flowchart A edges direction hn
    have hcolumn : (ranks A (nodes.map Node.id) edges).columns.getD n 0 = c := by
      rw [Table.getD]
      exact congrArg (Option.getD · 0) hc
    have hpoint := h.point_mem hlimit (Orientation.of direction)
      ((ranks A (nodes.map Node.id) edges).levels.getD n 0) hmem
    rw [← hcolumn, ← hplace] at hpoint
    refine ⟨b, hb, ?_⟩
    split <;> rename_i horizontal
    · rw [if_pos horizontal] at hpoint
      obtain ⟨hlow, hhigh⟩ := hpoint
      exact ⟨hlow, by push_cast; omega⟩
    · rw [if_neg horizontal] at hpoint
      obtain ⟨hlow, hhigh⟩ := hpoint
      exact ⟨hlow, by push_cast; omega⟩

/-- A flowchart stretches over the columns that are reserved. -/
theorem stretches_of_reserved_le (h : reserved (nodes.map Node.id) edges ≤ size) :
    Stretches nodes edges size :=
  ⟨(keepsBounds_exact _).staysWithin le_rfl h,
    fun hsize => keepsBounds_binary64.staysWithin (by omega) h⟩

/-- **Main statement.** Every node of a flowchart has a column, and none lies before the first one.
The columns are not more than the widths of all nodes taken together, each counted on its own; when
the known edges form no cycle, not more than the widths of the roots; and when besides no node is the
target of two known edges, not more than the nodes. The boxes start within as many columns. -/
theorem columns_within (nodes : List Node) (edges : Digraph)
    (hnodup : (nodes.map Node.id).Nodup) :
    let names := nodes.map Node.id
    let g := edges.within names
    let tree := columnTree names edges
    (∀ n ∈ names, ∃ c, (ranks .binary64 names edges).columns.get? n = some c ∧ 0 ≤ c) ∧
    Stretches nodes edges (names.map fun n => (tree.width [] none n).1).sum ∧
    (g.IsAcyclic →
      Stretches nodes edges ((g.roots names).map fun n => (g.width [] none n).1).sum) ∧
    (g.IsForest → Stretches nodes edges nodes.length) := by
  intro names g tree
  refine ⟨fun n hn => (exists_ranks keepsSign_binary64 names edges hn).2,
    stretches_of_reserved_le (reserved_le_sum names edges),
    fun h => stretches_of_reserved_le (reserved_le_of_isAcyclic h),
    fun h => stretches_of_reserved_le ?_⟩
  exact (reserved_le_length hnodup h).trans_eq (List.length_map _)

/-- A node with two others below it stretches over two columns. -/
theorem columns_within_fork :
    let nodes := ["a", "b", "c"].map Node.plain
    let edges : Digraph := ⟨[("a", "b"), ("a", "c")]⟩
    edges.IsForest ∧ Stretches nodes edges 2 ∧ Stretches nodes edges nodes.length := by
  intro nodes edges
  have hknown : edges.within (nodes.map Node.id) = edges := by decide
  have hrank : edges.Rises fun n => if n = "a" then 0 else 1 := by
    intro a b hab
    have hmem := arrow_iff.mp hab
    clear hab
    revert hmem
    simp only [edges, List.mem_cons, List.not_mem_nil, or_false, Prod.mk.injEq]
    rintro (⟨rfl, rfl⟩ | ⟨rfl, rfl⟩) <;> decide
  have hforest : edges.IsForest := ⟨hrank.isAcyclic, by decide⟩
  obtain ⟨-, -, hacyclic, hcount⟩ := columns_within nodes edges (by decide)
  simp only [hknown] at hacyclic hcount
  have hroots : ((edges.roots (nodes.map Node.id)).map fun n => (edges.width [] none n).1).sum = 2 := by
    have hroot : edges.roots (nodes.map Node.id) = ["a"] := by decide
    rw [hroot]
    simp [edges, width, widths, next]
  exact ⟨hforest, hroots ▸ hacyclic hforest.acyclic, hcount hforest⟩

/-- Of five nodes one stands behind the fifth column. Three of them are the targets of several edges,
and where columns are reserved they count once for each way that leads to them. -/
theorem column_behind_shared :
    let nodes := ["R", "A", "B", "C", "D"].map Node.plain
    let edges : Digraph := ⟨[("R", "D"), ("R", "C"), ("R", "B"), ("R", "A"), ("B", "C"), ("B", "D"),
      ("A", "B"), ("A", "C"), ("A", "D")]⟩
    (nodes.map Node.id).Nodup ∧ edges.arrows.Nodup ∧
      ∃ c, (ranks .binary64 (nodes.map Node.id) edges).columns.get? "A" = some c ∧
        (nodes.length : Rat) - 1 < c := by
  intro nodes edges
  refine ⟨by decide, by decide, 11 / 2, by cbv, ?_⟩
  rw [show nodes.length = 5 from rfl]
  norm_num

end Layout

end Diagrams
