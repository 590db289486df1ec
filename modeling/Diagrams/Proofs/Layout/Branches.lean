import Diagrams.Proofs.Graph.Forest
import Diagrams.Proofs.Layout.Topics
import Diagrams.Proofs.Reading.Mentions

/-!
# Topics of a mindmap do not overlap

**Main statement** (`mindmap_boxes_disjoint`): in the layout of a mindmap that was read every topic
has a box, no two boxes overlap, and a box stands exactly 200 right of its parent's box.

The edges of a mindmap form a forest (`Mindmap.isForest_read`), so the heights that are computed for
each topic anew agree with the forest that is placed (`topicHeight_eq`, `stackHeight_eq`). The boxes
are then those of `spots`, a recursion on the forest (`placeTopics_eq`):

* `top_of_mem_spots` — a forest keeps within its height.
* `pairwise_spots` — of two topics one stands a level left of the other, or a box and a gap above.
* `exists_spot_of_arrow` — a topic stands one level right of its parent.

Moving a box to the grid takes away less than one step of its distance to another one. Topics below
each other start 51 units apart, so five steps are left, which is more than the 36 units of a box
(`Spot.Before.not_overlaps`).
-/

namespace Diagrams

open Number Diagrams.Digraph

namespace Layout

/-! ### Where topics stand -/

/-- Where the box of a topic starts, before it is moved to the grid. -/
structure Spot where
  /-- The topic. -/
  name : String
  /-- The left edge. -/
  left : Int
  /-- The upper edge. -/
  top : Rat

/-- The box of the topic under its name. -/
def Spot.entry (s : Spot) : String × Box :=
  (s.name, ⟨snap .exact s.left, snap .exact s.top, 120, boxHeight⟩)

/-- The height that a topic takes with what stands below it. -/
def branchHeight (below : Forest) : Nat := max (forestHeight below - topicGap) boxHeight

/-- Where the topics of a forest stand that is placed from a height on. -/
def spots (x : Int) (y : Rat) : Forest → List Spot
  | .nil => []
  | .again _ rest => spots x y rest
  | .first name below rest =>
    let center := y + branchHeight below / 2
    let stack := forestHeight below - topicGap
    ⟨name, x, center - 18⟩ :: spots (x + 200) (center - stack / 2) below ++
      spots x (y + branchHeight below + topicGap) rest

variable {g : Digraph} {targets : List String} {f : Forest}

/-- There is a spot for each name of a forest. -/
theorem map_name_spots (x : Int) (y : Rat) (f : Forest) :
    (spots x y f).map Spot.name = f.names := by
  induction f generalizing x y with
  | nil => rfl
  | again _ _ ih => exact ih x y
  | first name below rest ihBelow ihRest =>
    rw [spots, List.cons_append, List.map_cons, List.map_append, ihBelow, ihRest, Forest.names,
      List.cons_append]

/-! ### Placing topics -/

/-- The middle of the height that a topic takes. -/
theorem midpoint_exact (y : Rat) (height : Nat) : midpoint .exact y height = y + height / 2 := by
  show (y + (y + ((height : Int) : Rat))) / 2 = _
  rw [Int.cast_natCast]
  ring

section Placing

variable (hg : g.IsForest)
include hg

/-- A topic takes the height of its branch. -/
theorem topicHeight_eq {b : String} {below : Forest} (h : g.Unfolds (g.next b) below) :
    topicHeight g b = branchHeight below := by
  have hforest : (g.search [] [b]).1 = .first b below .nil :=
    (hg.unfolds_singleton b).unique (.first h .nil)
  rw [topicHeight, hforest, forestHeight, forestHeight, Nat.add_zero, Nat.add_sub_cancel,
    branchHeight]

/-- Topics beside each other take the height of their forest, without the last gap. -/
theorem stackHeight_eq (h : g.Unfolds targets f) :
    stackHeight g targets = forestHeight f - topicGap := by
  have hsum : targets.foldr (fun n height => topicHeight g n + topicGap + height) 0 =
      forestHeight f := by
    induction h with
    | nil => rfl
    | first hbelow _ _ ih =>
      rw [List.foldr_cons, ih, topicHeight_eq hg hbelow, branchHeight, forestHeight]
  rw [stackHeight, hsum]

/-- The boxes of a forest come after those that were placed before. -/
theorem placeTopics_eq (h : g.Unfolds targets f) (passed : List String) (x : Int) (y : Rat)
    {boxes : Table Box} (hnodup : (boxes.names ++ f.names).Nodup) :
    placeTopics .exact g passed f x y boxes = boxes ++ (spots x y f).map Spot.entry := by
  induction h generalizing passed x y boxes with
  | nil => exact (List.append_nil _).symm
  | @first b rest below f hbelow hrest ihBelow ihRest =>
    have hnames : boxes.names ++ (Forest.first b below f).names =
        boxes.names ++ [b] ++ below.names ++ f.names := by
      simp [Forest.names]
    rw [hnames] at hnodup
    have hbelowNodup := hnodup.of_append_left
    let center := midpoint .exact y (branchHeight below)
    let placed : Table Box := boxes ++ [(b, topicBox .exact x center)]
    have hinsert : boxes.insert b (topicBox .exact x center) = placed := by
      apply Table.insert_of_notMem
      exact fun hm => (List.nodup_append.mp hbelowNodup.of_append_left).2.2 b hm b
        List.mem_cons_self rfl
    have hplaced : placed.names = boxes.names ++ [b] := List.map_append
    -- nothing below the topic has a box yet, so all of it counts for the stack
    have hfilter : (below.heads.filter fun n => !placed.names.contains n) = g.next b := by
      rw [hbelow.heads_eq, List.filter_eq_self]
      intro n hn
      rw [hplaced]
      have hnew : n ∉ boxes.names ++ [b] := fun hm =>
        (List.nodup_append.mp hbelowNodup).2.2 n hm n (hbelow.targets_subset hn) rfl
      simpa using hnew
    have hbelowPlaced : (placed.names ++ below.names).Nodup := hplaced ▸ hbelowNodup
    have hnamesBelow : ∀ top, Table.names (placed ++ (spots (x + 200) top below).map Spot.entry) =
        boxes.names ++ [b] ++ below.names := by
      intro top
      rw [← hplaced, ← map_name_spots (x + 200) top, Table.names, List.map_append, List.map_map]
      rfl
    simp only [placeTopics, topicHeight_eq hg hbelow]
    rw [hinsert, hfilter, stackHeight_eq hg hbelow, ihBelow _ _ _ hbelowPlaced,
      ihRest _ _ _ (by rwa [hnamesBelow])]
    simp [spots, placed, center, midpoint_exact, Spot.entry, topicBox, add_assoc]

end Placing

/-! ### Topics stand apart -/

variable {x : Int} {y : Rat} {s : Spot}

/-- A branch is as high as a box and as the stack below its topic, which lacks the last gap. -/
theorem branchHeight_bounds (below : Forest) :
    (36 : Rat) ≤ branchHeight below ∧
      ((forestHeight below - topicGap : Nat) : Rat) ≤ branchHeight below ∧
      (forestHeight below : Rat) ≤ (forestHeight below - topicGap : Nat) + 15 := by
  refine ⟨?_, ?_, ?_⟩
  · exact_mod_cast Nat.le_max_right _ boxHeight
  · exact_mod_cast Nat.le_max_left _ boxHeight
  · exact_mod_cast Nat.sub_le_iff_le_add.mp (Nat.le_refl (forestHeight below - topicGap))

/-- The height of a forest is that of its first branch, a gap and the height of the others. -/
theorem forestHeight_first (name : String) (below rest : Forest) :
    (forestHeight (.first name below rest) : Rat) =
      branchHeight below + 15 + forestHeight rest := by
  rw [forestHeight, branchHeight, topicGap]
  push_cast
  rfl

/-- Topics do not stand left of where their forest starts. -/
theorem left_of_mem_spots (h : s ∈ spots x y f) : x ≤ s.left := by
  induction f generalizing x y with
  | nil => exact absurd h List.not_mem_nil
  | again _ _ ih => exact ih h
  | first name below rest ihBelow ihRest =>
    rw [spots, List.cons_append, List.mem_cons, List.mem_append] at h
    rcases h with rfl | h | h
    · exact Int.le_refl x
    · have hbelow := ihBelow h
      omega
    · exact ihRest h

/-- Topics stand within the height of their forest, each with a gap below it. -/
theorem top_of_mem_spots (h : s ∈ spots x y f) :
    y ≤ s.top ∧ s.top + 51 ≤ y + forestHeight f := by
  induction f generalizing x y with
  | nil => exact absurd h List.not_mem_nil
  | again _ rest ih =>
    obtain ⟨hlow, hhigh⟩ := ih h
    have hheight : (forestHeight rest : Rat) ≤ (topicGap + forestHeight rest : Nat) := by
      exact_mod_cast Nat.le_add_left _ _
    exact ⟨hlow, hhigh.trans (add_le_add_right hheight y)⟩
  | first name below rest ihBelow ihRest =>
    obtain ⟨hbox, hstack, hbelow⟩ := branchHeight_bounds below
    have hrest : (0 : Rat) ≤ forestHeight rest := Nat.cast_nonneg _
    rw [forestHeight_first]
    rw [spots, List.cons_append, List.mem_cons, List.mem_append] at h
    rcases h with rfl | h | h
    · show y ≤ y + branchHeight below / 2 - 18 ∧ y + branchHeight below / 2 - 18 + 51 ≤ _
      constructor <;> linarith
    · obtain ⟨hlow, hhigh⟩ := ihBelow h
      constructor <;> linarith
    · obtain ⟨hlow, hhigh⟩ := ihRest h
      rw [topicGap] at hlow hhigh
      push_cast at hlow hhigh
      constructor <;> linarith

/-- One topic stands a level left of another one, or a box and a gap above it. -/
def Spot.Before (s t : Spot) : Prop := s.left + 200 ≤ t.left ∨ s.top + 51 ≤ t.top

/-- A topic stands left of those below it, and all of its branch above the next ones. -/
theorem pairwise_spots (x : Int) (y : Rat) (f : Forest) : (spots x y f).Pairwise Spot.Before := by
  induction f generalizing x y with
  | nil => exact List.Pairwise.nil
  | again _ rest ih => exact ih x y
  | first name below rest ihBelow ihRest =>
    obtain ⟨hbox, hstack, hbelow⟩ := branchHeight_bounds below
    have hnext : ∀ t ∈ spots x (y + branchHeight below + topicGap) rest,
        y + branchHeight below + 15 ≤ t.top := by
      intro t ht
      simpa [topicGap] using (top_of_mem_spots ht).1
    rw [spots, List.cons_append, List.pairwise_cons, List.pairwise_append]
    refine ⟨?_, ihBelow _ _, ihRest _ _, ?_⟩
    · intro t ht
      rcases List.mem_append.mp ht with ht | ht
      · exact .inl (left_of_mem_spots ht)
      · have hlow := hnext t ht
        apply Or.inr
        show y + branchHeight below / 2 - 18 + 51 ≤ t.top
        linarith
    · intro s hs t ht
      have hlow := hnext t ht
      obtain ⟨-, hhigh⟩ := top_of_mem_spots hs
      apply Or.inr
      linarith

/-- The targets stand where the forest starts. -/
theorem exists_spot_of_target (h : g.Unfolds targets f) (x : Int) (y : Rat) {b : String}
    (hb : b ∈ targets) : ∃ t ∈ spots x y f, t.name = b ∧ t.left = x := by
  induction h generalizing y with
  | nil => exact absurd hb List.not_mem_nil
  | first hbelow hrest _ ihRest =>
    rcases List.mem_cons.mp hb with rfl | hb
    · exact ⟨_, List.mem_cons_self, rfl, rfl⟩
    · obtain ⟨t, ht, hname, hleft⟩ := ihRest _ hb
      exact ⟨t, List.mem_cons_of_mem _ (List.mem_append_right _ ht), hname, hleft⟩

/-- The ends of the arrows from a topic stand one level to its right. -/
theorem exists_spot_of_arrow (h : g.Unfolds targets f) (hs : s ∈ spots x y f) {b : String}
    (hb : g.Arrow s.name b) : ∃ t ∈ spots x y f, t.name = b ∧ t.left = s.left + 200 := by
  induction h generalizing x y with
  | nil => exact absurd hs List.not_mem_nil
  | first hbelow hrest ihBelow ihRest =>
    rw [spots, List.cons_append, List.mem_cons, List.mem_append] at hs
    rcases hs with rfl | hs | hs
    · obtain ⟨t, ht, hplace⟩ := exists_spot_of_target hbelow (x + 200) _ hb
      exact ⟨t, List.mem_cons_of_mem _ (List.mem_append_left _ ht), hplace⟩
    · obtain ⟨t, ht, hplace⟩ := ihBelow hs
      exact ⟨t, List.mem_cons_of_mem _ (List.mem_append_left _ ht), hplace⟩
    · obtain ⟨t, ht, hplace⟩ := ihRest hs
      exact ⟨t, List.mem_cons_of_mem _ (List.mem_append_right _ ht), hplace⟩

/-! ### Boxes stand apart -/

/-- A step of the grid is kept on the grid. -/
theorem snap_add (q : Rat) (k : Int) : snap .exact (q + 10 * k) = snap .exact q + 10 * k := by
  apply Int.le_antisymm
  · have hback := snap_add_le (p := q + 10 * k) (q := q) (k := -k) (by push_cast; linarith)
    omega
  · exact snap_add_le le_rfl

/-- The boxes of topics that stand apart do not overlap. -/
theorem Spot.Before.not_overlaps {s t : Spot} (h : s.Before t) :
    ¬s.entry.2.Overlaps t.entry.2 ∧ ¬t.entry.2.Overlaps s.entry.2 := by
  have hsnap : snap .exact s.left + 10 * 20 ≤ snap .exact t.left ∨
      snap .exact s.top + 10 * 5 ≤ snap .exact t.top := by
    rcases h with hleft | htop
    · apply Or.inl
      apply snap_add_le
      exact_mod_cast hleft
    · apply Or.inr
      apply snap_add_le
      push_cast
      linarith
  have hheight : ((boxHeight : Nat) : Int) = 36 := rfl
  simp only [Spot.entry, Box.Overlaps, Box.right, Box.bottom, hheight]
  omega

variable {x : Int} {y : Rat} {f : Forest}

/-- The boxes stand under the names of the topics. -/
theorem names_entries (x : Int) (y : Rat) (f : Forest) :
    Table.names ((spots x y f).map Spot.entry) = f.names := by
  rw [Table.names, List.map_map, ← map_name_spots x y]
  rfl

/-- When no topic is met twice, each has the box at its spot. -/
theorem get?_entries (hf : f.names.Nodup) {s : Spot} (hs : s ∈ spots x y f) :
    Table.get? ((spots x y f).map Spot.entry) s.name = some s.entry.2 := by
  apply Table.get?_of_mem
  · rwa [names_entries]
  · exact List.mem_map_of_mem hs

/-- The spots of a forest do not overlap. -/
theorem disjointBoxes_spots (hf : f.names.Nodup) (x : Int) (y : Rat) :
    DisjointBoxes f.names ((spots x y f).map Spot.entry) := by
  intro m hm n hn hmn
  rw [← map_name_spots x y] at hm hn
  obtain ⟨s, hs, rfl⟩ := List.mem_map.mp hm
  obtain ⟨t, ht, rfl⟩ := List.mem_map.mp hn
  refine ⟨_, _, get?_entries hf hs, get?_entries hf ht, ?_⟩
  have hapart : (spots x y f).Pairwise fun s t => s.Before t ∨ t.Before s :=
    (pairwise_spots x y f).imp .inl
  have : Std.Symm fun s t : Spot => s.Before t ∨ t.Before s := ⟨fun _ _ => Or.symm⟩
  rcases hapart.forall hs ht (fun heq => hmn (congrArg Spot.name heq)) with hst | hts
  · exact hst.not_overlaps.1
  · exact hts.not_overlaps.2

/-- The boxes of a forest of topics are those of its spots. -/
theorem exists_mindmap_eq (hg : g.IsForest) (names : List String) :
    ∃ f, g.Unfolds (trunks names g) f ∧ f.names.Nodup ∧
      mindmap .exact names g = (spots 50 50 f).map Spot.entry := by
  have hunfolds : g.Unfolds (trunks names g) (g.search [] (trunks names g)).1 := by
    apply hg.unfolds_search
    · exact nodup_eraseDups _
    · intro t ht
      rw [trunks, List.mem_eraseDups, List.mem_filter, Bool.not_eq_true'] at ht
      exact ht.2
  have hnodup := (meets_search g [] (trunks names g)).nodup_names
  exact ⟨_, hunfolds, hnodup, placeTopics_eq hg hunfolds [] 50 50 hnodup⟩

end Layout

/-! ### Mindmaps that were read -/

namespace Mindmap

/-- A new topic gets one parent at most, and older topics keep theirs. -/
theorem Scan.nodup_targets_add {s : Scan} (h : (s.edges.map Edge.target).Nodup) (hs : s.IsSound)
    (depth : Nat) (t : Topic) : ((s.add depth t).edges.map Edge.target).Nodup := by
  simp only [Scan.add]
  split
  · rw [List.map_append, List.map_singleton]
    apply List.Nodup.append h (List.nodup_singleton _)
    intro target hold hnew
    obtain ⟨e, he, rfl⟩ := List.mem_map.mp hold
    have htarget : e.target = (topic s.nodes.length depth t).id := List.mem_singleton.mp hnew
    exact hs.id_topic_notMem depth t (htarget ▸ (hs.ends e he).2)
  · exact h

/-- However the lines are indented, no topic gets a second parent. -/
theorem Scan.nodup_targets_run (lines : List (List Char)) :
    ((lines.foldl Scan.feed {}).edges.map Edge.target).Nodup := by
  have hrun : (lines.foldl Scan.feed {}).IsSound ∧
      ((lines.foldl Scan.feed {}).edges.map Edge.target).Nodup := by
    refine List.foldlRecOn
      (motive := fun s : Scan => s.IsSound ∧ (s.edges.map Edge.target).Nodup) lines Scan.feed
      ⟨Scan.isSound_empty, List.nodup_nil⟩ ?_
    intro s h line _
    exact ⟨h.1.add _ _, nodup_targets_add h.2 h.1 _ _⟩
  exact hrun.2

/-- The edges of a mindmap form a forest. -/
theorem isForest_read (lines : List (List Char)) :
    (Layout.graphOf (Mindmap.read lines).edges).IsForest where
  acyclic := isAcyclic_read lines
  nodup_targets := by
    have hnodup := Scan.nodup_targets_run (lines.filter fun l => Source.isContent l && !isIcon l)
    rw [Mindmap.read, Layout.graphOf, List.map_map, List.map_map]
    exact hnodup

end Mindmap

namespace Layout

/-- In the layout of a mindmap that was read every topic has a box, the boxes of different topics do
not overlap, and the box of a topic starts 200 units right of the box of its parent. -/
theorem mindmap_boxes_disjoint {code : String} {d : Diagram} (h : Diagram.parse code = .ok d)
    (hkind : d.kind = Dialect.mindmap) :
    ∃ boxes, d.layout .exact = .ok boxes ∧ d.names.Nodup ∧ boxes.names.Perm d.names ∧
      DisjointBoxes d.names boxes ∧
      ∀ e ∈ d.edges, ∃ parent child, boxes.get? e.source = some parent ∧
        boxes.get? e.target = some child ∧ child.x = parent.x + 200 := by
  obtain ⟨header, body, -, rfl⟩ := Diagram.eq_readBody_of_parse h
  rw [Source.readBody_of_mindmap hkind]
  have hperm := names_mindmapLayout .exact body
  have hnodup := (Mindmap.isSound_read body).nodup_names
  obtain ⟨f, hunfolds, hf, hboxes⟩ := exists_mindmap_eq (Mindmap.isForest_read body)
    ((Mindmap.read body).nodes.map Element.id)
  rw [Diagram.mindmapLayout, hboxes] at hperm
  rw [names_entries] at hperm
  refine ⟨_, congrArg Except.ok hboxes, hnodup, ?_, ?_, ?_⟩
  · rwa [names_entries]
  · intro m hm n hn
    exact disjointBoxes_spots hf 50 50 m (hperm.mem_iff.mpr hm) n (hperm.mem_iff.mpr hn)
  · intro e he
    have hsource := hperm.mem_iff.mpr ((Mindmap.isSound_read body).edge_ends e he).1
    rw [← map_name_spots 50 50] at hsource
    obtain ⟨s, hs, hname⟩ := List.mem_map.mp hsource
    have harrow : (graphOf (Mindmap.read body).edges).Arrow s.name e.target :=
      arrow_graphOf.mpr ⟨e, he, hname.symm, rfl⟩
    obtain ⟨t, ht, htarget, hleft⟩ := exists_spot_of_arrow hunfolds hs harrow
    refine ⟨_, _, hname ▸ get?_entries hf hs, htarget ▸ get?_entries hf ht, ?_⟩
    show snap .exact t.left = snap .exact s.left + 10 * 20
    rw [hleft, ← snap_add]
    push_cast
    norm_num

/-- A topic that is indented too far starts a tree of its own, and has a box of its own below. -/
theorem mindmap_boxes_disjoint_orphan :
    ∃ d boxes, Diagram.parse "mindmap\nroot\n  plan\n      far\n  act" = .ok d ∧
      d.kind = Dialect.mindmap ∧ d.names = ["node0", "node1", "node2", "node3"] ∧
      d.edges.map Connector.target = ["node1", "node3"] ∧ d.layout .exact = .ok boxes ∧
      DisjointBoxes d.names boxes := by
  have hparse : Diagram.parse "mindmap\nroot\n  plan\n      far\n  act" =
      .ok (Mindmap.read ["root".toList, "  plan".toList, "      far".toList, "  act".toList]) := by
    rfl
  obtain ⟨boxes, hboxes, -, -, hdisjoint, -⟩ := mindmap_boxes_disjoint hparse rfl
  exact ⟨_, boxes, hparse, rfl, rfl, rfl, hboxes, hdisjoint⟩

end Layout

end Diagrams
