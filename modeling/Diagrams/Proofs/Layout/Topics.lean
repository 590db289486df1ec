import Diagrams.Parse
import Diagrams.Proofs.Layout.Overlap
import Diagrams.Proofs.Reading.Header
import Diagrams.Proofs.Reading.Integrity

/-!
# Which topics have boxes

**Main statements**: whatever the graph of the topics is like, the layout gives one box to each name
that a trunk reaches, and none to any other name (`mindmap_boxes_of_any_graph`). The boxes of a
mindmap that was read stand under the names of its topics, one for each (`names_mindmapLayout`).

* `names_placeTopics` — of a forest, exactly the names met for the first time get boxes.
* `mem_names_mindmap` — the search from the trunks meets what they reach, so that it makes no
  difference under which of its parents a topic is placed.
* `names_mindmap` — in an acyclic graph the trunks reach every name.
* `Mindmap.isAcyclic_read` — the edges of a mindmap lead from topics to later ones, however its
  lines are indented.

Without the last fact topics could be left out: a cycle of topics has no trunk.
-/

namespace Diagrams

open Diagrams.Digraph

namespace Layout

/-! ### Boxes of a forest -/

/-- The names that a forest meets for the first time get boxes, after the names that have some. -/
theorem names_placeTopics (A : Number.Arithmetic) (g : Digraph) (passed : List String) (f : Forest)
    (x : Int) (y : Rat) {boxes : Table Box} (h : (boxes.names ++ f.names).Nodup) :
    (placeTopics A g passed f x y boxes).names = boxes.names ++ f.names := by
  induction f generalizing passed x y boxes with
  | nil => simp [placeTopics, Forest.names]
  | again name rest ih =>
    rw [placeTopics]
    split
    · exact ih passed x y h
    · exact ih passed x _ h
  | first name below rest ihBelow ihRest =>
    have hnames : boxes.names ++ (Forest.first name below rest).names =
        boxes.names ++ [name] ++ below.names ++ rest.names := by
      simp [Forest.names]
    rw [hnames] at h ⊢
    have hbelow := h.of_append_left
    have hnew : name ∉ boxes.names := by
      intro hm
      exact (List.nodup_append.mp hbelow.of_append_left).2.2 name hm name (by simp) rfl
    have hinsert : ∀ box, (boxes.insert name box).names = boxes.names ++ [name] := by
      intro box
      rw [Table.names_insert, if_neg hnew]
    simp only [placeTopics]
    rw [ihRest, ihBelow, hinsert]
    · rw [hinsert]
      exact hbelow
    · rw [ihBelow, hinsert]
      · exact h
      · rw [hinsert]
        exact hbelow

/-- What holds of the box of a topic, wherever it is placed, holds of all boxes: topics start at a
left edge, and those below them a level further to the right. -/
theorem forall_placeTopics {P : Box → Prop} (starts : Int → Prop) {A : Number.Arithmetic}
    (hbox : ∀ x center, starts x → P (topicBox A x center))
    (hlevel : ∀ x, starts x → starts (x + 200)) (g : Digraph) (passed : List String) (f : Forest)
    {x : Int} (hx : starts x) (y : Rat) {boxes : Table Box} (h : ∀ e ∈ boxes, P e.2) :
    ∀ e ∈ placeTopics A g passed f x y boxes, P e.2 := by
  induction f generalizing passed x y boxes with
  | nil => exact h
  | again name rest ih =>
    rw [placeTopics]
    split
    · exact ih passed hx y h
    · exact ih passed hx _ h
  | first name below rest ihBelow ihRest =>
    refine ihRest _ hx _ (ihBelow _ (hlevel x hx) _ ?_)
    intro e he
    rcases Table.mem_of_mem_insert he with rfl | he
    · exact hbox x _ hx
    · exact h e he

/-! ### Boxes in any graph -/

variable {names : List String} {g : Digraph} {n r : String}

/-- The trunks are the listed names that no arrow leads to. -/
theorem mem_trunks : r ∈ trunks names g ↔ r ∈ names ∧ g.isTarget r = false := by
  rw [trunks, List.mem_eraseDups, List.mem_filter, Bool.not_eq_true']

/-- The boxes stand under the names that a search from the trunks meets. -/
theorem names_mindmap_eq_search (A : Number.Arithmetic) (names : List String) (g : Digraph) :
    (mindmap A names g).names = (g.search [] (trunks names g)).1.names := by
  have hempty : Table.names ([] : Table Box) = [] := rfl
  rw [mindmap, names_placeTopics, hempty, List.nil_append]
  rw [hempty, List.nil_append]
  exact (meets_search g [] (trunks names g)).nodup_names

/-- No name has two boxes. -/
theorem nodup_names_mindmap (A : Number.Arithmetic) (names : List String) (g : Digraph) :
    (mindmap A names g).names.Nodup := by
  rw [names_mindmap_eq_search]
  exact (meets_search g [] (trunks names g)).nodup_names

/-- A name has a box when it is reached from a trunk. -/
theorem mem_names_mindmap {A : Number.Arithmetic} :
    n ∈ (mindmap A names g).names ↔ ∃ r ∈ names, g.isTarget r = false ∧ g.Reaches r n := by
  rw [names_mindmap_eq_search, (meets_search g [] (trunks names g)).mem_names_iff_reaches]
  simp only [mem_trunks, and_assoc]

/-- **Main statement.** However its arrows run, a graph is laid out, and no name has two boxes. The
names with boxes are those to which a way leads from a listed name that no arrow leads to, this name
included, whether they are listed or not. Names that are reached from cycles only have none. -/
theorem mindmap_boxes_of_any_graph (A : Number.Arithmetic) (names : List String) (g : Digraph) :
    (mindmap A names g).names.Nodup ∧
    (∀ n, (∃ box, (mindmap A names g).get? n = some box) ↔
      ∃ r ∈ names, (∀ a, ¬g.Arrow a r) ∧ g.Reaches r n) ∧
    ∀ n, (∀ a, g.Reaches a n → ∃ c, Relation.TransGen g.Arrow c c ∧ g.Reaches c a) →
      (mindmap A names g).get? n = none := by
  have hbox : ∀ n, (∃ box, (mindmap A names g).get? n = some box) ↔
      ∃ r ∈ names, (∀ a, ¬g.Arrow a r) ∧ g.Reaches r n := by
    intro n
    simp only [Table.exists_get?_iff, mem_names_mindmap, ← Bool.not_eq_true, isTarget_iff,
      not_exists]
  refine ⟨nodup_names_mindmap A names g, hbox, fun n hcycles => ?_⟩
  by_contra hsome
  obtain ⟨r, -, hsource, hrn⟩ := (hbox n).mp (Option.ne_none_iff_exists'.mp hsome)
  obtain ⟨c, hcycle, hcr⟩ := hcycles r hrn
  -- a way from the cycle enters `r` by an arrow, and so does the cycle itself
  rcases hcr.cases_tail with rfl | ⟨b, -, hbr⟩
  · obtain ⟨b, -, hbr⟩ := Relation.TransGen.tail'_iff.mp hcycle
    exact hsource b hbr
  · exact hsource b hbr

/-- A topic with two parents, arrows written twice, cycles, and a name that is not listed. -/
example :
    (mindmap .exact ["x", "a", "b", "c", "a", "z"]
      ⟨[("a", "b"), ("a", "c"), ("c", "b"), ("b", "c"), ("a", "b"), ("x", "y"), ("y", "x"),
        ("y", "z"), ("c", "far")]⟩).names = ["a", "b", "c", "far"] := by
  cbv

/-- In an acyclic graph on the names, a search from those that no arrow leads to meets them all. -/
theorem names_search_perm {targets : List String}
    (htargets : ∀ t, t ∈ targets ↔ t ∈ names ∧ g.isTarget t = false) (hnodup : names.Nodup)
    (hwithin : g.within names = g) (hacyclic : g.IsAcyclic) :
    (g.search [] targets).1.names.Perm names := by
  have hmeets := meets_search g [] targets
  rw [List.perm_ext_iff_of_nodup hmeets.nodup_names hnodup]
  intro n
  rw [hmeets.mem_names_iff_reaches]
  constructor
  · rintro ⟨r, hr, hrn⟩
    rw [← hwithin] at hrn
    exact mem_of_reaches_within ((htargets r).mp hr).1 hrn
  · intro hn
    rw [← hwithin] at hacyclic
    obtain ⟨r, hr, hrn⟩ := exists_root hacyclic hn
    rw [hacyclic.mem_roots_within] at hr
    rw [hwithin] at hr hrn
    exact ⟨r, (htargets r).mpr hr, hrn⟩

/-- In an acyclic graph on the names every name gets a box. -/
theorem names_mindmap (A : Number.Arithmetic) (hnodup : names.Nodup)
    (hwithin : g.within names = g) (hacyclic : g.IsAcyclic) :
    (mindmap A names g).names.Perm names := by
  rw [names_mindmap_eq_search]
  exact names_search_perm (fun _ => mem_trunks) hnodup hwithin hacyclic

end Layout

/-! ### Topics lead to later ones -/

namespace Mindmap

/-- Every edge leads from a topic to a later one. -/
def Scan.IsOrdered (s : Scan) : Prop :=
  ∀ e ∈ s.edges, (s.nodes.map Node.id).idxOf e.source < (s.nodes.map Node.id).idxOf e.target

variable {s : Scan}

/-- A new topic has a name of its own. -/
theorem Scan.IsSound.id_topic_notMem (h : s.IsSound) (depth : Nat) (t : Topic) :
    (topic s.nodes.length depth t).id ∉ s.nodes.map Node.id := by
  have hids : (s.add depth t).nodes.map Node.id =
      s.nodes.map Node.id ++ [(topic s.nodes.length depth t).id] := List.map_append
  have hnodup := (h.add depth t).nodup
  rw [hids, List.nodup_append] at hnodup
  exact fun hm => hnodup.2.2 _ hm _ List.mem_cons_self rfl

/-- A new topic comes after its parent. -/
theorem Scan.IsOrdered.add (h : s.IsOrdered) (hs : s.IsSound) (depth : Nat) (t : Topic) :
    (s.add depth t).IsOrdered := by
  have hids : (s.add depth t).nodes.map Node.id =
      s.nodes.map Node.id ++ [(topic s.nodes.length depth t).id] := List.map_append
  have hnew := hs.id_topic_notMem depth t
  have hold : ∀ e ∈ s.edges,
      ((s.add depth t).nodes.map Node.id).idxOf e.source <
        ((s.add depth t).nodes.map Node.id).idxOf e.target := by
    intro e he
    obtain ⟨hsource, htarget⟩ := hs.ends e he
    rw [hids, List.idxOf_append_of_mem hsource, List.idxOf_append_of_mem htarget]
    exact h e he
  intro e he
  simp only [Scan.add] at he
  split at he
  · rename_i parent hparent
    rcases List.mem_append.mp he with he | he
    · exact hold e he
    · have hmem := hs.mem_of_parent? hparent
      rw [List.mem_singleton.mp he, hids, List.idxOf_append_of_mem hmem,
        List.idxOf_append_of_notMem hnew]
      exact Nat.lt_add_right _ (List.idxOf_lt_length_iff.mpr hmem)
  · exact hold e he

/-- However the lines are indented, edges lead to later topics. -/
theorem Scan.isOrdered_run (lines : List (List Char)) : (lines.foldl Scan.feed {}).IsOrdered := by
  have hrun : (lines.foldl Scan.feed {}).IsSound ∧ (lines.foldl Scan.feed {}).IsOrdered := by
    refine List.foldlRecOn (motive := fun s : Scan => s.IsSound ∧ s.IsOrdered) lines Scan.feed
      ⟨Scan.isSound_empty, fun _ he => absurd he List.not_mem_nil⟩ ?_
    intro s h line _
    exact ⟨h.1.add _ _, h.2.add h.1 _ _⟩
  exact hrun.2

/-- No topic lies below itself. -/
theorem isAcyclic_read (lines : List (List Char)) :
    (Layout.graphOf (Mindmap.read lines).edges).IsAcyclic := by
  have hordered := Scan.isOrdered_run (lines.filter fun l => Source.isContent l && !isIcon l)
  have hrises : (Layout.graphOf (Mindmap.read lines).edges).Rises
      ((Mindmap.read lines).nodes.map Element.id).idxOf := by
    intro a b hab
    obtain ⟨c, hc, rfl, rfl⟩ := Layout.arrow_graphOf.mp hab
    obtain ⟨e, he, rfl⟩ := List.mem_map.mp hc
    rw [Mindmap.read, List.map_map]
    exact hordered e he
  exact hrises.isAcyclic

end Mindmap

/-- Every topic of a mindmap that was read has a box. -/
theorem Layout.names_mindmapLayout (A : Number.Arithmetic) (lines : List (List Char)) :
    ((Mindmap.read lines).mindmapLayout A).names.Perm
      ((Mindmap.read lines).nodes.map Element.id) := by
  have hsound := Mindmap.isSound_read lines
  exact names_mindmap A hsound.nodup_names (within_graphOf hsound.edge_ends)
    (Mindmap.isAcyclic_read lines)

end Diagrams
