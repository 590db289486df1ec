import Diagrams.Page.Mindmap
import Diagrams.Proofs.Layout.Branches

/-!
# Parents of topics

However the lines of a mindmap are indented, its edges are told by the levels of its topics
(`isHierarchy_read`): an edge leads to a topic from the last topic before it that stands one level
above (`lastAt?`), when there is such a topic, and no other edge leads to it.

The scan remembers the last topic of each depth, also when other branches have come since. So its
memory says nothing about branches, and what one more topic adds is seen from the topics alone
(`Scan.IsLinked.add`).
-/

namespace Diagrams.Mindmap

open Page (levelOf)
open Layout (graphOf arrow_graphOf)

/-! ### The last topic of a level -/

/-- The last topic of a level. -/
def lastAt? (topics : List Node) (level : Int) : Option Node :=
  topics.reverse.find? fun t => levelOf t = level

section LastAt

variable {topics : List Node} {level : Int} {t : Node}

/-- The last topic of a level is a new one of this level, or the one before. -/
theorem lastAt?_concat (topics : List Node) (t : Node) (level : Int) :
    lastAt? (topics ++ [t]) level = if levelOf t = level then some t else lastAt? topics level := by
  by_cases h : levelOf t = level <;> simp [lastAt?, h]

/-- A level has a last topic when it has one. -/
theorem exists_lastAt?_iff :
    (∃ t, lastAt? topics level = some t) ↔ ∃ t ∈ topics, levelOf t = level := by
  simp [← Option.isSome_iff_exists, lastAt?]

/-- The last topic of a level is a topic of this level. -/
theorem mem_of_lastAt? (h : lastAt? topics level = some t) : t ∈ topics ∧ levelOf t = level := by
  constructor
  · exact List.mem_reverse.mp (List.mem_of_find?_eq_some h)
  · simpa using List.find?_some h

/-- After the last topic of a level none of that level comes. -/
theorem lastAt?_eq_some_iff : lastAt? topics level = some t ↔
    ∃ before after, topics = before ++ t :: after ∧ levelOf t = level ∧
      ∀ x ∈ after, levelOf x ≠ level := by
  rw [lastAt?, List.find?_eq_some_iff_append]
  constructor
  · rintro ⟨hlevel, after, before, htopics, hafter⟩
    refine ⟨before.reverse, after.reverse, ?_, by simpa using hlevel, by simpa using hafter⟩
    rw [← List.reverse_reverse topics, htopics]
    simp
  · rintro ⟨before, after, rfl, hlevel, hafter⟩
    exact ⟨by simpa using hlevel, after.reverse, before.reverse, by simp, by simpa using hafter⟩

end LastAt

/-! ### One more topic -/

namespace Scan

variable {s : Scan} {depth : Nat} {t : Topic} {a b : String}

/-- The edges that are known. -/
def graph (s : Scan) : Digraph := graphOf (s.edges.map .edge)

/-- One more topic brings the edge from its parent, if it has one. -/
theorem arrow_add : (s.add depth t).graph.Arrow a b ↔
    s.graph.Arrow a b ∨ s.parent? depth = some a ∧ (topic s.nodes.length depth t).id = b := by
  have hedges : ∀ edges : List Edge, (graphOf (edges.map .edge)).Arrow a b ↔
      ∃ e ∈ edges, e.source = a ∧ e.target = b := by
    intro edges
    rw [arrow_graphOf]
    simp [Connector.source, Connector.target]
  rw [graph, graph, hedges, hedges]
  unfold Scan.add
  cases hparent : s.parent? depth with
  | none => simp
  | some parent => simp [or_and_right, exists_or]

/-- What is known after some lines is told by the topics. -/
structure IsLinked (s : Scan) : Prop where
  /-- No topic is at a negative level. -/
  levels : ∀ t ∈ s.nodes, 0 ≤ levelOf t
  /-- The last topic of each depth is remembered. -/
  last : ∀ depth : Nat, s.last depth = (lastAt? s.nodes depth).map Node.id
  /-- An edge leads to a topic from the last topic before it that is one level above. -/
  arrow_iff : ∀ before child after, s.nodes = before ++ child :: after → ∀ a,
    s.graph.Arrow a child.id ↔ (lastAt? before (levelOf child - 1)).map Node.id = some a

/-- Before the first line nothing is linked. -/
theorem isLinked_empty : IsLinked {} where
  levels := nofun
  last := fun _ => rfl
  arrow_iff := fun before _ _ h => by simp at h

/-- The parent of the next topic is the last one that is one level above. -/
theorem IsLinked.parent?_eq (h : s.IsLinked) (depth : Nat) :
    s.parent? depth = (lastAt? s.nodes (depth - 1)).map Node.id := by
  cases depth with
  | zero =>
    have hnone : lastAt? s.nodes (-1) = none := by
      rw [Option.eq_none_iff_forall_ne_some]
      intro t ht
      obtain ⟨hmem, hlevel⟩ := mem_of_lastAt? ht
      have hlevels := h.levels t hmem
      omega
    simp [parent?, hnone]
  | succ depth => simpa [parent?] using h.last depth

/-- **Step.** Whatever the depth of one more topic, what is known afterwards is told by the topics
as well. -/
theorem IsLinked.add (h : s.IsLinked) (hs : s.IsSound) (depth : Nat) (t : Topic) :
    (s.add depth t).IsLinked where
  levels := by
    intro n hn
    rcases List.mem_append.mp hn with hn | hn
    · exact h.levels n hn
    · obtain rfl := List.mem_singleton.mp hn
      exact Int.natCast_nonneg depth
  last := by
    intro d
    have hlevel : levelOf (topic s.nodes.length depth t) = depth := rfl
    simp only [Scan.add, lastAt?_concat, hlevel, h.last d]
    by_cases hd : d = depth
    · simp [hd]
    · simp [hd, Ne.symm hd]
  arrow_iff := by
    intro before child after hnodes a
    have hnew := hs.id_topic_notMem depth t
    rw [arrow_add]
    rcases List.eq_nil_or_concat after with rfl | ⟨after, n, rfl⟩
    · -- the new topic: no edge that was known leads to it
      obtain ⟨rfl, hchild⟩ := List.append_inj' hnodes rfl
      obtain rfl := List.singleton_inj.mp hchild
      have hold : ¬s.graph.Arrow a (topic s.nodes.length depth t).id := by
        intro harrow
        obtain ⟨c, hc, -, htarget⟩ := arrow_graphOf.mp harrow
        obtain ⟨e, he, rfl⟩ := List.mem_map.mp hc
        exact hnew (htarget ▸ (hs.ends e he).2)
      simp only [hold, false_or, and_true, h.parent?_eq]
      rfl
    · -- a topic that was there: the new edge does not lead to it
      have hsplit : s.nodes = before ++ child :: after := by
        rw [List.concat_eq_append, ← List.cons_append, ← List.append_assoc] at hnodes
        exact (List.append_inj' hnodes rfl).1
      have hchild : child.id ∈ s.nodes.map Node.id := by
        rw [hsplit]
        simp
      have hne : (topic s.nodes.length depth t).id ≠ child.id := fun heq => hnew (heq ▸ hchild)
      simp only [hne, and_false, or_false]
      exact h.arrow_iff before child after hsplit a

/-- **Run.** So it is after any lines. -/
theorem isLinked_run (lines : List (List Char)) : (lines.foldl Scan.feed {}).IsLinked := by
  have hrun : (lines.foldl Scan.feed {}).IsSound ∧ (lines.foldl Scan.feed {}).IsLinked := by
    refine List.foldlRecOn (motive := fun s : Scan => s.IsSound ∧ s.IsLinked) lines Scan.feed
      ⟨isSound_empty, isLinked_empty⟩ ?_
    intro s h line _
    exact ⟨h.1.add _ _, h.2.add h.1 _ _⟩
  exact hrun.2

/-- Each line adds a topic at its depth. -/
theorem levels_run (lines : List (List Char)) :
    (lines.foldl Scan.feed {}).nodes.map (fun t => (levelOf t, t.label)) =
      lines.map fun l => ((Mindmap.depth l : Int), (Topic.ofText (Text.trim l)).label) := by
  induction lines using List.reverseRecOn with
  | nil => rfl
  | append_singleton lines l ih =>
    rw [List.foldl_append, List.map_append, ← ih]
    simp [Scan.feed, Scan.add, topic, levelOf]

end Scan

/-! ### The edges of a mindmap -/

/-- Each topic hangs on the last topic before it that is one level above, when there is one. -/
structure IsHierarchy (topics : List Node) (g : Digraph) : Prop where
  /-- No two topics share a name. -/
  nodup : (topics.map Node.id).Nodup
  /-- A topic has a parent when some topic before it is one level above. -/
  has_parent_iff : ∀ before child after, topics = before ++ child :: after →
    ((∃ a, g.Arrow a child.id) ↔ ∃ t ∈ before, levelOf t = levelOf child - 1)
  /-- Then the parent is the last such topic. -/
  parent_iff : ∀ before child after, topics = before ++ child :: after → ∀ a,
    g.Arrow a child.id ↔ ∃ parent, lastAt? before (levelOf child - 1) = some parent ∧ parent.id = a
  /-- No topic lies below itself or has two parents. -/
  isForest : g.IsForest
  /-- Every parent comes before its child and is one level above. -/
  descends : ∀ a b, g.Arrow a b → ∃ before parent between child after,
    topics = before ++ parent :: (between ++ child :: after) ∧ parent.id = a ∧ child.id = b ∧
      levelOf child = levelOf parent + 1

/-- The topics of lines. -/
def topicsOf (lines : List (List Char)) : List Node :=
  ((lines.filter fun l => Source.isContent l && !isIcon l).foldl Scan.feed {}).nodes

/-- The nodes of a mindmap are its topics. -/
theorem nodes_read (lines : List (List Char)) :
    (Mindmap.read lines).nodes = (topicsOf lines).map .node := rfl

/-- However the lines are indented, their topics form a hierarchy. -/
theorem isHierarchy_read (lines : List (List Char)) :
    IsHierarchy (topicsOf lines) (graphOf (Mindmap.read lines).edges) := by
  have hlinked := Scan.isLinked_run (lines.filter fun l => Source.isContent l && !isIcon l)
  have hparent : ∀ before child after, topicsOf lines = before ++ child :: after → ∀ a,
      (graphOf (Mindmap.read lines).edges).Arrow a child.id ↔
        ∃ parent, lastAt? before (levelOf child - 1) = some parent ∧ parent.id = a := by
    intro before child after hsplit a
    rw [← Option.map_eq_some_iff]
    exact hlinked.arrow_iff before child after hsplit a
  refine
    { nodup := (Scan.isSound_run _).nodup, has_parent_iff := ?_, parent_iff := hparent
      isForest := isForest_read lines, descends := ?_ }
  · intro before child after hsplit
    rw [← exists_lastAt?_iff]
    simp only [hparent before child after hsplit]
    constructor
    · rintro ⟨a, parent, hlast, -⟩
      exact ⟨parent, hlast⟩
    · rintro ⟨parent, hlast⟩
      exact ⟨parent.id, parent, hlast, rfl⟩
  · intro a b harrow
    have hchild : b ∈ (topicsOf lines).map Node.id := by
      obtain ⟨e, he, -, rfl⟩ := arrow_graphOf.mp harrow
      have hends := ((isSound_read lines).edge_ends e he).2
      rwa [Diagram.names, nodes_read, List.map_map] at hends
    obtain ⟨child, hmem, rfl⟩ := List.mem_map.mp hchild
    obtain ⟨front, after, hsplit⟩ := List.append_of_mem hmem
    obtain ⟨parent, hlast, rfl⟩ := (hparent front child after hsplit a).mp harrow
    obtain ⟨before, between, rfl, hlevel, -⟩ := lastAt?_eq_some_iff.mp hlast
    exact ⟨before, parent, between, child, after, by simp [hsplit], rfl, rfl, by omega⟩

end Diagrams.Mindmap
