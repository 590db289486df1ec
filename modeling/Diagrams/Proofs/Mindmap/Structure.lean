import Diagrams.Proofs.Conversion
import Diagrams.Proofs.Graph.Search
import Diagrams.Proofs.Mindmap.Outline
import Diagrams.Text.Numeral

/-!
# The page of an outline shows the outline

**Main statement** (`parse_text_and_structure`): the text of an outline is read as its diagram, and
the list under the heading `Structure` on the page of that diagram has one bullet for each topic, in
the order of the lines and with the same indentation.

The page does not know the outline any more, but searches the graph of the edges from the topics
that no edge leads to. Three facts bring the outline back:

* the links from a topic lead to the topics right below it, in their order (`follows_links`);
* no link leads to the outermost topics, and one leads to each other topic (`filter_not_target`);
* a search along such links meets the topics as they stand in the outline (`search_heads`), because
  the numbers of an outline's topics are its own, so none was seen before.
-/

namespace Diagrams.Mindmap.Outline

open Layout

/-! ### The forest of an outline -/

/-- The numbers of the outermost topics, when the topics are numbered from `n`. -/
def heads (n : Nat) : Outline → List Nat
  | nil => []
  | topic _ below rest => n :: rest.heads (n + 1 + below.size)

/-- The topics as a search meets them. -/
def forest (n : Nat) : Outline → Forest
  | nil => .nil
  | topic _ below rest =>
    .first (nodeName n) (below.forest (n + 1)) (rest.forest (n + 1 + below.size))

/-- Names are told apart by their numbers. -/
theorem nodeName_inj {m n : Nat} : nodeName m = nodeName n ↔ m = n :=
  ⟨Text.append_toString_inj, congrArg nodeName⟩

/-- A topic has the first number, then come those below it and those after it. -/
theorem range'_size_topic (title : Title) (below rest : Outline) (n : Nat) :
    List.range' n (topic title below rest).size =
      n :: (List.range' (n + 1) below.size ++ List.range' (n + 1 + below.size) rest.size) := by
  rw [size, List.range'_succ, List.range'_append_1]

/-- The forest of an outline has the names in their order. -/
theorem names_forest (o : Outline) (n : Nat) :
    (o.forest n).names = (List.range' n o.size).map nodeName := by
  induction o generalizing n with
  | nil => rfl
  | topic title below rest ihBelow ihRest =>
    rw [forest, Forest.names, ihBelow, ihRest, range'_size_topic, List.map_cons, List.map_append,
      List.cons_append]

/-- The forest of an outline lists the topics with their depths. -/
theorem outline_forest (o : Outline) (n depth : Nat) :
    (o.forest n).outline depth =
      ((o.topics depth).zipIdx n).map fun x => (x.1.1, nodeName x.2) := by
  induction o generalizing n depth with
  | nil => rfl
  | topic title below rest ihBelow ihRest =>
    simp [forest, Forest.outline, topics, List.zipIdx_append, ihBelow, ihRest, length_topics,
      Nat.add_assoc]

/-! ### Links -/

/-- Where the links from a topic lead. -/
def children (ls : List (Nat × Nat)) (k : Nat) : List Nat := (ls.filter fun l => l.1 = k).map (·.2)

/-- The children are found in each of two lists of links. -/
theorem children_append (ls ls' : List (Nat × Nat)) (k : Nat) :
    children (ls ++ ls') k = children ls k ++ children ls' k := by
  simp [children]

/-- Without a link from it a topic has no children. -/
theorem children_eq_nil {ls : List (Nat × Nat)} {k : Nat} (h : ∀ l ∈ ls, l.1 ≠ k) :
    children ls k = [] := by
  simpa [children] using fun a b hl => h (a, b) hl

/-- A link of an outline leads from its parent or one of its topics to one of its topics. -/
theorem bounds_of_mem_links {o : Outline} {parent : Option Nat} {n : Nat} {l : Nat × Nat}
    (h : l ∈ o.links parent n) :
    (parent = some l.1 ∨ n ≤ l.1 ∧ l.1 < n + o.size) ∧ n ≤ l.2 ∧ l.2 < n + o.size := by
  induction o generalizing parent n with
  | nil => exact absurd h List.not_mem_nil
  | topic title below rest ihBelow ihRest =>
    rw [links, List.mem_append, List.mem_append] at h
    rw [size]
    rcases h with h | h | h
    · cases parent with
      | none => exact absurd h List.not_mem_nil
      | some p =>
        obtain rfl : l = (p, n) := List.mem_singleton.mp h
        exact ⟨.inl rfl, Nat.le_refl n, by omega⟩
    · obtain ⟨hsource, hlo, hhi⟩ := ihBelow h
      refine ⟨.inr ?_, by omega, by omega⟩
      rcases hsource with hsource | hsource
      · rw [Option.some.injEq] at hsource
        omega
      · omega
    · obtain ⟨hsource, hlo, hhi⟩ := ihRest h
      exact ⟨hsource.imp_right fun hs => by omega, by omega, by omega⟩

/-- The outermost topics hang on the parent. -/
theorem children_links_parent (o : Outline) {p n : Nat} (h : p < n) :
    children (o.links (some p) n) p = o.heads n := by
  induction o generalizing n with
  | nil => rfl
  | topic title below rest ihBelow ihRest =>
    have hbelow : children (below.links (some n) (n + 1)) p = [] := by
      apply children_eq_nil
      intro l hl
      have hbounds := bounds_of_mem_links hl
      rw [Option.some.injEq] at hbounds
      omega
    have hrest := ihRest (n := n + 1 + below.size) (by omega)
    rw [links, children_append, children_append, hbelow, hrest]
    simp [children, heads]

/-- Such successors lead from each topic to those right below it. -/
def Follows (next : Nat → List Nat) (n : Nat) : Outline → Prop
  | nil => True
  | topic _ below rest =>
    next n = below.heads (n + 1) ∧ below.Follows next (n + 1) ∧
      rest.Follows next (n + 1 + below.size)

/-- Only what follows the topics of the outline matters. -/
theorem Follows.congr {next next' : Nat → List Nat} {o : Outline} {n : Nat} (h : o.Follows next n)
    (heq : ∀ k, n ≤ k → k < n + o.size → next k = next' k) : o.Follows next' n := by
  induction o generalizing n with
  | nil => trivial
  | topic title below rest ihBelow ihRest =>
    obtain ⟨hown, hbelow, hrest⟩ := h
    rw [size] at heq
    refine ⟨?_, ihBelow hbelow fun k hlo hhi => heq k (by omega) (by omega),
      ihRest hrest fun k hlo hhi => heq k (by omega) (by omega)⟩
    rw [← heq n (by omega) (by omega), hown]

/-- The links of an outline lead from each topic to those right below it. -/
theorem follows_links (o : Outline) {parent : Option Nat} {n : Nat} (h : ∀ p ∈ parent, p < n) :
    o.Follows (children (o.links parent n)) n := by
  induction o generalizing parent n with
  | nil => trivial
  | topic title below rest ihBelow ihRest =>
    have hown : ∀ k, n ≤ k → children (parent.map fun p => (p, n)).toList k = [] := by
      intro k hk
      apply children_eq_nil
      cases parent with
      | none => simp
      | some p =>
        intro l hl
        obtain rfl : l = (p, n) := List.mem_singleton.mp hl
        exact Nat.ne_of_lt (Nat.lt_of_lt_of_le (h p rfl) hk)
    have hbelow : ∀ k, n + 1 + below.size ≤ k → children (below.links (some n) (n + 1)) k = [] := by
      intro k hk
      apply children_eq_nil
      intro l hl
      have hbounds := bounds_of_mem_links hl
      rw [Option.some.injEq] at hbounds
      omega
    have hrest : ∀ k, n ≤ k → k < n + 1 + below.size →
        children (rest.links parent (n + 1 + below.size)) k = [] := by
      intro k hlo hhi
      apply children_eq_nil
      intro l hl
      rcases (bounds_of_mem_links hl).1 with hparent | hbounds
      · have hp := h l.1 hparent
        omega
      · omega
    rw [links]
    refine ⟨?_, ?_, ?_⟩
    · rw [children_append, children_append, hown n (Nat.le_refl n),
        children_links_parent below (Nat.lt_succ_self n), hrest n (Nat.le_refl n) (by omega),
        List.nil_append, List.append_nil]
    · have hlinks : below.Follows (children (below.links (some n) (n + 1))) (n + 1) :=
        ihBelow (by simp)
      refine hlinks.congr fun k hlo hhi => ?_
      rw [children_append, children_append, hown k (by omega), hrest k (by omega) (by omega),
        List.nil_append, List.append_nil]
    · have hlinks : rest.Follows (children (rest.links parent (n + 1 + below.size)))
          (n + 1 + below.size) := by
        apply ihRest
        intro p hp
        have hlt := h p hp
        omega
      refine hlinks.congr fun k hlo hhi => ?_
      rw [children_append, children_append, hown k (by omega), hbelow k (by omega),
        List.nil_append, List.nil_append]

/-- A link leads to each topic that hangs on another one. -/
theorem targets_links_some (o : Outline) (p n : Nat) :
    (o.links (some p) n).map (·.2) = List.range' n o.size := by
  induction o generalizing p n with
  | nil => rfl
  | topic title below rest ihBelow ihRest =>
    rw [links, List.map_append, List.map_append, ihBelow, ihRest, range'_size_topic]
    rfl

/-- No link leads to the outermost topics, and one leads to each other topic. -/
theorem filter_not_target (o : Outline) (n : Nat) :
    ((List.range' n o.size).filter fun k => k ∉ (o.links none n).map (·.2)) = o.heads n := by
  induction o generalizing n with
  | nil => rfl
  | topic title below rest ihBelow ihRest =>
    have htargets : ((topic title below rest).links none n).map (·.2) =
        List.range' (n + 1) below.size ++
          (rest.links none (n + 1 + below.size)).map (·.2) := by
      rw [links, List.map_append, List.map_append, targets_links_some]
      rfl
    have hlater : ∀ k ∈ (rest.links none (n + 1 + below.size)).map (·.2), n + 1 + below.size ≤ k := by
      intro k hk
      obtain ⟨l, hl, rfl⟩ := List.mem_map.mp hk
      exact (bounds_of_mem_links hl).2.1
    have hown : n ∉ ((topic title below rest).links none n).map (·.2) := by
      rw [htargets, List.mem_append, List.mem_range'_1]
      rintro (h | h)
      · omega
      · have hle := hlater n h
        omega
    have hbelow : (List.range' (n + 1) below.size).filter
        (fun k => k ∉ ((topic title below rest).links none n).map (·.2)) = [] := by
      rw [List.filter_eq_nil_iff, htargets]
      intro k hk
      simpa using fun h => absurd (List.mem_range'_1.mp hk) (by omega)
    have hrest : (List.range' (n + 1 + below.size) rest.size).filter
        (fun k => k ∉ ((topic title below rest).links none n).map (·.2)) =
          rest.heads (n + 1 + below.size) := by
      rw [← ihRest, htargets]
      apply List.filter_congr
      intro k hk
      have hnot : k ∉ List.range' (n + 1) below.size := by
        rw [List.mem_range'_1] at hk ⊢
        omega
      simp [hnot]
    rw [range'_size_topic, List.filter_cons_of_pos (by simpa using hown), List.filter_append, hbelow,
      hrest, List.nil_append, heads]

/-! ### The search -/

variable {g : Digraph}

/-- A search along the links of an outline meets the topics as they stand in it. -/
theorem search_heads (o : Outline) {next : Nat → List Nat} {n : Nat} {seen : List String}
    (hg : ∀ k, g.next (nodeName k) = (next k).map nodeName) (hnext : o.Follows next n)
    (hseen : ∀ k, n ≤ k → k < n + o.size → nodeName k ∉ seen) :
    (g.search seen ((o.heads n).map nodeName)).1 = o.forest n := by
  induction o generalizing n seen with
  | nil => rw [heads, List.map_nil, Digraph.search_nil, forest]
  | topic title below rest ihBelow ihRest =>
    obtain ⟨hown, hbelow, hrest⟩ := hnext
    rw [size] at hseen
    have hnew : nodeName n ∉ seen := hseen n (by omega) (by omega)
    have hforest : (g.search (nodeName n :: seen) (g.next (nodeName n))).1 = below.forest (n + 1) := by
      rw [hg, hown]
      apply ihBelow hbelow
      intro k hlo hhi
      rw [List.mem_cons, not_or]
      exact ⟨fun hk => by rw [nodeName_inj] at hk; omega, hseen k (by omega) (by omega)⟩
    have hmet := g.meets_search (nodeName n :: seen) (g.next (nodeName n))
    rw [hforest] at hmet
    have hforest' : (g.search (g.search (nodeName n :: seen) (g.next (nodeName n))).2
        ((rest.heads (n + 1 + below.size)).map nodeName)).1 = rest.forest (n + 1 + below.size) := by
      apply ihRest hrest
      intro k hlo hhi hk
      rw [hmet.mem_seen_iff, names_forest, List.mem_cons, nodeName_inj, List.mem_map] at hk
      rcases hk with (hk | hk) | ⟨m, hm, hk⟩
      · omega
      · exact hseen k (by omega) (by omega) hk
      · rw [nodeName_inj] at hk
        rw [List.mem_range'_1] at hm
        omega
    rw [heads, List.map_cons, Digraph.search_cons_of_not_mem g hnew, forest, hforest, hforest']

/-! ### The graph of the edges -/

/-- The nodes have the names in their order. -/
theorem names_nodes (ts : List (Nat × Title)) :
    (nodes ts).map Node.id = (List.range' 0 ts.length).map nodeName := by
  rw [nodes, List.map_map, ← List.zipIdx_map_snd 0 ts, List.map_map]
  rfl

/-- The arrows are the links. -/
theorem arrows_edges (ls : List (Nat × Nat)) :
    (graphOf ((edges ls).map .edge)).arrows = ls.map fun l => (nodeName l.1, nodeName l.2) := by
  rw [graphOf, edges, List.map_map, List.map_map]
  conv_rhs => rw [← List.zipIdx_map_fst 0 ls, List.map_map]
  rfl

/-- A name leads to the children of its topic. -/
theorem next_edges (ls : List (Nat × Nat)) (k : Nat) :
    (graphOf ((edges ls).map .edge)).next (nodeName k) = (children ls k).map nodeName := by
  rw [Digraph.next, arrows_edges, children, List.filter_map, List.map_map, List.map_map]
  have hsource : ∀ l : Nat × Nat, (nodeName l.1 == nodeName k) = decide (l.1 = k) := by
    intro l
    rw [Bool.eq_iff_iff, beq_iff_eq, decide_eq_true_eq, nodeName_inj]
  simp [Function.comp_def, hsource]

/-- An arrow leads to the names of the topics to which a link leads. -/
theorem isTarget_edges (ls : List (Nat × Nat)) (k : Nat) :
    (graphOf ((edges ls).map .edge)).isTarget (nodeName k) = decide (k ∈ ls.map (·.2)) := by
  rw [Digraph.isTarget, arrows_edges, Bool.eq_iff_iff, decide_eq_true_eq, List.any_map,
    List.any_eq_true, List.mem_map]
  simp [nodeName_inj]

/-- Edges join topics. -/
theorem ends_edges (o : Outline) :
    ∀ e ∈ (edges (o.links none 0)).map Connector.edge,
      e.source ∈ (List.range' 0 o.size).map nodeName ∧
        e.target ∈ (List.range' 0 o.size).map nodeName := by
  intro e he
  rw [edges, List.map_map] at he
  obtain ⟨⟨l, i⟩, hl, rfl⟩ := List.mem_map.mp he
  have hmem : l ∈ o.links none 0 := List.fst_mem_of_mem_zipIdx hl
  have hbounds := bounds_of_mem_links hmem
  rw [← List.mem_range'_1, ← List.mem_range'_1] at hbounds
  exact ⟨List.mem_map_of_mem (hbounds.1.resolve_left (Option.some_ne_none _).symm),
    List.mem_map_of_mem hbounds.2⟩

/-- The page finds the topics with their depths. -/
theorem outline_edges (o : Outline) :
    Page.outline ((nodes (o.topics 0)).map Node.id) (graphOf ((edges (o.links none 0)).map .edge)) =
      (o.topics 0).zipIdx.map fun x => (x.1.1, nodeName x.2) := by
  have htrunks : ((List.range' 0 o.size).map nodeName).filter
      (fun n => !(graphOf ((edges (o.links none 0)).map .edge)).isTarget n) =
        (o.heads 0).map nodeName := by
    rw [← filter_not_target o 0, List.filter_map]
    simp [Function.comp_def, isTarget_edges]
  rw [Page.outline, names_nodes, length_topics, within_graphOf (ends_edges o), htrunks,
    search_heads o (next_edges _) (follows_links o (by simp)) (fun _ _ _ => List.not_mem_nil),
    outline_forest]

/-! ### The list -/

/-- The bullet of a topic, indented by two blanks for each level. -/
def bullet (x : Nat × Title) : String :=
  String.ofList (List.replicate (2 * x.1) ' ') ++ "- **" ++ (Topic.ofText x.2.chars).label ++ "**"

/-- Each topic is listed under its label. -/
theorem outlineItems_nodes (o : Outline) :
    Page.outlineItems (nodes (o.topics 0)) (graphOf ((edges (o.links none 0)).map .edge)) =
      (o.topics 0).map fun x => (x.1, "**" ++ (Topic.ofText x.2.chars).label ++ "**") := by
  have hnodup : ((nodes (o.topics 0)).map Node.id).Nodup := by
    rw [names_nodes]
    exact List.Nodup.map (fun _ _ => nodeName_inj.mp) List.nodup_range'
  have hmem : ∀ x ∈ (o.topics 0).zipIdx.map fun x => (x.1.1, node x.2 x.1.1 x.1.2),
      x.2 ∈ nodes (o.topics 0) := by
    intro x hx
    obtain ⟨y, hy, rfl⟩ := List.mem_map.mp hx
    exact List.mem_map_of_mem hy
  rw [Page.outlineItems_eq hnodup hmem (by rw [outline_edges, List.map_map]; rfl), List.map_map]
  conv_rhs => rw [← List.zipIdx_map_fst 0 (o.topics 0), List.map_map]
  rfl

/-- No topic of an outline is at a negative level. -/
theorem levelOf_nodes (ts : List (Nat × Title)) : ∀ n ∈ nodes ts, 0 ≤ Page.levelOf n := by
  intro n hn
  obtain ⟨x, -, rfl⟩ := List.mem_map.mp hn
  exact Int.natCast_nonneg x.1.1

/-- **Main statement.** The text of an outline is read as its diagram, and the page of this diagram
lists the outline under `Structure`. -/
theorem parse_text_and_structure (o : Outline) :
    Diagram.parse o.text = .ok o.diagram ∧
      ∀ code, ∃ page, o.diagram.mindmapPage code = .ok page ∧
        (Page.under "Structure" page).flatMap Block.lines =
          "" :: ((o.topics 0).map bullet ++ [""]) := by
  refine ⟨o.parse_text, fun code => ?_⟩
  obtain ⟨page, hpage, hunder⟩ := Diagram.exists_mindmapPage (d := o.diagram) rfl
    (levelOf_nodes (o.topics 0)) code
  have hitems : Page.outlineItems (nodes (o.topics 0)) (graphOf o.diagram.edges) =
      (o.topics 0).map fun x => (x.1, "**" ++ (Topic.ofText x.2.chars).label ++ "**") :=
    outlineItems_nodes o
  refine ⟨page, hpage, ?_⟩
  rw [hunder, hitems]
  have hdash : ∀ t : String, "- " ++ ("**" ++ t) = "- **" ++ t := by
    intro t
    rw [← String.append_assoc]
    rfl
  simp [Block.lines, bullet, String.append_assoc, Function.comp_def, hdash]

end Diagrams.Mindmap.Outline
