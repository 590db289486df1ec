import Diagrams.Proofs.Layout.Terminals
import Diagrams.Proofs.Reading.Integrity

/-!
# Flowcharts completed by terminals

**Main statement** (`isCompletion_of_parse`): a flowchart that was read from text, whatever the text,
gets at most a start in front and a stop at the end, keeps what it had in between, and has no other
way in or out when these are added (`IsCompletion`). When terminals are asked for once more they are
found, and nothing is added.

What is said of a start holds of a stop when edges are looked at from their other end, so both are
a `Terminal`.

* `Terminal.Lacks` — when a terminal is added: nodes could be joined to it, and no node has its name.
* `withTerminals_eq` — the chart in one piece. The stop is looked for among nodes that hold a start
  already, which makes no difference.
* `Terminal.points_withTerminals` — which nodes no edge touches afterwards: the terminal alone when
  it is added, since its edges go to all nodes that were not touched, and the same nodes as before
  when it is not.
* `reaches_of_start`, `reaches_stop` — without cycles every way back from a node ends at an entry
  point, to which the start leads, and every way on at an exit point, which leads to the stop.
-/

namespace Diagrams.Layout

open Diagrams.Digraph

variable {d : Diagram}

/-! ### The terminals -/

/-- Where a flowchart starts and where it stops. -/
inductive Terminal where
  | start
  | stop

namespace Terminal

variable {t : Terminal}

/-- The terminal at the other end. -/
def other : Terminal → Terminal
  | start => stop
  | stop => start

/-- The node that is added. -/
def node : Terminal → Node
  | start => startNode
  | stop => stopNode

/-- The words by which a node is known to stand for the terminal. -/
def words : Terminal → List String
  | start => ["start"]
  | stop => ["stop", "end"]

/-- The edge between the terminal and a node. -/
def edge : Terminal → Element → Edge
  | start => startEdge
  | stop => stopEdge

/-- The end of an edge that is away from the terminal. -/
def far : Terminal → Connector → String
  | start => Connector.target
  | stop => Connector.source

/-- The far end of a terminal's edge is the node. -/
@[simp] theorem far_edge (t : Terminal) (n : Element) : t.far (.edge (t.edge n)) = n.id := by
  cases t <;> rfl

/-- The far end of the other terminal's edge is the other terminal. -/
@[simp] theorem far_edge_other (t : Terminal) (n : Element) :
    t.far (.edge (t.other.edge n)) = t.other.node.id := by
  cases t <;> rfl

/-- The terminals have different names. -/
theorem id_other_ne (t : Terminal) : t.other.node.id ≠ t.node.id := by
  cases t <;> decide

/-- A terminal is named like itself. -/
theorem isNamed_node (t : Terminal) : isNamed t.words (.node t.node) = true := by
  cases t <;> decide

/-! ### What is added -/

/-- The nodes that the terminal could be joined to: the entry points for the start, and the exit
points for the stop. -/
def points (t : Terminal) (nodes : List Element) (edges : List Connector) : List Element :=
  nodes.filter fun n => !edges.any fun e => t.far e == n.id

/-- The start is joined to the entry points. -/
theorem points_start (nodes : List Element) (edges : List Connector) :
    start.points nodes edges = Diagram.entryPoints nodes edges := rfl

/-- The stop is joined to the exit points. -/
theorem points_stop (nodes : List Element) (edges : List Connector) :
    stop.points nodes edges = Diagram.exitPoints nodes edges := rfl

/-- A terminal is joined to the nodes at which no edge has its far end. -/
theorem mem_points {nodes : List Element} {edges : List Connector} {n : Element} :
    n ∈ t.points nodes edges ↔ n ∈ nodes ∧ ∀ e ∈ edges, t.far e ≠ n.id := by
  simp [points]

/-- A terminal is joined to nodes of each of two lists. -/
theorem points_append (t : Terminal) (before after : List Element) (edges : List Connector) :
    t.points (before ++ after) edges = t.points before edges ++ t.points after edges :=
  List.filter_append _ _

/-- There are nodes to which the terminal could be joined, and none of the nodes stands for it. -/
def Lacks (t : Terminal) (d : Diagram) : Prop :=
  t.points d.nodes d.edges ≠ [] ∧ ¬d.nodes.any (isNamed t.words) = true

instance (t : Terminal) (d : Diagram) : Decidable (t.Lacks d) :=
  inferInstanceAs (Decidable (_ ∧ _))

/-- A terminal is added unless there is nothing to join or a node is named like it. -/
theorem not_lacks : ¬t.Lacks d ↔
    t.points d.nodes d.edges = [] ∨ d.nodes.any (isNamed t.words) = true := by
  rw [Lacks, not_and_or, not_not, not_not]

/-- The terminal, where it is added. -/
def nodes (t : Terminal) (d : Diagram) : List Element := if t.Lacks d then [.node t.node] else []

/-- Its edges. -/
def edges (t : Terminal) (d : Diagram) : List Connector :=
  if t.Lacks d then (t.points d.nodes d.edges).map fun n => .edge (t.edge n) else []

/-- A terminal that is lacking is added. -/
theorem nodes_of_lacks (h : t.Lacks d) : t.nodes d = [.node t.node] := if_pos h

/-- A terminal that is not lacking is not added. -/
theorem nodes_of_not_lacks (h : ¬t.Lacks d) : t.nodes d = [] := if_neg h

/-- A terminal that is lacking is joined to its points. -/
theorem edges_of_lacks (h : t.Lacks d) :
    t.edges d = (t.points d.nodes d.edges).map fun n => .edge (t.edge n) := if_pos h

/-- A terminal that is not lacking is joined to nothing. -/
theorem edges_of_not_lacks (h : ¬t.Lacks d) : t.edges d = [] := if_neg h

/-- What is added among the nodes is the terminal, if it is lacking. -/
theorem mem_nodes {n : Element} : n ∈ t.nodes d ↔ t.Lacks d ∧ n = .node t.node := by
  unfold nodes
  split <;> simp_all

/-- What is added among the edges joins the terminal, if it is lacking. -/
theorem mem_edges {e : Connector} : e ∈ t.edges d ↔
    t.Lacks d ∧ ∃ n ∈ t.points d.nodes d.edges, .edge (t.edge n) = e := by
  unfold edges
  split <;> simp_all

/-- No node has the name of a terminal that is added. -/
theorem Lacks.notMem_names (h : t.Lacks d) : t.node.id ∉ d.names := by
  refine Charted.not_mem_names (c := ⟨d.nodes, d.edges⟩) ?_ h.2
  cases t <;> decide

end Terminal

/-! ### The chart -/

/-- A start does not stand for a stop. -/
theorem any_isNamed_stop (d : Diagram) :
    (Terminal.start.nodes d ++ d.nodes).any (isNamed Terminal.stop.words) =
      d.nodes.any (isNamed Terminal.stop.words) := by
  have hstart : (Terminal.start.nodes d).any (isNamed Terminal.stop.words) = false := by
    unfold Terminal.nodes
    split <;> decide
  rw [List.any_append, hstart, Bool.false_or]

/-- The chart of a flowchart: what it had, with the terminals around it. -/
theorem withTerminals_eq (hkind : d.kind = Dialect.flowchart) :
    withTerminals d =
      ⟨Terminal.start.nodes d ++ d.nodes ++ Terminal.stop.nodes d,
        (Terminal.start.edges d).reverse ++ d.edges ++ Terminal.stop.edges d⟩ := by
  have hstart : Charted.addStart ⟨d.nodes, d.edges⟩ (Diagram.entryPoints d.nodes d.edges) =
      ⟨Terminal.start.nodes d ++ d.nodes, (Terminal.start.edges d).reverse ++ d.edges⟩ := by
    by_cases h : Terminal.start.Lacks d
    · rw [Terminal.nodes_of_lacks h, Terminal.edges_of_lacks h]
      exact if_neg (not_or.mpr h)
    · rw [Terminal.nodes_of_not_lacks h, Terminal.edges_of_not_lacks h]
      exact if_pos (Terminal.not_lacks.mp h)
  have hstop : ∀ front : List Connector,
      Charted.addStop ⟨Terminal.start.nodes d ++ d.nodes, front⟩
          (Diagram.exitPoints d.nodes d.edges) =
        ⟨Terminal.start.nodes d ++ d.nodes ++ Terminal.stop.nodes d,
          front ++ Terminal.stop.edges d⟩ := by
    intro front
    have hnamed := any_isNamed_stop d
    by_cases h : Terminal.stop.Lacks d
    · rw [Terminal.nodes_of_lacks h, Terminal.edges_of_lacks h]
      exact if_neg (not_or.mpr ⟨h.1, hnamed ▸ h.2⟩)
    · rw [Terminal.nodes_of_not_lacks h, Terminal.edges_of_not_lacks h, List.append_nil,
        List.append_nil]
      exact if_pos ((Terminal.not_lacks.mp h).imp_right fun hn => hnamed ▸ hn)
  rw [withTerminals_flowchart hkind, hstart, hstop]

/-- Where no terminal is missing none is added. -/
theorem withTerminals_of_not_lacks (hkind : d.kind = Dialect.flowchart)
    (h : ∀ t : Terminal, ¬t.Lacks d) : withTerminals d = ⟨d.nodes, d.edges⟩ := by
  rw [withTerminals_eq hkind, Terminal.nodes_of_not_lacks (h _), Terminal.nodes_of_not_lacks (h _),
    Terminal.edges_of_not_lacks (h _), Terminal.edges_of_not_lacks (h _), List.reverse_nil,
    List.nil_append, List.nil_append, List.append_nil, List.append_nil]

section Chart

variable (hkind : d.kind = Dialect.flowchart)
  (hends : ∀ e ∈ d.edges, e.source ∈ d.names ∧ e.target ∈ d.names)
include hkind

/-- The edges of the chart, as they are seen from a terminal. -/
theorem mem_edges_withTerminals (t : Terminal) {e : Connector} :
    e ∈ (withTerminals d).edges ↔ e ∈ t.edges d ∨ e ∈ d.edges ∨ e ∈ t.other.edges d := by
  rw [withTerminals_eq hkind, List.mem_append, List.mem_append, List.mem_reverse]
  cases t with
  | start => exact or_assoc
  | stop => exact or_comm.trans (or_congr_right or_comm)

/-! ### Ways in and out -/

include hends

/-- No edge of the chart touches a terminal from outside. -/
theorem Terminal.points_own (t : Terminal) :
    t.points (t.nodes d) (withTerminals d).edges = t.nodes d := by
  refine List.filter_eq_self.mpr fun n hn => ?_
  obtain ⟨hlacks, rfl⟩ := mem_nodes.mp hn
  have hfree : ∀ e ∈ (withTerminals d).edges, t.far e ≠ (Element.node t.node).id := by
    intro e he heq
    apply hlacks.notMem_names
    show (Element.node t.node).id ∈ d.names
    rw [← heq]
    rcases (mem_edges_withTerminals hkind t).mp he with he | he | he
    · obtain ⟨-, m, hm, rfl⟩ := mem_edges.mp he
      rw [far_edge]
      exact List.mem_map_of_mem (mem_points.mp hm).1
    · cases t with
      | start => exact (hends e he).2
      | stop => exact (hends e he).1
    · obtain ⟨-, m, -, rfl⟩ := mem_edges.mp he
      rw [far_edge_other] at heq
      exact absurd heq t.id_other_ne
  simpa using hfree

omit hends in
/-- The other terminal has an edge from outside, since it is joined to some node. -/
theorem Terminal.points_other (t : Terminal) :
    t.points (t.other.nodes d) (withTerminals d).edges = [] := by
  refine List.eq_nil_iff_forall_not_mem.mpr fun n hn => ?_
  obtain ⟨hmem, hfree⟩ := mem_points.mp hn
  obtain ⟨hlacks, rfl⟩ := mem_nodes.mp hmem
  obtain ⟨m, hm⟩ := List.exists_mem_of_ne_nil _ hlacks.1
  have he : .edge (t.other.edge m) ∈ t.other.edges d := mem_edges.mpr ⟨hlacks, m, hm, rfl⟩
  apply hfree _ ((mem_edges_withTerminals hkind t).mpr (.inr (.inr he)))
  rw [far_edge_other]
  rfl

omit hends in
/-- A terminal that is added has edges to all nodes that were not touched. -/
theorem Terminal.points_nodes (t : Terminal) :
    t.points d.nodes (withTerminals d).edges =
      if t.Lacks d then [] else t.points d.nodes d.edges := by
  split
  · rename_i hlacks
    refine List.eq_nil_iff_forall_not_mem.mpr fun n hn => ?_
    obtain ⟨hmem, hfree⟩ := mem_points.mp hn
    have hbefore : n ∈ t.points d.nodes d.edges := by
      refine mem_points.mpr ⟨hmem, fun e he => ?_⟩
      exact hfree e ((mem_edges_withTerminals hkind t).mpr (.inr (.inl he)))
    have he : .edge (t.edge n) ∈ t.edges d := mem_edges.mpr ⟨hlacks, n, hbefore, rfl⟩
    exact hfree _ ((mem_edges_withTerminals hkind t).mpr (.inl he)) (t.far_edge n)
  · rename_i hlacks
    apply List.filter_congr
    intro n hn
    -- the edges of the other terminal touch none of the nodes
    have htouched : (∀ e ∈ (withTerminals d).edges, t.far e ≠ n.id) ↔
        ∀ e ∈ d.edges, t.far e ≠ n.id := by
      simp only [mem_edges_withTerminals hkind t, edges_of_not_lacks hlacks]
      refine ⟨fun h e he => h e (.inr (.inl he)), fun h e he => ?_⟩
      rcases he with he | he | he
      · exact absurd he List.not_mem_nil
      · exact h e he
      · obtain ⟨hother, m, -, rfl⟩ := mem_edges.mp he
        rw [far_edge_other]
        exact fun heq => hother.notMem_names (heq ▸ List.mem_map_of_mem hn)
    rw [Bool.eq_iff_iff]
    simpa using htouched

/-- A terminal that is added is the only node that no edge touches from outside; otherwise there are
the same such nodes as before. -/
theorem Terminal.points_withTerminals (t : Terminal) :
    t.points (withTerminals d).nodes (withTerminals d).edges =
      if t.Lacks d then [.node t.node] else t.points d.nodes d.edges := by
  have hown := t.points_own hkind hends
  have hother := t.points_other hkind
  have hnodes := t.points_nodes hkind
  have hparts : t.points (withTerminals d).nodes (withTerminals d).edges =
      t.nodes d ++ t.points d.nodes (withTerminals d).edges ∨
      t.points (withTerminals d).nodes (withTerminals d).edges =
        t.points d.nodes (withTerminals d).edges ++ t.nodes d := by
    rw [withTerminals_eq hkind] at hown hother ⊢
    cases t with
    | start =>
      left
      dsimp only [Terminal.other] at hother
      rw [points_append, points_append, hown, hother, List.append_nil]
    | stop =>
      right
      dsimp only [Terminal.other] at hother
      rw [points_append, points_append, hown, hother, List.nil_append]
  split <;> rename_i hlacks
  · rw [if_pos hlacks] at hnodes
    rcases hparts with h | h <;> simp [h, hnodes, nodes_of_lacks hlacks]
  · rw [if_neg hlacks] at hnodes
    rcases hparts with h | h <;> simp [h, hnodes, nodes_of_not_lacks hlacks]

/-- The chart lacks no terminal any more. -/
theorem Terminal.not_lacks_withTerminals (t : Terminal) :
    t.points (withTerminals d).nodes (withTerminals d).edges = [] ∨
      (withTerminals d).nodes.any (isNamed t.words) = true := by
  have hpoints := t.points_withTerminals hkind hends
  by_cases hlacks : t.Lacks d
  · -- the terminal is known by its name
    right
    rw [if_pos hlacks] at hpoints
    have hmem : .node t.node ∈ (withTerminals d).nodes :=
      (mem_points.mp (hpoints ▸ List.mem_singleton_self _)).1
    exact List.any_eq_true.mpr ⟨_, hmem, t.isNamed_node⟩
  · rw [if_neg hlacks] at hpoints
    refine (not_lacks.mp hlacks).imp (fun hnone => hpoints.trans hnone) fun hnamed => ?_
    obtain ⟨n, hn, hword⟩ := List.any_eq_true.mp hnamed
    refine List.any_eq_true.mpr ⟨n, ?_, hword⟩
    rw [withTerminals_eq hkind]
    exact List.mem_append_left _ (List.mem_append_right _ hn)

/-- A diagram that has its terminals gets no more. -/
theorem withTerminals_withTerminals :
    withTerminals { d with nodes := (withTerminals d).nodes, edges := (withTerminals d).edges } =
      withTerminals d := by
  have hnone : ∀ t : Terminal,
      ¬t.Lacks { d with nodes := (withTerminals d).nodes, edges := (withTerminals d).edges } :=
    fun t => Terminal.not_lacks.mpr (t.not_lacks_withTerminals hkind hends)
  exact withTerminals_of_not_lacks hkind hnone

/-! ### Ways through -/

omit hends in
/-- Ways of the diagram are ways of the chart. -/
theorem reaches_withTerminals {a b : String} (h : (graphOf d.edges).Reaches a b) :
    (graphOf (withTerminals d).edges).Reaches a b := by
  refine Relation.ReflTransGen.mono (fun a b hab => ?_) _ _ h
  obtain ⟨e, he, hea, heb⟩ := arrow_graphOf.mp hab
  have hmem := (mem_edges_withTerminals hkind .start).mpr (.inr (.inl he))
  exact arrow_graphOf.mpr ⟨e, hmem, hea, heb⟩

/-- Without cycles a start that is added leads to every node. -/
theorem reaches_of_start (hacyclic : (graphOf d.edges).IsAcyclic)
    (hlacks : Terminal.start.Lacks d) {n : Element} (hn : n ∈ d.nodes) :
    (graphOf (withTerminals d).edges).Reaches startNode.id n.id := by
  obtain ⟨a, hsource, hway⟩ := hacyclic.exists_source_reaches n.id
  have ha : a ∈ d.names := by
    rcases hway.cases_head with rfl | ⟨b, hab, -⟩
    · exact List.mem_map_of_mem hn
    · obtain ⟨e, he, rfl, -⟩ := arrow_graphOf.mp hab
      exact (hends e he).1
  obtain ⟨m, hm, rfl⟩ := List.mem_map.mp ha
  have hpoint : m ∈ Terminal.start.points d.nodes d.edges := by
    refine Terminal.mem_points.mpr ⟨hm, fun e he heq => ?_⟩
    rw [isTarget_iff.mpr ⟨e.source, arrow_graphOf.mpr ⟨e, he, rfl, heq⟩⟩] at hsource
    exact nomatch hsource
  have hedge : .edge (startEdge m) ∈ Terminal.start.edges d :=
    Terminal.mem_edges.mpr ⟨hlacks, m, hpoint, rfl⟩
  refine .head (arrow_graphOf.mpr ⟨.edge (startEdge m), ?_, rfl, rfl⟩)
    (reaches_withTerminals hkind hway)
  exact (mem_edges_withTerminals hkind .start).mpr (.inl hedge)

/-- Without cycles every node leads to a stop that is added. -/
theorem reaches_stop (hacyclic : (graphOf d.edges).IsAcyclic) (hlacks : Terminal.stop.Lacks d)
    {n : Element} (hn : n ∈ d.nodes) :
    (graphOf (withTerminals d).edges).Reaches n.id stopNode.id := by
  obtain ⟨b, hsink, hway⟩ := hacyclic.exists_reaches_sink n.id
  have hb : b ∈ d.names := by
    rcases hway.cases_tail with rfl | ⟨a, -, hab⟩
    · exact List.mem_map_of_mem hn
    · obtain ⟨e, he, -, rfl⟩ := arrow_graphOf.mp hab
      exact (hends e he).2
  obtain ⟨m, hm, rfl⟩ := List.mem_map.mp hb
  have hpoint : m ∈ Terminal.stop.points d.nodes d.edges := by
    refine Terminal.mem_points.mpr ⟨hm, fun e he heq => ?_⟩
    have harrow : (graphOf d.edges).Arrow m.id e.target := arrow_graphOf.mpr ⟨e, he, heq, rfl⟩
    rw [Digraph.Arrow, hsink] at harrow
    exact List.not_mem_nil harrow
  have hedge : .edge (stopEdge m) ∈ Terminal.stop.edges d :=
    Terminal.mem_edges.mpr ⟨hlacks, m, hpoint, rfl⟩
  refine .tail (reaches_withTerminals hkind hway)
    (arrow_graphOf.mpr ⟨.edge (stopEdge m), ?_, rfl, rfl⟩)
  exact (mem_edges_withTerminals hkind .stop).mpr (.inl hedge)

end Chart

/-! ### Completed flowcharts -/

/-- A chart is a flowchart with the terminals that it lacks. -/
structure IsCompletion (d : Diagram) (c : Charted) : Prop where
  /-- A start may come before the nodes, and a stop after them. -/
  nodes : c.nodes =
    (if Terminal.start.Lacks d then [.node startNode] else []) ++ d.nodes ++
      (if Terminal.stop.Lacks d then [.node stopNode] else [])
  /-- The edges stay together in their order. -/
  edges : ∃ before after, c.edges = before ++ d.edges ++ after
  /-- No two nodes share a name. -/
  nodup : c.names.Nodup
  /-- A start is the only entry point. -/
  entry : Terminal.start.Lacks d → Diagram.entryPoints c.nodes c.edges = [.node startNode]
  /-- A stop is the only exit point. -/
  exit : Terminal.stop.Lacks d → Diagram.exitPoints c.nodes c.edges = [.node stopNode]
  /-- Terminals are not added a second time. -/
  again : withTerminals { d with nodes := c.nodes, edges := c.edges } = c
  /-- Without cycles every node is on a way from the start to the stop. -/
  between : (graphOf d.edges).IsAcyclic → Terminal.start.Lacks d → Terminal.stop.Lacks d →
    ∀ n ∈ d.nodes, (graphOf c.edges).Reaches startNode.id n.id ∧
      (graphOf c.edges).Reaches n.id stopNode.id

/-- **Main statement.** Every flowchart that was read from text is completed by its terminals. -/
theorem isCompletion_of_parse (code : String) (d : Diagram) (h : Diagram.parse code = .ok d)
    (hkind : d.kind = Dialect.flowchart) : IsCompletion d (withTerminals d) := by
  have hsound := isSound_of_parse code d h
  have hends := hsound.edge_ends
  have heq := withTerminals_eq hkind
  exact
    { nodes := congrArg Charted.nodes heq
      edges := ⟨_, _, congrArg Charted.edges heq⟩
      nodup := Charted.nodup_withTerminals hsound.nodup_names
      entry := by
        intro hlacks
        rw [← Terminal.points_start, Terminal.start.points_withTerminals hkind hends,
          if_pos hlacks]
        rfl
      exit := by
        intro hlacks
        rw [← Terminal.points_stop, Terminal.stop.points_withTerminals hkind hends, if_pos hlacks]
        rfl
      again := withTerminals_withTerminals hkind hends
      between := fun hacyclic hstart hstop n hn =>
        ⟨reaches_of_start hkind hends hacyclic hstart hn,
          reaches_stop hkind hends hacyclic hstop hn⟩ }

/-- An arrow between two nodes gets both terminals, and is not a cycle. -/
theorem isCompletion_of_parse_arrow :
    ∃ d, Diagram.parse "graph TD\nA --> B" = .ok d ∧ Terminal.start.Lacks d ∧
      Terminal.stop.Lacks d ∧ (graphOf d.edges).IsAcyclic ∧ IsCompletion d (withTerminals d) ∧
      (withTerminals d).names = ["Start", "A", "B", "Stop"] := by
  have hparse : Diagram.parse "graph TD\nA --> B" =
      .ok (Flowchart.read (Source.headerDirection "graph TD".toList) ["A --> B".toList]) := by rfl
  refine ⟨_, hparse, by decide, by decide, ?_, isCompletion_of_parse _ _ hparse rfl, by decide⟩
  have hrises : (graphOf (Flowchart.read (Source.headerDirection "graph TD".toList)
      ["A --> B".toList]).edges).Rises (fun n => if n = "A" then 0 else 1) := by
    intro a b hab
    obtain ⟨e, he, rfl, rfl⟩ := arrow_graphOf.mp hab
    clear hab
    revert e
    decide
  exact hrises.isAcyclic

end Diagrams.Layout
