import Diagrams.Layout
import Diagrams.Proofs.Graph.Reach
import Diagrams.Proofs.Parts

/-!
# Terminals of a flowchart

* `Charted.nodup_withTerminals` — terminals have names of their own.
* `Charted.IsJoined` — edges join nodes, those of terminals included (`isJoined_withTerminals`).
* `Charted.IsSound` — nodes with distinct names and edges that join them without a cycle; terminals
  keep a chart so (`IsSound.addStart`, `IsSound.addStop`).
* `Charted.isTarget_addStart`, `Charted.isTarget_addStop` — where a start is added, an edge leads to
  every other node.
* `chart_eq_ok`, `chart_eq_of_nodes` — when there is a chart, and which it is.
-/

namespace Diagrams.Layout

open Diagrams.Digraph

/-! ### The edges' graph -/

/-- An arrow of the edges' graph is one of the edges. -/
theorem arrow_graphOf {edges : List Connector} {a b : String} :
    (graphOf edges).Arrow a b ↔ ∃ e ∈ edges, e.source = a ∧ e.target = b := by
  rw [arrow_iff, graphOf, List.mem_map]
  simp only [Prod.mk.injEq]

/-- All edges are known when they join listed names. -/
theorem within_graphOf {names : List String} {edges : List Connector}
    (h : ∀ e ∈ edges, e.source ∈ names ∧ e.target ∈ names) :
    (graphOf edges).within names = graphOf edges := by
  have hall : (graphOf edges).arrows.filter
      (fun r => names.contains r.1 && names.contains r.2) = (graphOf edges).arrows := by
    refine List.filter_eq_self.mpr fun r hr => ?_
    obtain ⟨e, he, rfl⟩ := List.mem_map.mp hr
    simp [h e he]
  unfold within
  rw [hall]

namespace Charted

/-- The names of the nodes. -/
def names (c : Charted) : List String := c.nodes.map Element.id

variable {c : Charted}

/-- The names of a chart are those of its nodes. -/
theorem names_eq {nodes : List Node} (h : c.nodes = nodes.map .node) :
    c.names = nodes.map Node.id := by
  rw [names, h, List.map_map]
  rfl

/-- A terminal that none of the nodes stands for has a name of its own. -/
theorem not_mem_names {words : List String} {id : String}
    (hid : String.ofList (Text.lower id.toList) ∈ words)
    (h : ¬c.nodes.any (isNamed words) = true) : id ∉ c.names := by
  intro hm
  obtain ⟨n, hn, rfl⟩ := List.mem_map.mp hm
  exact h (List.any_eq_true.mpr ⟨n, hn, by simp [isNamed, hid]⟩)

/-- With a start the names still differ. -/
theorem nodup_addStart (h : c.names.Nodup) (starts : List Element) :
    (c.addStart starts).names.Nodup := by
  unfold Charted.addStart
  split
  · exact h
  · rename_i hif
    rw [not_or] at hif
    exact List.nodup_cons.mpr ⟨not_mem_names (by decide) hif.2, h⟩

/-- The names with a stop behind them. -/
theorem names_append_stop (c : Charted) (edges : List Connector) :
    names ⟨c.nodes ++ [.node stopNode], edges⟩ = c.names ++ [stopNode.id] := List.map_append

/-- With a stop the names still differ. -/
theorem nodup_addStop (h : c.names.Nodup) (stops : List Element) :
    (c.addStop stops).names.Nodup := by
  unfold Charted.addStop
  split
  · exact h
  · rename_i hif
    rw [not_or] at hif
    rw [names_append_stop, List.nodup_append]
    refine ⟨h, by simp, ?_⟩
    rintro a ha b hb rfl
    exact not_mem_names (by decide) hif.2 (List.mem_singleton.mp hb ▸ ha)

/-- Terminals have names of their own. -/
theorem nodup_withTerminals {d : Diagram} (h : (d.nodes.map Element.id).Nodup) :
    (withTerminals d).names.Nodup := by
  unfold withTerminals
  split
  · exact h
  · exact nodup_addStop (nodup_addStart (c := ⟨d.nodes, d.edges⟩) h _) _

/-! ### Edges between nodes -/

/-- Every edge joins nodes. -/
def IsJoined (c : Charted) : Prop := ∀ e ∈ c.edges, e.source ∈ c.names ∧ e.target ∈ c.names

/-- A start is joined to nodes. -/
theorem IsJoined.addStart (h : c.IsJoined) {starts : List Element}
    (hs : ∀ n ∈ starts, n ∈ c.nodes) : (c.addStart starts).IsJoined := by
  unfold Charted.addStart
  split
  · exact h
  · intro e he
    rcases List.mem_append.mp he with he | he
    · obtain ⟨n, hn, rfl⟩ := List.mem_map.mp (List.mem_reverse.mp he)
      have hname : n.id ∈ c.names := List.mem_map_of_mem (hs n hn)
      exact ⟨List.mem_cons_self, List.mem_cons_of_mem _ hname⟩
    · exact (h e he).imp (List.mem_cons_of_mem _) (List.mem_cons_of_mem _)

/-- A stop is joined to nodes. -/
theorem IsJoined.addStop (h : c.IsJoined) {stops : List Element}
    (hs : ∀ n ∈ stops, n ∈ c.nodes) : (c.addStop stops).IsJoined := by
  unfold Charted.addStop
  split
  · exact h
  · intro e he
    rw [names_append_stop]
    rcases List.mem_append.mp he with he | he
    · exact (h e he).imp (List.mem_append_left _) (List.mem_append_left _)
    · obtain ⟨n, hn, rfl⟩ := List.mem_map.mp he
      have hname : n.id ∈ c.names := List.mem_map_of_mem (hs n hn)
      exact ⟨List.mem_append_left _ hname, List.mem_append_right _ List.mem_cons_self⟩

/-! ### Charts without cycles -/

/-- The nodes have distinct names, and the edges join nodes and form no cycle. -/
structure IsSound (c : Charted) : Prop where
  /-- The names are distinct. -/
  nodup : c.names.Nodup
  /-- Edges join nodes. -/
  ends : ∀ e ∈ c.edges, e.source ∈ c.names ∧ e.target ∈ c.names
  /-- Edges form no cycle. -/
  acyclic : (graphOf c.edges).IsAcyclic

/-- An arrow between nodes does not touch a new name. -/
theorem IsSound.ne_of_arrow (h : c.IsSound) {new : String} (hnew : new ∉ c.names) {a b : String}
    (hab : (graphOf c.edges).Arrow a b) : a ≠ new ∧ b ≠ new := by
  obtain ⟨e, he, rfl, rfl⟩ := arrow_graphOf.mp hab
  exact ⟨fun hc => hnew (hc ▸ (h.ends e he).1), fun hc => hnew (hc ▸ (h.ends e he).2)⟩

/-- A start goes in front of all nodes. -/
theorem IsSound.addStart (h : c.IsSound) {starts : List Element} (hs : ∀ n ∈ starts, n ∈ c.nodes) :
    (c.addStart starts).IsSound := by
  have hnodup := nodup_addStart h.nodup starts
  have hjoined := IsJoined.addStart h.ends hs
  unfold Charted.addStart at hnodup hjoined ⊢
  split
  · exact h
  · rename_i hif
    rw [if_neg hif] at hnodup hjoined
    rw [not_or] at hif
    have hnew : startNode.id ∉ c.names := not_mem_names (by decide) hif.2
    have hstarts : ∀ n ∈ starts, n.id ∈ c.names := fun n hn => List.mem_map_of_mem (hs n hn)
    refine ⟨hnodup, hjoined, ?_⟩
    refine h.acyclic.add_source startNode.id (fun a b => h.ne_of_arrow hnew) fun a b hab => ?_
    obtain ⟨e, he, rfl, rfl⟩ := arrow_graphOf.mp hab
    rcases List.mem_append.mp he with he | he
    · obtain ⟨n, hn, rfl⟩ := List.mem_map.mp (List.mem_reverse.mp he)
      exact .inr ⟨rfl, fun hc : n.id = startNode.id => hnew (hc ▸ hstarts n hn)⟩
    · exact .inl (arrow_graphOf.mpr ⟨e, he, rfl, rfl⟩)

/-- A stop goes behind all nodes. -/
theorem IsSound.addStop (h : c.IsSound) {stops : List Element} (hs : ∀ n ∈ stops, n ∈ c.nodes) :
    (c.addStop stops).IsSound := by
  have hnodup := nodup_addStop h.nodup stops
  have hjoined := IsJoined.addStop h.ends hs
  unfold Charted.addStop at hnodup hjoined ⊢
  split
  · exact h
  · rename_i hif
    rw [if_neg hif] at hnodup hjoined
    rw [not_or] at hif
    have hnew : stopNode.id ∉ c.names := not_mem_names (by decide) hif.2
    have hstops : ∀ n ∈ stops, n.id ∈ c.names := fun n hn => List.mem_map_of_mem (hs n hn)
    refine ⟨hnodup, hjoined, ?_⟩
    refine h.acyclic.add_target stopNode.id (fun a b => h.ne_of_arrow hnew) fun a b hab => ?_
    obtain ⟨e, he, rfl, rfl⟩ := arrow_graphOf.mp hab
    rcases List.mem_append.mp he with he | he
    · exact .inl (arrow_graphOf.mpr ⟨e, he, rfl, rfl⟩)
    · obtain ⟨n, hn, rfl⟩ := List.mem_map.mp he
      exact .inr ⟨rfl, fun hc : n.id = stopNode.id => hnew (hc ▸ hstops n hn)⟩

/-- A start comes first. -/
theorem nodes_addStart (c : Charted) (starts : List Element) :
    (c.addStart starts).nodes = c.nodes ∨
      (c.addStart starts).nodes = .node startNode :: c.nodes := by
  unfold Charted.addStart
  split
  · exact .inl rfl
  · exact .inr rfl

/-- A stop comes last. -/
theorem nodes_addStop (c : Charted) (stops : List Element) :
    (c.addStop stops).nodes = c.nodes ∨
      (c.addStop stops).nodes = c.nodes ++ [.node stopNode] := by
  unfold Charted.addStop
  split
  · exact .inl rfl
  · exact .inr rfl

/-- A start takes no node away. -/
theorem subset_addStart (c : Charted) (starts : List Element) :
    c.nodes ⊆ (c.addStart starts).nodes := by
  rcases nodes_addStart c starts with h | h <;> simp [h]

/-- A stop takes no node away. -/
theorem subset_addStop (c : Charted) (stops : List Element) :
    c.nodes ⊆ (c.addStop stops).nodes := by
  rcases nodes_addStop c stops with h | h <;> simp [h]

/-- What a start adds are edges. -/
theorem edge_of_mem_addStart {starts : List Element} {e : Connector}
    (h : e ∈ (c.addStart starts).edges) : e ∈ c.edges ∨ ∃ e', e = .edge e' := by
  unfold Charted.addStart at h
  split at h
  · exact .inl h
  · rcases List.mem_append.mp h with h | h
    · obtain ⟨n, _, rfl⟩ := List.mem_map.mp (List.mem_reverse.mp h)
      exact .inr ⟨startEdge n, rfl⟩
    · exact .inl h

/-- What a stop adds are edges. -/
theorem edge_of_mem_addStop {stops : List Element} {e : Connector}
    (h : e ∈ (c.addStop stops).edges) : e ∈ c.edges ∨ ∃ e', e = .edge e' := by
  unfold Charted.addStop at h
  split at h
  · exact .inl h
  · rcases List.mem_append.mp h with h | h
    · exact .inl h
    · obtain ⟨n, _, rfl⟩ := List.mem_map.mp h
      exact .inr ⟨stopEdge n, rfl⟩

/-- After a stop has been added, all nodes but one are still targets. -/
theorem isTarget_addStop (stops : List Element) {start : String}
    (h : ∀ n ∈ c.names, n ≠ start → (graphOf c.edges).isTarget n = true) :
    ∀ n ∈ (c.addStop stops).names, n ≠ start →
      (graphOf (c.addStop stops).edges).isTarget n = true := by
  unfold Charted.addStop
  split
  · exact h
  · rename_i hif
    intro n hn hne
    have hn' : n ∈ c.names ++ [stopNode.id] := by
      rw [names, List.map_append] at hn
      exact hn
    refine isTarget_iff.mpr ?_
    rcases List.mem_append.mp hn' with hn' | hn'
    · obtain ⟨a, ha⟩ := isTarget_iff.mp (h n hn' hne)
      obtain ⟨e, he, hea, hen⟩ := arrow_graphOf.mp ha
      exact ⟨a, arrow_graphOf.mpr ⟨e, List.mem_append_left _ he, hea, hen⟩⟩
    · obtain ⟨s, hs⟩ := List.exists_mem_of_ne_nil stops fun hc => hif (.inl hc)
      exact ⟨s.id, arrow_graphOf.mpr ⟨.edge (stopEdge s),
        List.mem_append_right _ (List.mem_map_of_mem hs), rfl, (List.mem_singleton.mp hn').symm⟩⟩

/-- When a start has been added, every other node is a target. -/
theorem isTarget_addStart {nodes : List Element} {edges : List Connector}
    (hadded : .node startNode ∉ nodes)
    (hstart : .node startNode ∈
      (Charted.addStart ⟨nodes, edges⟩ (Diagram.entryPoints nodes edges)).nodes) :
    let c := Charted.addStart ⟨nodes, edges⟩ (Diagram.entryPoints nodes edges)
    ∀ n ∈ c.names, n ≠ startNode.id → (graphOf c.edges).isTarget n = true := by
  unfold Charted.addStart at hstart ⊢
  split at hstart
  · exact absurd hstart hadded
  · rename_i hif
    rw [if_neg hif]
    intro c n hn hne
    rcases List.mem_cons.mp hn with rfl | hn
    · exact absurd rfl hne
    · obtain ⟨m, hm, rfl⟩ := List.mem_map.mp hn
      refine isTarget_iff.mpr ?_
      -- a node without an edge into it is an entry point, and the start leads to those
      by_cases hentry : edges.any (fun e => e.target == m.id) = true
      · obtain ⟨e, he, hem⟩ := List.any_eq_true.mp hentry
        exact ⟨e.source, arrow_graphOf.mpr
          ⟨e, List.mem_append_right _ he, rfl, eq_of_beq hem⟩⟩
      · have hm' : m ∈ Diagram.entryPoints nodes edges :=
          List.mem_filter.mpr ⟨hm, by simpa using hentry⟩
        exact ⟨startNode.id, arrow_graphOf.mpr ⟨.edge (startEdge m),
          List.mem_append_left _ (List.mem_reverse.mpr (List.mem_map_of_mem hm')), rfl, rfl⟩⟩

end Charted

/-! ### The chart of a flowchart -/

/-- A flowchart gets its start, and then its stop. -/
theorem withTerminals_flowchart {d : Diagram} (h : d.kind = Dialect.flowchart) :
    withTerminals d =
      (Charted.addStart ⟨d.nodes, d.edges⟩ (Diagram.entryPoints d.nodes d.edges)).addStop
        (Diagram.exitPoints d.nodes d.edges) :=
  if_neg (not_not.mpr h)

/-- Terminals keep a flowchart sound. -/
theorem Charted.IsSound.withTerminals {d : Diagram} (h : d.kind = Dialect.flowchart)
    (hsound : IsSound ⟨d.nodes, d.edges⟩) : (withTerminals d).IsSound := by
  rw [withTerminals_flowchart h]
  refine (hsound.addStart fun n hn => (List.mem_filter.mp hn).1).addStop fun n hn => ?_
  exact subset_addStart _ _ (List.mem_filter.mp hn).1

/-- Without rounding all columns are in the range. -/
theorem columnsInRange_exact (nodes : List Node) (g : Digraph) (direction : Term Direction) :
    columnsInRange .exact nodes g direction = true := by
  simp [columnsInRange]

/-- The chart of a diagram whose parts are nodes. -/
theorem chart_eq_of_nodes (A : Number.Arithmetic) {d : Diagram} {nodes : List Node}
    (h : (withTerminals d).nodes = nodes.map .node) :
    d.chart A =
      if columnsInRange A nodes (graphOf (withTerminals d).edges) d.flow then
        .ok ⟨nodes, (withTerminals d).edges,
          flowchart A nodes (graphOf (withTerminals d).edges) d.flow⟩
      else .error .outOfRange := by
  simp only [Diagram.chart, nodesOrFail_eq_ok.mpr h]
  rfl

/-- A chart is made of a diagram whose parts are nodes with columns in the range. -/
theorem chart_eq_ok {A : Number.Arithmetic} {d : Diagram} {c : Chart} :
    d.chart A = .ok c ↔ ∃ nodes, (withTerminals d).nodes = nodes.map .node ∧
      columnsInRange A nodes (graphOf (withTerminals d).edges) d.flow = true ∧
      c = ⟨nodes, (withTerminals d).edges,
        flowchart A nodes (graphOf (withTerminals d).edges) d.flow⟩ := by
  constructor
  · intro h
    obtain ⟨nodes, hnodes, -⟩ := bind_eq_ok.mp h
    rw [mapError_eq_ok, nodesOrFail_eq_ok] at hnodes
    rw [chart_eq_of_nodes A hnodes, ite_eq_ok] at h
    exact ⟨nodes, hnodes, h⟩
  · rintro ⟨nodes, hnodes, h⟩
    rw [chart_eq_of_nodes A hnodes, ite_eq_ok]
    exact h

/-- The terminals are nodes as well. -/
theorem exists_nodes_withTerminals {d : Diagram} (hkind : d.kind = Dialect.flowchart)
    {nodes : List Node} (h : d.nodes = nodes.map .node) :
    ∃ all : List Node, (withTerminals d).nodes = all.map .node ∧
      ∀ n ∈ all, n ∈ nodes ∨ n = startNode ∨ n = stopNode := by
  rw [withTerminals_flowchart hkind]
  rcases Charted.nodes_addStart ⟨d.nodes, d.edges⟩ (Diagram.entryPoints d.nodes d.edges) with
      hs | hs <;>
    rcases Charted.nodes_addStop (Charted.addStart ⟨d.nodes, d.edges⟩
      (Diagram.entryPoints d.nodes d.edges)) (Diagram.exitPoints d.nodes d.edges) with he | he <;>
    rw [he, hs, h]
  · exact ⟨nodes, rfl, fun _ => .inl⟩
  · exact ⟨nodes ++ [stopNode], by simp, fun n hn => by grind⟩
  · exact ⟨startNode :: nodes, rfl, fun n hn => by grind⟩
  · exact ⟨startNode :: nodes ++ [stopNode], by simp, fun n hn => by grind⟩

/-- Only flowcharts get terminals. -/
theorem names_withTerminals {d : Diagram} (h : d.kind ≠ Dialect.flowchart) :
    (withTerminals d).names = d.nodes.map Element.id := by
  unfold withTerminals
  rw [if_pos h]
  rfl

/-- Terminals are joined to nodes. -/
theorem isJoined_withTerminals {d : Diagram}
    (h : ∀ e ∈ d.edges, e.source ∈ d.nodes.map Element.id ∧ e.target ∈ d.nodes.map Element.id) :
    (withTerminals d).IsJoined := by
  unfold withTerminals
  split
  · exact h
  · have hstart : (Charted.addStart ⟨d.nodes, d.edges⟩
        (Diagram.entryPoints d.nodes d.edges)).IsJoined :=
      Charted.IsJoined.addStart (c := ⟨d.nodes, d.edges⟩) h fun n hn => List.mem_of_mem_filter hn
    apply hstart.addStop
    intro n hn
    exact Charted.subset_addStart _ _ (List.mem_of_mem_filter hn)

/-- Terminals take no node away. -/
theorem names_subset_withTerminals (d : Diagram) :
    d.nodes.map Element.id ⊆ (withTerminals d).names := by
  unfold withTerminals
  split
  · exact List.Subset.refl _
  · apply List.map_subset
    exact List.Subset.trans (Charted.subset_addStart ⟨d.nodes, d.edges⟩ _)
      (Charted.subset_addStop _ _)

/-- What the terminals add are edges. -/
theorem edge_of_mem_withTerminals {d : Diagram} (hkind : d.kind = Dialect.flowchart)
    {e : Connector} (h : e ∈ (withTerminals d).edges) : e ∈ d.edges ∨ ∃ e', e = .edge e' := by
  rw [withTerminals_flowchart hkind] at h
  rcases Charted.edge_of_mem_addStop h with h | h
  · exact Charted.edge_of_mem_addStart h
  · exact .inr h

end Diagrams.Layout
