import Diagrams.Parse
import Diagrams.Text.Numeral
import Mathlib.Data.List.Forall2
import Mathlib.Data.List.Nodup
import Mathlib.Data.List.Range

/-!
# Every name in a diagram read from text is declared in it

**Main statement** (`isSound_of_parse`): a diagram that was read from text, whatever the text, is
*sound* (`Diagram.IsSound`): no two of its nodes share a name, every edge, message and relationship
joins declared nodes, edges are numbered in their order, groups hold declared nodes and none twice,
and the two dialects that keep their parts in lists of their own have the same parts in the common
lists.

The four scans skip what they do not understand, so nothing is known about the lines. What is known
after some lines is kept by one more line, whatever it says: `Flowchart.Scan.IsSound.step`,
`Sequence.Scan.IsSound.step`, `Entities.Scan.IsSound.step` and `Mindmap.Scan.IsSound.add`. The point
in each is the order of effects: a name is declared before an edge or a group refers to it, and no
later line takes a declared name back.
-/

namespace Diagrams

open Text (numbered numbered_succ)

/-! ### Sound diagrams -/

/-- With what the names of edges start. -/
def Dialect.edgeMark : Term Dialect → String
  | .known .entityRelationship => "r"
  | _ => "e"

/-- The connector that stands for a message. -/
def Connector.Carries (c : Connector) (m : Message) : Prop :=
  ∃ e, c = .edge e ∧ e.source = m.source ∧ e.target = m.target ∧ e.label = m.text ∧
    e.arrow = some { line := m.line }

/-- The members of a group are declared, none of them twice. -/
def Group.IsSound (names : List String) (g : Group) : Prop :=
  g.members.Nodup ∧ g.members ⊆ names

namespace Diagram

/-- The names of the nodes. -/
def names (d : Diagram) : List String := d.nodes.map Element.id

/-- Every name that a diagram refers to is declared in it, and every name is declared once. -/
structure IsSound (d : Diagram) : Prop where
  /-- No two nodes share a name. -/
  nodup_names : d.names.Nodup
  /-- Edges join nodes. -/
  edge_ends : ∀ e ∈ d.edges, e.source ∈ d.names ∧ e.target ∈ d.names
  /-- Messages join nodes. -/
  message_ends : ∀ m ∈ d.messages, m.source ∈ d.names ∧ m.target ∈ d.names
  /-- Relationships join nodes. -/
  relationship_ends : ∀ r ∈ d.relationships, r.source ∈ d.names ∧ r.target ∈ d.names
  /-- Edges are numbered in their order. -/
  edge_names : d.edges.map Connector.id = numbered (Dialect.edgeMark d.kind) d.edges.length
  /-- Groups hold nodes, none of them twice. -/
  groups_sound : ∀ g ∈ d.groups, g.IsSound d.names
  /-- The nodes of a sequence diagram are its participants. -/
  nodes_of_sequence : d.kind = Dialect.sequence → d.nodes = d.participants.map .participant
  /-- The edges of a sequence diagram stand for its messages, one for each in their order. -/
  edges_of_sequence : d.kind = Dialect.sequence → List.Forall₂ Connector.Carries d.edges d.messages
  /-- The nodes of an entity-relationship diagram are its entities. -/
  nodes_of_entities : d.kind = Dialect.entityRelationship → d.nodes = d.entities.map .entity
  /-- The edges of an entity-relationship diagram are its relationships. -/
  edges_of_entities :
    d.kind = Dialect.entityRelationship → d.edges = d.relationships.map .relationship

variable {d : Diagram}

/-- The names of a sequence diagram are those of its participants. -/
theorem IsSound.names_of_sequence (h : d.IsSound) (hkind : d.kind = Dialect.sequence) :
    d.names = d.participants.map Participant.id := by
  rw [Diagram.names, h.nodes_of_sequence hkind, List.map_map]
  rfl

/-- The names of an entity-relationship diagram are those of its entities. -/
theorem IsSound.names_of_entities (h : d.IsSound) (hkind : d.kind = Dialect.entityRelationship) :
    d.names = d.entities.map Entity.id := by
  rw [Diagram.names, h.nodes_of_entities hkind, List.map_map]
  rfl

end Diagram

/-- Declaring more names keeps a group sound. -/
theorem Group.IsSound.mono {names names' : List String} {g : Group} (h : g.IsSound names)
    (hn : names ⊆ names') : g.IsSound names' :=
  ⟨h.1, fun _ hm => hn (h.2 hm)⟩

/-- A declared name may join a group. -/
theorem Group.IsSound.add {names : List String} {g : Group} (h : g.IsSound names) {id : String}
    (hid : id ∈ names) : (g.add id).IsSound names := by
  unfold Group.add
  split
  · exact h
  · rename_i hg
    refine ⟨?_, ?_⟩
    · rw [List.nodup_append]
      refine ⟨h.1, List.nodup_singleton id, ?_⟩
      rintro a ha b hb rfl
      exact hg (List.mem_singleton.mp hb ▸ ha)
    · intro m hm
      rcases List.mem_append.mp hm with hm | hm
      · exact h.2 hm
      · exact List.mem_singleton.mp hm ▸ hid

/-! ### Flowcharts -/

namespace Flowchart.Scan

/-- What is known after some lines of a flowchart hangs together. -/
structure IsSound (s : Scan) : Prop where
  /-- Every node stands under its name. -/
  keyed : s.nodes.Keyed Node.id
  /-- No name stands for two nodes. -/
  nodup : s.nodes.names.Nodup
  /-- Edges join nodes. -/
  ends : ∀ e ∈ s.edges, e.source ∈ s.nodes.names ∧ e.target ∈ s.nodes.names
  /-- Edges are numbered. -/
  edge_names : s.edges.map Edge.id = numbered "e" s.edges.length
  /-- The groups that have ended hold nodes. -/
  groups : ∀ g ∈ s.groups, g.IsSound s.nodes.names
  /-- So does the open one. -/
  current : ∀ g ∈ s.current, g.IsSound s.nodes.names

/-- Before the first line there is nothing. -/
theorem isSound_empty : IsSound {} where
  keyed := fun _ h => absurd h List.not_mem_nil
  nodup := List.nodup_nil
  ends := fun _ h => absurd h List.not_mem_nil
  edge_names := rfl
  groups := fun _ h => absurd h List.not_mem_nil
  current := fun _ h => nomatch h

variable {s : Scan}

/-- New nodes take the place of the old ones as long as no name is lost. -/
theorem IsSound.withNodes (h : s.IsSound) {nodes : Table Node} (hk : nodes.Keyed Node.id)
    (hd : nodes.names.Nodup) (hs : s.nodes.names ⊆ nodes.names) :
    IsSound { s with nodes := nodes } where
  keyed := hk
  nodup := hd
  ends := fun e he => ⟨hs (h.ends e he).1, hs (h.ends e he).2⟩
  edge_names := h.edge_names
  groups := fun g hg => (h.groups g hg).mono hs
  current := fun g hg => (h.current g hg).mono hs

/-- A mention keeps a scan sound. -/
theorem IsSound.declare (h : s.IsSound) (t : Target) : (s.declare t).IsSound := by
  unfold Scan.declare
  split
  · exact h.withNodes (h.keyed.insert rfl) (Table.names_nodup_insert h.nodup _ _)
      (Table.names_subset_insert _ _ _)
  · refine h.withNodes (h.keyed.insertNew rfl) (Table.names_nodup_insertNew h.nodup _ _) ?_
    unfold Table.insertNew
    split
    · exact List.Subset.refl _
    · exact Table.names_subset_insert _ _ _

/-- Mentioning a node declares its name and forgets no other. -/
theorem names_declare (s : Scan) (t : Target) :
    s.nodes.names ⊆ (s.declare t).nodes.names ∧ t.id ∈ (s.declare t).nodes.names := by
  unfold Scan.declare
  split
  · exact ⟨Table.names_subset_insert _ _ _, Table.mem_names_insert _ _ _⟩
  · simp only [Table.names_insertNew]
    split
    · exact ⟨List.Subset.refl _, by assumption⟩
    · exact ⟨List.subset_append_left _ _, by simp⟩

/-- A node that joins a group is among the nodes already. -/
@[simp] theorem nodes_join (s : Scan) (id : String) : (s.join id).nodes = s.nodes := rfl

/-- A node that joins a group adds no edge. -/
@[simp] theorem edges_join (s : Scan) (id : String) : (s.join id).edges = s.edges := rfl

/-- A mention adds no edge. -/
@[simp] theorem edges_declare (s : Scan) (t : Target) : (s.declare t).edges = s.edges := by
  unfold Scan.declare
  split <;> rfl

/-- A declared node may join the open group. -/
theorem IsSound.join (h : s.IsSound) {id : String} (hid : id ∈ s.nodes.names) :
    (s.join id).IsSound where
  keyed := h.keyed
  nodup := h.nodup
  ends := h.ends
  edge_names := h.edge_names
  groups := h.groups
  current := by
    intro g hg
    obtain ⟨g', hg', rfl⟩ := Option.map_eq_some_iff.mp hg
    exact (h.current g' hg').add hid

/-- An edge between declared nodes that has the next number may come last. -/
theorem IsSound.addEdge (h : s.IsSound) {e : Edge} (hs : e.source ∈ s.nodes.names)
    (ht : e.target ∈ s.nodes.names) (hid : e.id = "e" ++ toString (s.edges.length + 1)) :
    IsSound { s with edges := s.edges ++ [e] } where
  keyed := h.keyed
  nodup := h.nodup
  ends := by
    intro e' he'
    rcases List.mem_append.mp he' with he' | he'
    · exact h.ends e' he'
    · rw [List.mem_singleton.mp he']
      exact ⟨hs, ht⟩
  edge_names := by
    rw [List.map_append, h.edge_names, List.length_append, List.length_singleton, numbered_succ,
      List.map_singleton, hid]
  groups := h.groups
  current := h.current

/-- Whatever a line says, what is known afterwards hangs together as well. -/
theorem IsSound.step (h : s.IsSound) (l : Line) : (s.step l).IsSound := by
  cases l with
  | groupStart id label =>
    refine { h with current := ?_ }
    rintro g ⟨⟩
    exact ⟨List.nodup_nil, List.nil_subset _⟩
  | groupEnd =>
    simp only [Scan.step]
    split
    · rename_i g hg
      refine { h with groups := ?_, current := fun _ hn => nomatch hn }
      intro g' hg'
      rcases List.mem_append.mp hg' with hg' | hg'
      · exact h.groups g' hg'
      · exact List.mem_singleton.mp hg' ▸ h.current g hg
    · exact h
  | connection source arrow label target =>
    -- both ends are declared before the group and the edge refer to them
    have hsource : source.id ∈ ((s.declare source).declare target).nodes.names :=
      (names_declare _ target).1 (names_declare s source).2
    have htarget : target.id ∈ ((s.declare source).declare target).nodes.names :=
      (names_declare _ target).2
    exact ((((h.declare source).declare target).join hsource).join htarget).addEdge hsource htarget
      rfl
  | declaration id fragment =>
    exact (h.declare ⟨id, some fragment⟩).join (names_declare s ⟨id, some fragment⟩).2
  | ignored => exact h

/-- What is known after any lines hangs together. -/
theorem isSound_run (lines : List (List Char)) : (lines.foldl Scan.feed {}).IsSound :=
  List.foldlRecOn lines Scan.feed isSound_empty fun _ h line _ => h.step (.ofText line)

end Flowchart.Scan

/-- What is read of a flowchart is sound. -/
theorem Flowchart.isSound_read (direction : Direction) (lines : List (List Char)) :
    (Flowchart.read direction lines).IsSound := by
  have h := Scan.isSound_run ((lines.filter Source.isContent).map Text.trim)
  unfold Flowchart.read
  generalize ((lines.filter Source.isContent).map Text.trim).foldl Scan.feed {} = s at h ⊢
  dsimp only
  have hnames : (s.nodes.values.map Element.node).map Element.id = s.nodes.names := by
    rw [List.map_map]
    exact h.keyed.map_values
  refine
    { nodup_names := ?_, edge_ends := ?_, message_ends := fun _ hm => absurd hm List.not_mem_nil
      relationship_ends := fun _ hr => absurd hr List.not_mem_nil, edge_names := ?_
      groups_sound := ?_, nodes_of_sequence := nofun, edges_of_sequence := nofun
      nodes_of_entities := nofun, edges_of_entities := nofun }
  · simp only [Diagram.names, hnames]
    exact h.nodup
  · intro c hc
    obtain ⟨e, he, rfl⟩ := List.mem_map.mp hc
    simp only [Diagram.names, hnames]
    exact h.ends e he
  · simp only [List.map_map, List.length_map]
    exact h.edge_names
  · intro g hg
    simp only [Diagram.names, hnames]
    exact h.groups g hg

/-! ### Sequence diagrams -/

namespace Sequence.Scan

/-- What is known after some lines of a sequence diagram hangs together. -/
structure IsSound (s : Scan) : Prop where
  /-- Every participant stands under its name. -/
  keyed : s.participants.Keyed Participant.id
  /-- No name stands for two participants. -/
  nodup : s.participants.names.Nodup
  /-- Messages join participants. -/
  ends : ∀ m ∈ s.messages,
    m.source ∈ s.participants.names ∧ m.target ∈ s.participants.names

/-- Before the first line there is nothing. -/
theorem isSound_empty : IsSound {} where
  keyed := fun _ h => absurd h List.not_mem_nil
  nodup := List.nodup_nil
  ends := fun _ h => absurd h List.not_mem_nil

variable {s : Scan}

/-- Mentioning a participant declares its name and forgets no other. -/
theorem names_mention (s : Scan) (id : String) :
    s.participants.names ⊆ (s.mention id).participants.names ∧
      id ∈ (s.mention id).participants.names := by
  simp only [Scan.mention, Table.names_insertNew]
  split
  · exact ⟨List.Subset.refl _, by assumption⟩
  · exact ⟨List.subset_append_left _ _, by simp⟩

/-- A mention keeps a scan sound. -/
theorem IsSound.mention (h : s.IsSound) (id : String) : (s.mention id).IsSound where
  keyed := h.keyed.insertNew rfl
  nodup := Table.names_nodup_insertNew h.nodup _ _
  ends := fun m hm =>
    ⟨(names_mention s id).1 (h.ends m hm).1, (names_mention s id).1 (h.ends m hm).2⟩

/-- Whatever a line says, what is known afterwards hangs together as well. -/
theorem IsSound.step (h : s.IsSound) (l : Line) : (s.step l).IsSound := by
  cases l with
  | declaration isActor id label =>
    have hs := Table.names_subset_insert s.participants id ⟨id, label, isActor⟩
    exact
      { keyed := h.keyed.insert rfl
        nodup := Table.names_nodup_insert h.nodup _ _
        ends := fun m hm => ⟨hs (h.ends m hm).1, hs (h.ends m hm).2⟩ }
  | message source arrow target text =>
    have h' := (h.mention source).mention target
    refine { h' with ends := ?_ }
    intro m hm
    rcases List.mem_append.mp hm with hm | hm
    · exact h'.ends m hm
    · -- both sides were mentioned just before the message
      rw [List.mem_singleton.mp hm]
      exact ⟨(names_mention _ target).1 (names_mention s source).2, (names_mention _ target).2⟩
  | ignored => exact h

/-- What is known after any lines hangs together. -/
theorem isSound_run (lines : List (List Char)) : (lines.foldl Scan.feed {}).IsSound :=
  List.foldlRecOn lines Scan.feed isSound_empty fun _ h line _ => h.step (.ofText line)

end Sequence.Scan

namespace Sequence

/-- The edges that stand for messages are numbered in their order. -/
theorem ids_edgesOf (messages : List Message) :
    (edgesOf messages).map Edge.id = numbered "e" messages.length := by
  unfold edgesOf numbered
  rw [List.map_map, List.range_eq_range', ← List.zipIdx_map_snd 0 messages, List.map_map]
  rfl

/-- Each edge stands for the message at its place. -/
theorem carries_edgesOf (messages : List Message) :
    List.Forall₂ Connector.Carries ((edgesOf messages).map .edge) messages := by
  unfold edgesOf
  generalize 0 = n
  induction messages generalizing n with
  | nil => exact .nil
  | cons m messages ih => exact .cons ⟨_, rfl, rfl, rfl, rfl, rfl⟩ (ih (n + 1))

/-- The ends of an edge that stands for a message are those of a message. -/
theorem ends_of_mem_edgesOf {messages : List Message} {e : Edge} (h : e ∈ edgesOf messages) :
    ∃ m ∈ messages, e.source = m.source ∧ e.target = m.target := by
  obtain ⟨⟨m, i⟩, hm, rfl⟩ := List.mem_map.mp h
  exact ⟨m, List.fst_mem_of_mem_zipIdx hm, rfl, rfl⟩

/-- What is read of a sequence diagram is sound. -/
theorem isSound_read (lines : List (List Char)) : (Sequence.read lines).IsSound := by
  have h := Scan.isSound_run ((lines.filter Source.isContent).map Text.trim)
  unfold Sequence.read
  generalize ((lines.filter Source.isContent).map Text.trim).foldl Scan.feed {} = s at h ⊢
  dsimp only
  have hnames : (s.participants.values.map Element.participant).map Element.id =
      s.participants.names := by
    rw [List.map_map]
    exact h.keyed.map_values
  refine
    { nodup_names := ?_, edge_ends := ?_, message_ends := ?_
      relationship_ends := fun _ hr => absurd hr List.not_mem_nil, edge_names := ?_
      groups_sound := fun _ hg => absurd hg List.not_mem_nil
      nodes_of_sequence := fun _ => rfl
      edges_of_sequence := fun _ => carries_edgesOf s.messages
      nodes_of_entities := nofun, edges_of_entities := nofun }
  · simp only [Diagram.names, hnames]
    exact h.nodup
  · intro c hc
    obtain ⟨e, he, rfl⟩ := List.mem_map.mp hc
    obtain ⟨m, hm, hs, ht⟩ := ends_of_mem_edgesOf he
    simp only [Diagram.names, hnames, Connector.source, Connector.target, hs, ht]
    exact h.ends m hm
  · simp only [Diagram.names, hnames]
    exact h.ends
  · have hlength : (edgesOf s.messages).length = s.messages.length := by
      rw [edgesOf, List.length_map, List.length_zipIdx]
    simp only [List.map_map, List.length_map, hlength]
    exact ids_edgesOf s.messages

end Sequence

/-! ### Entity-relationship diagrams -/

namespace Entities.Scan

/-- What is known after some lines of an entity-relationship diagram hangs together. -/
structure IsSound (s : Scan) : Prop where
  /-- Every entity stands under its name. -/
  keyed : s.entities.Keyed Entity.id
  /-- No name stands for two entities. -/
  nodup : s.entities.names.Nodup
  /-- Relationships join entities. -/
  ends : ∀ r ∈ s.relationships, r.source ∈ s.entities.names ∧ r.target ∈ s.entities.names
  /-- Relationships are numbered. -/
  relationship_names :
    s.relationships.map Relationship.id = numbered "r" s.relationships.length

/-- Before the first line there is nothing. -/
theorem isSound_empty : IsSound {} where
  keyed := fun _ h => absurd h List.not_mem_nil
  nodup := List.nodup_nil
  ends := fun _ h => absurd h List.not_mem_nil
  relationship_names := rfl

variable {s : Scan}

/-- Which block is open does not matter. -/
theorem IsSound.withCurrent (h : s.IsSound) (current : Option String) :
    IsSound { s with current := current } :=
  ⟨h.keyed, h.nodup, h.ends, h.relationship_names⟩

/-- Mentioning an entity declares its name and forgets no other. -/
theorem names_mention (s : Scan) (name : String) :
    s.entities.names ⊆ (s.mention name).entities.names ∧
      name ∈ (s.mention name).entities.names := by
  simp only [Scan.mention, Table.names_insertNew]
  split
  · exact ⟨List.Subset.refl _, by assumption⟩
  · exact ⟨List.subset_append_left _ _, by simp⟩

/-- A mention keeps a scan sound. -/
theorem IsSound.mention (h : s.IsSound) (name : String) : (s.mention name).IsSound where
  keyed := h.keyed.insertNew rfl
  nodup := Table.names_nodup_insertNew h.nodup _ _
  ends := fun r hr =>
    ⟨(names_mention s name).1 (h.ends r hr).1, (names_mention s name).1 (h.ends r hr).2⟩
  relationship_names := h.relationship_names

/-- More attributes change no name. -/
theorem IsSound.describe (h : s.IsSound) (name : String) (attributes : List Attribute) :
    (s.describe name attributes).IsSound where
  keyed := h.keyed.adjust name fun _ => rfl
  nodup := by
    simp only [Scan.describe, Table.names_adjust]
    exact h.nodup
  ends := by
    simp only [Scan.describe, Table.names_adjust]
    exact h.ends
  relationship_names := h.relationship_names

/-- Whatever a line says, what is known afterwards hangs together as well. -/
theorem IsSound.step (h : s.IsSound) (l : Line) : (s.step l).IsSound := by
  cases l with
  | blockStart name => exact (h.mention name).withCurrent (some name)
  | blockEnd => exact h.withCurrent none
  | «attribute» a =>
    simp only [Scan.step]
    split
    · exact h.describe _ [a]
    · exact h
  | relationship r =>
    have h' := (h.mention r.source).mention r.target
    refine { h' with ends := ?_, relationship_names := ?_ }
    · intro r' hr'
      rcases List.mem_append.mp hr' with hr' | hr'
      · exact h'.ends r' hr'
      · -- both sides were mentioned just before the relationship
        rw [List.mem_singleton.mp hr']
        exact ⟨(names_mention _ r.target).1 (names_mention s r.source).2,
          (names_mention _ r.target).2⟩
    · simp only [Scan.step]
      rw [List.map_append, h'.relationship_names, List.length_append, List.length_singleton,
        numbered_succ, List.map_singleton]
  | entity name attributes => exact (h.mention name).describe name attributes
  | ignored => exact h

/-- What is known after any lines hangs together. -/
theorem isSound_run (lines : List (List Char)) : (lines.foldl Scan.feed {}).IsSound :=
  List.foldlRecOn lines Scan.feed isSound_empty fun s h line _ =>
    h.step (.ofText s.current.isSome line)

end Entities.Scan

/-- What is read of an entity-relationship diagram is sound. -/
theorem Entities.isSound_read (lines : List (List Char)) : (Entities.read lines).IsSound := by
  have h := Scan.isSound_run ((lines.filter Source.isContent).map Text.trim)
  unfold Entities.read
  generalize ((lines.filter Source.isContent).map Text.trim).foldl Scan.feed {} = s at h ⊢
  dsimp only
  have hnames : (s.entities.values.map Element.entity).map Element.id = s.entities.names := by
    rw [List.map_map]
    exact h.keyed.map_values
  refine
    { nodup_names := ?_, edge_ends := ?_
      message_ends := fun _ hm => absurd hm List.not_mem_nil
      relationship_ends := ?_, edge_names := ?_
      groups_sound := fun _ hg => absurd hg List.not_mem_nil
      nodes_of_sequence := nofun, edges_of_sequence := nofun
      nodes_of_entities := fun _ => rfl, edges_of_entities := fun _ => rfl }
  · simp only [Diagram.names, hnames]
    exact h.nodup
  · intro c hc
    obtain ⟨r, hr, rfl⟩ := List.mem_map.mp hc
    simp only [Diagram.names, hnames]
    exact h.ends r hr
  · simp only [Diagram.names, hnames]
    exact h.ends
  · simp only [List.map_map, List.length_map]
    exact h.relationship_names

/-! ### Mindmaps -/

namespace Mindmap.Scan

/-- What is known after some lines of a mindmap hangs together. -/
structure IsSound (s : Scan) : Prop where
  /-- Topics are numbered from zero. -/
  topic_names : s.nodes.map Node.id = (List.range s.nodes.length).map fun i => "node" ++ toString i
  /-- The last topic of a depth is one of the topics. -/
  last : ∀ depth, ∀ id ∈ s.last depth, id ∈ s.nodes.map Node.id
  /-- Edges join topics. -/
  ends : ∀ e ∈ s.edges, e.source ∈ s.nodes.map Node.id ∧ e.target ∈ s.nodes.map Node.id
  /-- Edges are numbered. -/
  edge_names : s.edges.map Edge.id = numbered "e" s.edges.length

/-- Before the first line there is nothing. -/
theorem isSound_empty : IsSound {} where
  topic_names := rfl
  last := fun _ _ h => nomatch h
  ends := fun _ h => absurd h List.not_mem_nil
  edge_names := rfl

variable {s : Scan}

/-- Topics have names of their own. -/
theorem IsSound.nodup (h : s.IsSound) : (s.nodes.map Node.id).Nodup := by
  rw [h.topic_names]
  exact List.nodup_range.map fun _ _ hij => Text.append_toString_inj hij

/-- The parent of the next topic is one of the topics. -/
theorem IsSound.mem_of_parent? (h : s.IsSound) {depth : Nat} {parent : String}
    (hp : s.parent? depth = some parent) : parent ∈ s.nodes.map Node.id := by
  cases depth with
  | zero => exact nomatch hp
  | succ depth => exact h.last depth parent hp

/-- Whatever the depth and the text of one more topic, what is known afterwards hangs together as
well. -/
theorem IsSound.add (h : s.IsSound) (depth : Nat) (t : Topic) : (s.add depth t).IsSound := by
  have hids : (s.nodes ++ [topic s.nodes.length depth t]).map Node.id =
      s.nodes.map Node.id ++ ["node" ++ toString s.nodes.length] := by
    rw [List.map_append]
    rfl
  have hold : s.nodes.map Node.id ⊆ (s.nodes ++ [topic s.nodes.length depth t]).map Node.id :=
    hids ▸ List.subset_append_left _ _
  refine { topic_names := ?_, last := ?_, ends := ?_, edge_names := ?_ }
  · simp only [Scan.add]
    rw [hids, h.topic_names, List.length_append, List.length_singleton, List.range_succ,
      List.map_append, List.map_singleton]
  · intro d id hid
    simp only [Scan.add] at hid ⊢
    split at hid
    · cases hid
      rw [hids]
      exact List.mem_append_right _ (List.mem_singleton.mpr rfl)
    · exact hold (h.last d id hid)
  · intro e he
    simp only [Scan.add] at he ⊢
    split at he
    · rename_i parent hparent
      rcases List.mem_append.mp he with he | he
      · exact ⟨hold (h.ends e he).1, hold (h.ends e he).2⟩
      · rw [List.mem_singleton.mp he]
        refine ⟨hold (h.mem_of_parent? hparent), ?_⟩
        rw [hids]
        exact List.mem_append_right _ (List.mem_singleton.mpr rfl)
    · exact ⟨hold (h.ends e he).1, hold (h.ends e he).2⟩
  · simp only [Scan.add]
    split
    · rw [List.map_append, h.edge_names, List.length_append, List.length_singleton, numbered_succ,
        List.map_singleton]
    · exact h.edge_names

/-- What is known after any lines hangs together. -/
theorem isSound_run (lines : List (List Char)) : (lines.foldl Scan.feed {}).IsSound :=
  List.foldlRecOn lines Scan.feed isSound_empty fun _ h line _ =>
    h.add (depth line) (.ofText (Text.trim line))

end Mindmap.Scan

/-- What is read of a mindmap is sound. -/
theorem Mindmap.isSound_read (lines : List (List Char)) : (Mindmap.read lines).IsSound := by
  have h := Scan.isSound_run (lines.filter fun l => Source.isContent l && !isIcon l)
  unfold Mindmap.read
  generalize (lines.filter fun l => Source.isContent l && !isIcon l).foldl Scan.feed {} = s at h ⊢
  dsimp only
  have hnames : (s.nodes.map Element.node).map Element.id = s.nodes.map Node.id := by
    rw [List.map_map]
    rfl
  refine
    { nodup_names := ?_, edge_ends := ?_
      message_ends := fun _ hm => absurd hm List.not_mem_nil
      relationship_ends := fun _ hr => absurd hr List.not_mem_nil, edge_names := ?_
      groups_sound := fun _ hg => absurd hg List.not_mem_nil
      nodes_of_sequence := nofun, edges_of_sequence := nofun
      nodes_of_entities := nofun, edges_of_entities := nofun }
  · simp only [Diagram.names, hnames]
    exact h.nodup
  · intro c hc
    obtain ⟨e, he, rfl⟩ := List.mem_map.mp hc
    simp only [Diagram.names, hnames]
    exact h.ends e he
  · simp only [List.map_map, List.length_map]
    exact h.edge_names

/-! ### All dialects -/

/-- Remarks do not matter. -/
theorem Diagram.IsSound.withMetadata {d : Diagram} (h : d.IsSound) (metadata : Json) :
    Diagram.IsSound { d with metadata := metadata } :=
  ⟨h.nodup_names, h.edge_ends, h.message_ends, h.relationship_ends, h.edge_names, h.groups_sound,
    h.nodes_of_sequence, h.edges_of_sequence, h.nodes_of_entities, h.edges_of_entities⟩

/-- What is read behind any header is sound. -/
theorem Source.isSound_readBody (header : List Char) (body : List (List Char)) :
    (Source.readBody header body).IsSound := by
  unfold Source.readBody
  split
  · exact Sequence.isSound_read body
  · exact Entities.isSound_read body
  · exact Mindmap.isSound_read body
  · exact Flowchart.isSound_read _ body
  · exact (Flowchart.isSound_read _ body).withMetadata _
  · exact (Flowchart.isSound_read _ body).withMetadata _

/-- Whatever the text, the diagram that is read from it is sound. -/
theorem isSound_of_parse (code : String) (d : Diagram) (h : Diagram.parse code = .ok d) :
    d.IsSound := by
  unfold Diagram.parse at h
  split at h
  · exact nomatch h
  · cases h
    exact Source.isSound_readBody _ _

/-- Two nodes in a group. -/
def grouped : Diagram where
  direction := some Direction.lr
  nodes := [.node (.plain "a"), .node (.shaped "b" ⟨.diamond, "x"⟩)]
  edges :=
    [.edge { id := "e1", source := "a", target := "b", arrow := some Arrow.solid.style }]
  groups := [⟨"g", "g", ["a", "b"]⟩]

set_option maxRecDepth 100000 in
/-- A group with an edge in it, to a node with a shape. -/
theorem isSound_of_parse_grouped :
    Diagram.parse "graph LR\nsubgraph g\na-->b{x}\nend" = .ok grouped ∧ grouped.IsSound := by
  have hparse : Diagram.parse "graph LR\nsubgraph g\na-->b{x}\nend" = .ok grouped := rfl
  exact ⟨hparse, isSound_of_parse _ grouped hparse⟩

end Diagrams
