import Diagrams.Diagram.Part
import Diagrams.Proofs.Outcome
import Diagrams.Proofs.Reading.Integrity

/-!
# Parts of one kind

The parts of a list are parts of one kind exactly when the list is made of such parts
(`allOrFail_eq_ok` and its four cases).

In a sound diagram of a dialect that keeps its parts in lists of its own, the common lists hold the
same parts, so it does not matter in which they are looked for (`Diagram.IsSound.parties_eq` and the
like).
-/

namespace Diagrams

/-- All parts are of a kind when the list is made of parts of this kind. -/
theorem allOrFail_eq_ok {α β : Type} {name : α → String} {as? : α → Option β} {of : β → α}
    (h : ∀ a b, as? a = some b ↔ a = of b) {parts : List α} {parts' : List β} :
    allOrFail name as? parts = .ok parts' ↔ parts = parts'.map of := by
  unfold allOrFail
  rw [mapM_eq_ok, ← List.forall₂_eq_eq_eq, List.forall₂_map_right_iff]
  refine ⟨fun hall => hall.imp fun a b hab => ?_, fun hall => hall.imp fun a b hab => ?_⟩
  · cases ha : as? a with
    | none => simp [ha] at hab
    | some b' =>
      obtain rfl : b' = b := by simpa [ha] using hab
      exact (h a b').mp ha
  · simp [(h a b).mpr hab]

/-- A list of which each item is of a kind is made of items of this kind. -/
theorem exists_map_eq {α β : Type} {of : β → α} {parts : List α} (h : ∀ a ∈ parts, ∃ b, a = of b) :
    ∃ parts' : List β, parts = parts'.map of := by
  induction parts with
  | nil => exact ⟨[], rfl⟩
  | cons a rest ih =>
    obtain ⟨b, rfl⟩ := h a List.mem_cons_self
    obtain ⟨rest', rfl⟩ := ih fun c hc => h c (List.mem_cons_of_mem _ hc)
    exact ⟨b :: rest', rfl⟩

/-- Elements are drawn as nodes when they all are nodes. -/
theorem nodesOrFail_eq_ok {elements : List Element} {nodes : List Node} :
    nodesOrFail elements = .ok nodes ↔ elements = nodes.map .node :=
  allOrFail_eq_ok fun e n => by cases e <;> simp [Element.asNode?]

/-- Elements are drawn as tables when they all are entities. -/
theorem entitiesOrFail_eq_ok {elements : List Element} {entities : List Entity} :
    entitiesOrFail elements = .ok entities ↔ elements = entities.map .entity :=
  allOrFail_eq_ok fun e n => by cases e <;> simp [Element.asEntity?]

/-- Connectors are drawn as edges when they all are edges. -/
theorem edgesOrFail_eq_ok {connectors : List Connector} {edges : List Edge} :
    edgesOrFail connectors = .ok edges ↔ connectors = edges.map .edge :=
  allOrFail_eq_ok fun c e => by cases c <;> simp [Connector.asEdge?]

/-- Connectors are drawn as relationships when they all are relationships. -/
theorem relationshipsOrFail_eq_ok {connectors : List Connector}
    {relationships : List Relationship} :
    relationshipsOrFail connectors = .ok relationships ↔
      connectors = relationships.map .relationship :=
  allOrFail_eq_ok fun c e => by cases c <;> simp [Connector.asRelationship?]

/-- A list of elements is made of nodes in one way only. -/
theorem nodes_unique {elements : List Element} {nodes others : List Node}
    (h : elements = nodes.map .node) (hothers : elements = others.map .node) : nodes = others :=
  List.map_injective_iff.mpr (fun _ _ => Element.node.inj) (h.symm.trans hothers)

/-! ### Common lists -/

namespace Diagram.IsSound

variable {d : Diagram}

/-- The sides of a sequence diagram are its participants. -/
theorem parties_eq (h : d.IsSound) (hkind : d.kind = Dialect.sequence) :
    d.parties = d.participants.map .participant := by
  unfold parties
  split
  · exact h.nodes_of_sequence hkind
  · rfl

/-- The tables of an entity-relationship diagram are its entities. -/
theorem tables_eq (h : d.IsSound) (hkind : d.kind = Dialect.entityRelationship) :
    d.tables = d.entities.map .entity := by
  unfold tables
  split
  · exact h.nodes_of_entities hkind
  · rfl

/-- The links of an entity-relationship diagram are its relationships. -/
theorem links_eq (h : d.IsSound) (hkind : d.kind = Dialect.entityRelationship) :
    d.links = d.relationships.map .relationship := by
  unfold links
  split
  · exact h.edges_of_entities hkind
  · rfl

end Diagram.IsSound

end Diagrams
