import Diagrams.Layout
import Diagrams.Proofs.Outcome
import Mathlib.Data.List.Nodup

/-!
# Every part has a box

The boxes of a layout stand under the names of the parts. For a flowchart and a sequence diagram
they come in the order of the parts (`names_flowchart`, `names_sequence`); in an
entity-relationship diagram a junction may come first (`names_entities`). Which box a participant or
an entity has is told by `get?_sequence` and `exists_get?_entities`.
-/

namespace Diagrams.Layout

/-- The boxes of a flowchart have the names of its nodes. -/
theorem names_flowchart (A : Number.Arithmetic) {nodes : List Node}
    (h : (nodes.map Node.id).Nodup) (g : Digraph) (direction : Term Direction) :
    (flowchart A nodes g direction).names = nodes.map Node.id := by
  have hnames : ∀ box : Node → Box,
      Table.names (nodes.map fun n => (n.id, box n)) = nodes.map Node.id := by
    intro box
    simp [Table.names, Function.comp_def]
  rw [flowchart, Table.ofList_eq_self (by rw [hnames]; exact h), hnames]

/-- Parts that get boxes by their places keep their names. -/
theorem names_zipIdx {α : Type} (id : α → String) (box : α → Nat → Box) (parts : List α) :
    Table.names (parts.zipIdx.map fun p => (id p.1, box p.1 p.2)) = parts.map id := by
  calc Table.names (parts.zipIdx.map fun p => (id p.1, box p.1 p.2))
      = (parts.zipIdx.map Prod.fst).map id := by
        rw [Table.names, List.map_map, List.map_map]
        rfl
    _ = parts.map id := by rw [List.zipIdx_map_fst]

/-- The participants stand in the row in their order. -/
theorem names_row (names : List String) :
    Table.names (names.zipIdx.map fun (name, i) => (name, participantBox i)) = names :=
  (names_zipIdx id (fun _ i => participantBox i) names).trans (List.map_id names)

/-- Participants with distinct names have one box each. -/
theorem names_sequence {names : List String} (h : names.Nodup) :
    (sequence names).names = names := by
  rw [sequence, Table.ofList_eq_self (by rw [names_row]; exact h), names_row]

/-- Each participant stands at its place in the row. -/
theorem get?_sequence {names : List String} (h : names.Nodup) {i : Nat} {name : String}
    (hi : names[i]? = some name) : (sequence names).get? name = some (participantBox i) := by
  rw [← names_row names] at h
  exact Table.get?_ofList h
    (List.mem_map.mpr ⟨(name, i), List.mem_zipIdx_iff_getElem?.mpr hi, rfl⟩)

/-- Each participant stands in the row. -/
theorem exists_get?_sequence {names : List String} (h : names.Nodup) {name : String}
    (hname : name ∈ names) : ∃ b, (sequence names).get? name = some b := by
  obtain ⟨i, hi⟩ := List.mem_iff_getElem?.mp hname
  exact ⟨_, get?_sequence h hi⟩

/-! ### Entities -/

/-- The tables of a grid keep the order of the entities. -/
theorem entries_gridBoxes (es : List Entity) : Table.names (gridBoxes es) = es.map Entity.id :=
  names_zipIdx Entity.id (fun e i =>
    entityBox (100 + (i % (gridColumns es.length).toNat : Nat) * 300)
      (60 + (i / (gridColumns es.length).toNat : Nat) * 250) e) es

/-- The boxes of a grid have the names of the entities. -/
theorem names_gridBoxes {es : List Entity} (h : (es.map Entity.id).Nodup) :
    (Table.ofList (gridBoxes es)).names = es.map Entity.id := by
  rw [Table.ofList_eq_self (by rw [entries_gridBoxes]; exact h), entries_gridBoxes]

/-- Around a junction stand the others. -/
theorem entries_triangle (junction : Entity) (others : List Entity) :
    Table.names (triangle junction others) = junction.id :: others.map Entity.id := by
  have hothers := names_zipIdx Entity.id (fun e i => entityBox (100 + i * 600) 60 e) others
  rw [triangle, Table.names, List.map_cons, ← hothers]
  rfl

/-- The boxes of a triangle have different names. -/
theorem nodup_triangle {es : List Entity} (h : (es.map Entity.id).Nodup) (junction : Entity) :
    (Table.names (triangle junction (es.filter fun e => e.id != junction.id))).Nodup := by
  rw [entries_triangle, List.nodup_cons]
  constructor
  · simp
  · exact h.sublist (List.filter_sublist.map Entity.id)

/-- Around a junction stand all other entities. -/
theorem names_triangle {es : List Entity} (h : (es.map Entity.id).Nodup) {junction : Entity}
    (hj : junction ∈ es) :
    (Table.ofList (triangle junction (es.filter fun e => e.id != junction.id))).names.Perm
      (es.map Entity.id) := by
  have hnodup := nodup_triangle h junction
  rw [Table.ofList_eq_self hnodup, List.perm_ext_iff_of_nodup hnodup h, entries_triangle]
  intro name
  by_cases hname : name = junction.id
  · simp only [hname, List.mem_cons, true_or, true_iff]
    exact List.mem_map_of_mem hj
  · simp only [List.mem_cons, hname, false_or, List.mem_map, List.mem_filter, bne_iff_ne]
    constructor
    · rintro ⟨e, ⟨he, -⟩, hid⟩
      exact ⟨e, he, hid⟩
    · rintro ⟨e, he, rfl⟩
      exact ⟨e, ⟨he, hname⟩, rfl⟩

/-- The boxes of entities have their names, in some order. -/
theorem names_entities {es : List Entity} (h : (es.map Entity.id).Nodup)
    (rs : List Connector) : (entities es rs).names.Perm (es.map Entity.id) := by
  unfold entities
  split
  · rename_i junction hj
    split
    · apply names_triangle h
      have hmem : junction ∈ junctions es rs := by
        rw [hj]
        exact List.mem_singleton_self junction
      exact List.mem_of_mem_filter hmem
    · exact List.Perm.of_eq (names_gridBoxes h)
  · exact List.Perm.of_eq (names_gridBoxes h)

/-- Every box is the table of one of the entities. -/
theorem exists_entityBox_of_mem {es : List Entity} {rs : List Connector} {entry : String × Box}
    (h : entry ∈ entities es rs) :
    ∃ x y, ∃ e ∈ es, entry = (e.id, entityBox x y e) := by
  have hgrid : entry ∈ Table.ofList (gridBoxes es) →
      ∃ x y, ∃ e ∈ es, entry = (e.id, entityBox x y e) := by
    intro h
    obtain ⟨p, hp, rfl⟩ := List.mem_map.mp (Table.mem_of_mem_ofList h)
    exact ⟨_, _, p.1, List.fst_mem_of_mem_zipIdx hp, rfl⟩
  unfold entities at h
  split at h
  · rename_i junction hj
    have hmem : junction ∈ junctions es rs := hj ▸ List.mem_singleton_self junction
    split at h
    · rcases List.mem_cons.mp (Table.mem_of_mem_ofList h) with rfl | h
      · exact ⟨_, _, junction, List.mem_of_mem_filter hmem, rfl⟩
      · obtain ⟨p, hp, rfl⟩ := List.mem_map.mp h
        exact ⟨_, _, p.1, List.mem_of_mem_filter (List.fst_mem_of_mem_zipIdx hp), rfl⟩
    · exact hgrid h
  · exact hgrid h

/-- Every entity has a table of its own height. -/
theorem exists_get?_entities {es : List Entity} (h : (es.map Entity.id).Nodup)
    (rs : List Connector) {e : Entity} (he : e ∈ es) :
    ∃ x y, (entities es rs).get? e.id = some (entityBox x y e) := by
  obtain ⟨b, hb⟩ := Table.exists_get?_iff.mpr
    ((names_entities h rs).mem_iff.mpr (List.mem_map_of_mem he))
  obtain ⟨x, y, e', he', heq⟩ := exists_entityBox_of_mem (Table.mem_of_get? hb)
  obtain ⟨hid, rfl⟩ := Prod.mk.inj heq
  obtain rfl := List.inj_on_of_nodup_map h he he' hid
  exact ⟨x, y, hb⟩

end Diagrams.Layout
