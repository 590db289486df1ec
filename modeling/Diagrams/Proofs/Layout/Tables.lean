import Diagrams.Proofs.Layout.Overlap
import Diagrams.Proofs.Layout.Places

/-!
# Tables that cover each other

**Main statement** (`entities_disjoint_iff`): every entity has a box, and the boxes are disjoint
exactly when the entities stand around a junction or every table with another one below it has at
most eight attributes.

* `disjointBoxes_names_iff` — the boxes under distinct names are disjoint when every one is apart
  from the later ones.
* `overlaps_grid_iff` — of two tables in the grid only the upper one of a column can be in the way.
* `entityHeight_le_iff` — eight attributes are the most that fit between two rows.

The tables around a junction stand in three columns, so their heights do not matter.
-/

namespace Diagrams

/-! ### Disjoint boxes -/

/-- It does not matter which of two boxes overlaps the other. -/
theorem Box.overlaps_comm {a b : Box} : a.Overlaps b ↔ b.Overlaps a := by
  unfold Box.Overlaps
  constructor <;> exact fun ⟨hx, hx', hy, hy'⟩ => ⟨hx', hx, hy', hy⟩

namespace Layout

/-- In which order the names are given does not matter. -/
theorem disjointBoxes_perm {names names' : List String} (h : names.Perm names')
    {boxes : Table Box} : DisjointBoxes names boxes ↔ DisjointBoxes names' boxes := by
  simp only [DisjointBoxes, h.mem_iff]

/-- The boxes of a table are disjoint when none of them overlaps a later one. -/
theorem disjointBoxes_names_iff {boxes : Table Box} (h : boxes.names.Nodup) :
    DisjointBoxes boxes.names boxes ↔ boxes.Pairwise fun a b => ¬a.2.Overlaps b.2 := by
  constructor
  · intro hdisjoint
    refine (List.pairwise_map.mp h).imp_of_mem fun {a b} ha hb hne => ?_
    obtain ⟨boxa, boxb, hboxa, hboxb, happart⟩ := hdisjoint a.1 (List.mem_map_of_mem ha) b.1
      (List.mem_map_of_mem hb) hne
    rw [Table.get?_of_mem h ha] at hboxa
    rw [Table.get?_of_mem h hb] at hboxb
    rwa [Option.some.inj hboxa, Option.some.inj hboxb]
  · intro hpairwise m hm n hn hmn
    obtain ⟨a, ha, rfl⟩ := List.mem_map.mp hm
    obtain ⟨b, hb, rfl⟩ := List.mem_map.mp hn
    have : Std.Symm fun a b : String × Box => ¬a.2.Overlaps b.2 :=
      ⟨fun _ _ hab hba => hab (Box.overlaps_comm.mp hba)⟩
    exact ⟨a.2, b.2, Table.get?_of_mem h ha, Table.get?_of_mem h hb,
      hpairwise.forall ha hb fun hab => hmn (congrArg Prod.fst hab)⟩

/-! ### Heights -/

/-- A table fits between its row and the next one exactly when it has at most eight attributes. -/
theorem entityHeight_le_iff {attributes : Nat} :
    entityHeight attributes ≤ 250 ↔ attributes ≤ 8 := by
  unfold entityHeight
  omega

/-- A table has a height. -/
theorem entityHeight_pos (attributes : Nat) : 0 < entityHeight attributes := by
  unfold entityHeight
  omega

/-- Tables side by side do not overlap. -/
theorem not_overlaps_of_beside {x y x' y' : Int} {e e' : Entity} (h : x + 180 ≤ x') :
    ¬(entityBox x y e).Overlaps (entityBox x' y' e') := by
  intro hoverlaps
  have : x' < x + 180 := hoverlaps.2.1
  omega

/-! ### Entities around a junction -/

/-- The entities stand around a junction: there are three of them, and in exactly one of them
relationships meet. -/
def HasTriangle (es : List Entity) (rs : List Connector) : Prop :=
  es.length = 3 ∧ (junctions es rs).length = 1

/-- Where two entities stand around a junction, each of the three has a column of its own. -/
theorem pairwise_triangle {junction : Entity} {others : List Entity} (h : others.length = 2) :
    (triangle junction others).Pairwise fun a b => ¬a.2.Overlaps b.2 := by
  obtain ⟨left, right, rfl⟩ := List.length_eq_two.mp h
  have hleft : ¬(entityBox 400 310 junction).Overlaps (entityBox 100 60 left) :=
    fun hoverlaps => not_overlaps_of_beside (by decide) (Box.overlaps_comm.mp hoverlaps)
  have hright : ¬(entityBox 400 310 junction).Overlaps (entityBox 700 60 right) :=
    not_overlaps_of_beside (by decide)
  have hboth : ¬(entityBox 100 60 left).Overlaps (entityBox 700 60 right) :=
    not_overlaps_of_beside (by decide)
  have hentries : triangle junction [left, right] =
      [(junction.id, entityBox 400 310 junction), (left.id, entityBox 100 60 left),
        (right.id, entityBox 700 60 right)] := rfl
  rw [hentries]
  simp [hleft, hright, hboth]

/-! ### Entities in a grid -/

/-- Every table in the grid with another one below it has at most eight attributes. -/
def HasRoom (es : List Entity) : Prop :=
  ∀ (i : Nat) (h : i < es.length), i + (gridColumns es.length).toNat < es.length →
    es[i].attributes.length ≤ 8

instance (es : List Entity) : Decidable (HasRoom es) := by unfold HasRoom; infer_instance

/-- The box of a table by its place in a grid. -/
def gridBox (columns i : Nat) (e : Entity) : Box :=
  entityBox (100 + (i % columns : Nat) * 300) (60 + (i / columns : Nat) * 250) e

/-- A later table overlaps an earlier one exactly when they stand in one column and the earlier one
reaches down to its row. -/
theorem overlaps_grid_iff {columns i j : Nat} (hij : i ≤ j) (e e' : Entity) :
    (gridBox columns i e).Overlaps (gridBox columns j e') ↔
      i % columns = j % columns ∧
        ((j / columns : Nat) - (i / columns : Nat) : Int) * 250 <
          entityHeight e.attributes.length := by
  have hrow : i / columns ≤ j / columns := Nat.div_le_div_right hij
  have hheight := entityHeight_pos e'.attributes.length
  simp only [Box.Overlaps, Box.right, Box.bottom, gridBox, entityBox]
  omega

/-- No two tables of the grid overlap exactly when there is room for all of them. -/
theorem hasRoom_iff (es : List Entity) :
    (∀ (i j : Nat) (hi : i < es.length) (hj : j < es.length), i < j →
      ¬(gridBox (gridColumns es.length).toNat i es[i]).Overlaps
        (gridBox (gridColumns es.length).toNat j es[j])) ↔ HasRoom es := by
  constructor
  · intro hapart i hi hbelow
    have hcolumns : 0 < gridColumns es.length := gridColumns_pos (by omega)
    replace hcolumns : 0 < (gridColumns es.length).toNat := by omega
    generalize (gridColumns es.length).toNat = columns at *
    have hnot := hapart i (i + columns) hi hbelow (by omega)
    rw [overlaps_grid_iff (by omega), Nat.add_mod_right, Nat.add_div_right i hcolumns] at hnot
    rw [← entityHeight_le_iff]
    omega
  · intro hroom i j hi hj hij hoverlaps
    have hcolumns : 0 < gridColumns es.length := gridColumns_pos (by omega)
    replace hcolumns : 0 < (gridColumns es.length).toNat := by omega
    have hfits := hroom i hi
    generalize (gridColumns es.length).toNat = columns at *
    obtain ⟨hcolumn, hlow⟩ := (overlaps_grid_iff hij.le _ _).mp hoverlaps
    -- In the same column the later table stands at least one row further down.
    have hrow : i / columns + 1 ≤ j / columns := by
      have hi' := Nat.div_add_mod i columns
      have hj' := Nat.div_add_mod j columns
      by_contra hle
      have : columns * (j / columns) ≤ columns * (i / columns) :=
        Nat.mul_le_mul_left _ (by omega)
      omega
    have hbelow : i + columns ≤ j := by
      have hi' := Nat.div_add_mod i columns
      have hj' := Nat.div_add_mod j columns
      have := Nat.mul_le_mul_left columns hrow
      rw [Nat.mul_add, Nat.mul_one] at this
      omega
    have hheight := entityHeight_le_iff.mpr (hfits (by omega))
    omega

/-- The boxes of a grid do not overlap exactly when there is room for each of them. -/
theorem pairwise_gridBoxes_iff (es : List Entity) :
    (gridBoxes es).Pairwise (fun a b => ¬a.2.Overlaps b.2) ↔ HasRoom es := by
  rw [← hasRoom_iff, gridBoxes, List.pairwise_iff_getElem]
  simp only [List.length_map, List.length_zipIdx, List.getElem_map, List.getElem_zipIdx,
    Nat.zero_add]
  rfl

/-! ### The boxes of the entities -/

/-- The boxes of distinct names are disjoint when none of them overlaps a later one. -/
theorem disjointBoxes_ofList_iff {entries : List (String × Box)} (h : (Table.names entries).Nodup)
    {names : List String} (hnames : (Table.ofList entries).names.Perm names) :
    DisjointBoxes names (.ofList entries) ↔ entries.Pairwise fun a b => ¬a.2.Overlaps b.2 := by
  rw [← disjointBoxes_perm hnames]
  rw [Table.ofList_eq_self h]
  exact disjointBoxes_names_iff h

/-- The same of the boxes under their names. -/
theorem disjointBoxes_gridBoxes_iff {es : List Entity} (h : (es.map Entity.id).Nodup) :
    DisjointBoxes (es.map Entity.id) (.ofList (gridBoxes es)) ↔ HasRoom es := by
  rw [← pairwise_gridBoxes_iff]
  refine disjointBoxes_ofList_iff ?_ (List.Perm.of_eq (names_gridBoxes h))
  rw [entries_gridBoxes]
  exact h

/-- Three entities in a triangle do not overlap. -/
theorem disjointBoxes_triangle {es : List Entity} (h : (es.map Entity.id).Nodup)
    (hthree : es.length = 3) {junction : Entity} (hj : junction ∈ es) :
    DisjointBoxes (es.map Entity.id)
      (.ofList (triangle junction (es.filter fun e => e.id != junction.id))) := by
  have hnames := names_triangle h hj
  refine (disjointBoxes_ofList_iff (nodup_triangle h junction) hnames).mpr (pairwise_triangle ?_)
  have hlength := hnames.length_eq
  rw [Table.ofList_eq_self (nodup_triangle h junction), entries_triangle] at hlength
  simp only [List.length_cons, List.length_map] at hlength
  omega

/-- Every entity has a box. The boxes are disjoint exactly when the entities stand around a
junction, or every table of the grid with another one below it has at most eight attributes. -/
theorem entities_disjoint_iff (es : List Entity) (rs : List Connector)
    (h : (es.map Entity.id).Nodup) :
    (entities es rs).names.Perm (es.map Entity.id) ∧
      (DisjointBoxes (es.map Entity.id) (entities es rs) ↔ HasTriangle es rs ∨ HasRoom es) := by
  refine ⟨names_entities h rs, ?_⟩
  unfold entities
  split
  · rename_i junction hj
    have hone : (junctions es rs).length = 1 := by rw [hj, List.length_singleton]
    have hmem : junction ∈ es := by
      have : junction ∈ junctions es rs := hj ▸ List.mem_singleton_self junction
      exact List.mem_of_mem_filter this
    split
    · rename_i hthree
      exact iff_of_true (disjointBoxes_triangle h hthree hmem) (.inl ⟨hthree, hone⟩)
    · rename_i hthree
      rw [disjointBoxes_gridBoxes_iff h]
      exact (or_iff_right fun htriangle => hthree htriangle.1).symm
  · rename_i hnone
    rw [disjointBoxes_gridBoxes_iff h]
    refine (or_iff_right fun htriangle => ?_).symm
    obtain ⟨junction, hj⟩ := List.length_eq_one_iff.mp htriangle.2
    exact hnone junction hj

/-- Four entities without relationships, the first of them with so many attributes. -/
def quartet (attributes : Nat) : List Entity :=
  ⟨"a", "a", List.replicate attributes ⟨"int", "n", [], ""⟩⟩ ::
    ["b", "c", "d"].map fun id => ⟨id, id, []⟩

/-- Four tables stand in two rows. The first one may have eight attributes, but not nine. -/
theorem entities_disjoint_iff_quartet :
    DisjointBoxes ["a", "b", "c", "d"] (entities (quartet 8) []) ∧
      ¬DisjointBoxes ["a", "b", "c", "d"] (entities (quartet 9) []) := by
  constructor
  · exact (entities_disjoint_iff (quartet 8) [] (by decide)).2.mpr (.inr (by decide))
  · intro hdisjoint
    have hfits := (entities_disjoint_iff (quartet 9) [] (by decide)).2.mp hdisjoint
    exact absurd hfits (not_or_intro (fun htriangle => absurd htriangle.1 (by decide)) (by decide))

end Layout

end Diagrams
