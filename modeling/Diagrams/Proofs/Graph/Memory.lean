import Diagrams.Proofs.Graph.Widths
import Mathlib.Algebra.Order.BigOperators.Group.List

/-!
# Widths asked one after the other

Several widths can be asked with one memory, so that none is counted twice. What is in the memory was
counted from the end of some path, and a name on that path counted as one; asked from the start the
same name may be wider.

**Main statement** (`forall₂_widthsInTurn`): whatever the graph is, no width is larger than the one
counted without a memory, and the two are equal for the names from which no cycle is reached. Below
a cycle they may differ, also when the same names are asked in another order
(`widthsInTurn_around_cycle`).

The bound goes through a memory because of what it says of every entry (`IsBelow`): the entry is at
most the width counted from the end of *any* path without remembered names. A name whose width is
being counted is not remembered yet, so it may stand on such a path (`exists_counts`).
-/

namespace Diagrams.Digraph

variable {g : Digraph}

/-! ### Widths without a memory -/

/-- The width of a name, counted from the end of a path without a memory. -/
def plainWidth (g : Digraph) (path : List String) (name : String) : Nat :=
  (g.width path none name).1

/-- Without a memory nothing is remembered. -/
theorem Measures.eq_none {path targets : List String} {memory memory' : Option (Table Nat)} {v : Nat}
    (h : g.Measures path memory targets v memory') (hnone : memory = none) : memory' = none := by
  induction h with
  | nil => exact hnone
  | onPath _ _ ih => exact ih hnone
  | known _ hu => simp [hnone] at hu
  | new _ _ _ _ ihBelow ihRest => exact ihRest (by rw [ihBelow hnone, Option.map_none])

/-- Nothing is remembered, and the targets are counted apart from each other. -/
theorem widths_none (g : Digraph) (path targets : List String) :
    g.widths path none targets = ((targets.map (g.plainWidth path)).sum, none) := by
  have hmemory (path targets : List String) : (g.widths path none targets).2 = none :=
    (g.measures_widths path none targets).eq_none rfl
  refine Prod.ext ?_ (hmemory path targets)
  induction targets with
  | nil => rw [widths, List.map_nil, List.sum_nil]
  | cons b rest ih =>
    dsimp only at ih ⊢
    rw [List.map_cons, List.sum_cons, ← ih, plainWidth, width]
    by_cases hb : b ∈ path
    · rw [widths, dif_pos hb, widths, dif_pos hb, widths]
    · rw [widths, dif_neg hb, widths, dif_neg hb]
      simp only [Option.bind_none, hmemory, Option.map_none]
      rw [widths, Nat.add_zero]

/-- A name that is not on the path takes the columns of the names it leads to, and is on the path
behind which they are counted. -/
theorem plainWidth_of_notMem {path : List String} {b : String} (hb : b ∉ path) :
    g.plainWidth path b = max 1 ((g.next b).map (g.plainWidth (b :: path))).sum := by
  rw [plainWidth, width, widths, dif_neg hb]
  simp only [Option.bind_none, widths_none, Option.map_none, List.map_nil, List.sum_nil,
    Nat.add_zero]

/-- Whatever the path is, a name takes a column. -/
theorem one_le_plainWidth (g : Digraph) (path : List String) (name : String) :
    1 ≤ g.plainWidth path name := by
  have hnone : IsPositive none := nofun
  exact (g.one_le_width path hnone name).1

/-! ### Entries of a memory -/

/-- None of the names is remembered. -/
def Apart (names : List String) (t : Table Nat) : Prop := ∀ a ∈ names, a ∉ t.names

/-- Every entry is at most the width counted from the end of a path without remembered names. -/
def IsBelow (g : Digraph) (t : Table Nat) : Prop :=
  ∀ n v, t.get? n = some v → ∀ path, Apart path t → v ≤ g.plainWidth path n

/-- Where no names are given none is remembered. -/
theorem apart_nil (t : Table Nat) : Apart [] t := fun _ ha => absurd ha List.not_mem_nil

/-- In an empty memory no width is too large. -/
theorem isBelow_nil (g : Digraph) : g.IsBelow [] := by
  intro n v hv
  cases hv

/-- Names that a memory does not hold are not in one that holds less. -/
theorem Apart.anti {names : List String} {t t' : Table Nat} (h : Apart names t')
    (hnames : t.names ⊆ t'.names) : Apart names t :=
  fun a ha hm => h a ha (hnames hm)

/-- What counting for targets makes of a memory. -/
structure Counts (g : Digraph) (path targets : List String) (t : Table Nat) (v : Nat)
    (t' : Table Nat) : Prop where
  /-- No entry is too large. -/
  isBelow : g.IsBelow t'
  /-- Nothing is forgotten. -/
  kept : t.names ⊆ t'.names
  /-- The names on the path are not remembered yet. -/
  apart : Apart path t'
  /-- Neither is the count too large. -/
  count_le : ∀ path', Apart path' t' → v ≤ (targets.map (g.plainWidth path')).sum

/-- A name may be remembered once everything that it leads to has been counted. -/
theorem Counts.isBelow_insert {path : List String} {b : String} {t t₁ : Table Nat} {below : Nat}
    (h : g.Counts (b :: path) (g.next b) t below t₁) :
    g.IsBelow (t₁.insert b (max 1 below)) := by
  have hb : b ∉ t₁.names := h.apart b List.mem_cons_self
  intro n v hv path' hpath'
  have hold : Apart path' t₁ := hpath'.anti (Table.names_subset_insert _ _ _)
  rw [Table.get?_insert] at hv
  split at hv
  · rename_i hbn
    obtain rfl := hbn
    cases hv
    have hbpath : b ∉ path' := fun hm => hpath' b hm (Table.mem_names_insert _ _ _)
    have hcount := h.count_le (b :: path') (List.forall_mem_cons.mpr ⟨hb, hold⟩)
    rw [plainWidth_of_notMem hbpath]
    exact max_le_max_left 1 hcount
  · exact h.isBelow n v hv path' hold

/-- **Step.** The bounds are kept by the counting for any targets. -/
theorem Measures.counts {path targets : List String} {memory memory' : Option (Table Nat)} {v : Nat}
    (h : g.Measures path memory targets v memory') :
    ∀ t, memory = some t → Apart path t → g.IsBelow t →
      ∃ t', memory' = some t' ∧ g.Counts path targets t v t' := by
  induction h with
  | nil path memory =>
    intro t hmemory hpath ht
    exact ⟨t, hmemory, ht, List.Subset.refl _, hpath, fun _ _ => Nat.le_refl 0⟩
  | @onPath path rest memory memory' b v _ _ ih =>
    intro t hmemory hpath ht
    obtain ⟨t', hmemory', h⟩ := ih t hmemory hpath ht
    refine ⟨t', hmemory', h.isBelow, h.kept, h.apart, fun path' hpath' => ?_⟩
    rw [List.map_cons, List.sum_cons]
    exact Nat.add_le_add (g.one_le_plainWidth path' b) (h.count_le path' hpath')
  | @known path rest memory memory' b u v _ hu _ ih =>
    intro t hmemory hpath ht
    obtain ⟨t', hmemory', h⟩ := ih t hmemory hpath ht
    refine ⟨t', hmemory', h.isBelow, h.kept, h.apart, fun path' hpath' => ?_⟩
    rw [hmemory, Option.bind_some] at hu
    rw [List.map_cons, List.sum_cons]
    exact Nat.add_le_add (ht b u hu path' (hpath'.anti h.kept)) (h.count_le path' hpath')
  | @new path rest memory memory₁ memory' b below v hb hmiss _ _ ihBelow ihRest =>
    intro t hmemory hpath ht
    have hnew : b ∉ t.names := by
      rw [hmemory, Option.bind_some] at hmiss
      intro hm
      obtain ⟨u, hu⟩ := Table.exists_get?_iff.mpr hm
      rw [hmiss] at hu
      cases hu
    obtain ⟨t₁, rfl, h₁⟩ := ihBelow t hmemory (List.forall_mem_cons.mpr ⟨hnew, hpath⟩) ht
    have hpath₂ : Apart path (t₁.insert b (max 1 below)) := by
      intro a ha hm
      rcases Table.mem_names_insert_iff.mp hm with rfl | hm
      · exact hb ha
      · exact h₁.apart a (List.mem_cons_of_mem b ha) hm
    obtain ⟨t', hmemory', h⟩ := ihRest _ rfl hpath₂ h₁.isBelow_insert
    refine ⟨t', hmemory', h.isBelow, ?_, h.apart, fun path' hpath' => ?_⟩
    · exact List.Subset.trans h₁.kept
        (List.Subset.trans (Table.names_subset_insert _ _ _) h.kept)
    · have hentry : max 1 below ≤ g.plainWidth path' b := by
        apply h₁.isBelow_insert b _ (by rw [Table.get?_insert, if_pos rfl])
        exact hpath'.anti h.kept
      rw [List.map_cons, List.sum_cons]
      exact Nat.add_le_add hentry (h.count_le path' hpath')

/-- The bounds after targets have been counted. -/
theorem exists_counts (path : List String) (memory : Option (Table Nat)) (targets : List String) :
    ∀ t, memory = some t → Apart path t → g.IsBelow t →
      ∃ v t', g.widths path memory targets = (v, some t') ∧ g.Counts path targets t v t' := by
  intro t hmemory hpath ht
  obtain ⟨t', hmemory', h⟩ := (g.measures_widths path memory targets).counts t hmemory hpath ht
  exact ⟨_, t', Prod.ext rfl hmemory', h⟩

/-- A width that is looked up is not larger than the one counted without a memory, and no entry
becomes too large. -/
theorem IsBelow.width_le {t : Table Nat} (ht : g.IsBelow t) (name : String) :
    (g.width [] (some t) name).1 ≤ g.plainWidth [] name ∧
      ∀ t' ∈ (g.width [] (some t) name).2, g.IsBelow t' := by
  obtain ⟨v, t', hwidth, hcounts⟩ := exists_counts [] (some t) [name] t rfl (apart_nil t) ht
  have hle := hcounts.count_le [] (apart_nil t')
  rw [List.map_singleton, List.sum_singleton] at hle
  rw [width, hwidth]
  refine ⟨hle, fun u hu => ?_⟩
  obtain rfl : t' = u := Option.some.inj hu
  exact hcounts.isBelow

/-! ### Questions with one memory -/

/-- The widths of some names, asked one after the other with one memory. -/
def widthsInTurn (g : Digraph) (memory : Option (Table Nat)) : List String → List Nat
  | [] => []
  | n :: rest => (g.width [] memory n).1 :: g.widthsInTurn (g.width [] memory n).2 rest

/-- **Main statement.** The widths of some names are asked with one memory, empty at first. None is
larger than the width counted without a memory, and it is the same for a name from which no cycle is
reached, whatever was asked before. -/
theorem forall₂_widthsInTurn (g : Digraph) (names : List String) :
    List.Forall₂ (fun n v =>
        v ≤ (g.width [] none n).1 ∧ (g.Ends n → v = (g.width [] none n).1))
      names (g.widthsInTurn (some []) names) := by
  obtain ⟨w, hw⟩ := g.exists_isWidthOfEnds
  have hnone : g.RemembersEnds w none := by
    intro t ht
    cases ht
  have hplain : ∀ n, g.Ends n → (g.width [] none n).1 = w n := fun n => (hw.width_eq hnone n).1
  have hrun : ∀ (names : List String) (t : Table Nat), g.IsBelow t →
      g.RemembersEnds w (some t) →
      List.Forall₂ (fun n v =>
          v ≤ (g.width [] none n).1 ∧ (g.Ends n → v = (g.width [] none n).1))
        names (g.widthsInTurn (some t) names) := by
    intro names
    induction names with
    | nil => exact fun _ _ _ => .nil
    | cons n rest ih =>
      intro t hbelow hremembers
      obtain ⟨v, t', hwidth, hcounts⟩ := exists_counts [] (some t) [n] t rfl (apart_nil t) hbelow
      obtain ⟨hvalue, hremembers'⟩ := hw.width_eq hremembers n
      have hle := hcounts.count_le [] (apart_nil t')
      rw [List.map_singleton, List.sum_singleton] at hle
      rw [width, hwidth] at hvalue hremembers'
      rw [widthsInTurn, width, hwidth]
      refine .cons ⟨hle, fun hn => ?_⟩ (ih t' hcounts.isBelow hremembers')
      rw [hvalue hn, hplain n hn]
  have hempty : g.RemembersEnds w (some []) := by
    rintro t ⟨⟩ n v hv
    cases hv
  exact hrun names [] g.isBelow_nil hempty

/-- A name that leads nowhere is asked after two names on a cycle. -/
theorem forall₂_widthsInTurn_beside_cycle :
    let g : Digraph := ⟨[("A", "B"), ("A", "C"), ("B", "A")]⟩
    g.Ends "C" ∧
      List.Forall₂ (fun n v =>
          v ≤ (g.width [] none n).1 ∧ (g.Ends n → v = (g.width [] none n).1))
        ["A", "B", "C"] (g.widthsInTurn (some []) ["A", "B", "C"]) := by
  intro g
  have hstop : ∀ b, ¬g.Arrow "C" b := by
    intro b hb
    rw [arrow_iff] at hb
    simp [g] at hb
  refine ⟨fun b hb => ?_, forall₂_widthsInTurn g ["A", "B", "C"]⟩
  rcases hb.cases_head with rfl | ⟨c, hc, -⟩
  · intro hcycle
    obtain ⟨c, hc, -⟩ := Relation.TransGen.head'_iff.mp hcycle
    exact hstop c hc
  · exact absurd hc (hstop c)

/-- Two names lead to each other, and the first one elsewhere as well. When it is asked first the
other one is remembered with the width it has behind the first. -/
theorem widthsInTurn_around_cycle :
    let g : Digraph := ⟨[("A", "B"), ("A", "C"), ("B", "A")]⟩
    g.widthsInTurn (some []) ["A", "B"] = [2, 1] ∧
      g.widthsInTurn (some []) ["B", "A"] = [2, 2] ∧
      (["A", "B"].map fun n => (g.width [] none n).1) = [2, 2] := by
  simp [widthsInTurn, width, widths, next, Table.get?, Table.insert]

end Diagrams.Digraph
