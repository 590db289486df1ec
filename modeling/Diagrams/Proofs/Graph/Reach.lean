import Diagrams.Graph.Levels
import Mathlib.Data.Nat.Basic
import Mathlib.Logic.Relation

/-!
# Ways through a graph

* `Digraph.Arrow`, `Digraph.Reaches` — one arrow, and a way along arrows.
* `Digraph.IsAcyclic` — no way leads back to where it started.
* `Digraph.Rises` — numbers that grow along every arrow. A graph has such numbers iff it is acyclic
  (`isAcyclic_iff_exists_rises`), so whatever is shown by going back along arrows ends.
* `Digraph.Ends` — no cycle is reached from a name, whatever the rest of the graph is like.
* `exists_source_reaches` — in an acyclic graph every name is reached from one to which no arrow
  leads, and `source_unique_of_reaches` says when from one only. `exists_reaches_sink` — every name
  reaches one from which no arrow leads.
-/

namespace Diagrams.Digraph

variable {g : Digraph} {a b c : String}

/-- An arrow leads from a name to another. -/
def Arrow (g : Digraph) (a b : String) : Prop := b ∈ g.next a

/-- A way along arrows, perhaps without any, leads from a name to another. -/
def Reaches (g : Digraph) : String → String → Prop := Relation.ReflTransGen g.Arrow

/-- No way of one arrow or more leads back. -/
def IsAcyclic (g : Digraph) : Prop := ∀ a, ¬Relation.TransGen g.Arrow a a

/-- No way from the name meets a cycle. -/
def Ends (g : Digraph) (a : String) : Prop := ∀ b, g.Reaches a b → ¬Relation.TransGen g.Arrow b b

/-- The numbers grow along every arrow. -/
def Rises (g : Digraph) (rank : String → Nat) : Prop := ∀ ⦃a b⦄, g.Arrow a b → rank a < rank b

/-- Arrows are those of the list. -/
theorem arrow_iff : g.Arrow a b ↔ (a, b) ∈ g.arrows := by
  unfold Arrow next
  simp only [List.mem_map, List.mem_filter, beq_iff_eq]
  constructor
  · rintro ⟨⟨a', b'⟩, ⟨h, rfl⟩, rfl⟩
    exact h
  · intro h
    exact ⟨(a, b), ⟨h, rfl⟩, rfl⟩

/-- A target is a name to which an arrow leads. -/
theorem isTarget_iff : g.isTarget b = true ↔ ∃ a, g.Arrow a b := by
  unfold isTarget
  simp only [List.any_eq_true, beq_iff_eq, arrow_iff]
  constructor
  · rintro ⟨⟨a, b'⟩, h, rfl⟩
    exact ⟨a, h⟩
  · rintro ⟨a, h⟩
    exact ⟨(a, b), h, rfl⟩

/-- The arrows between names of a list are arrows with both ends in the list. -/
theorem arrow_within {names : List String} :
    (g.within names).Arrow a b ↔ g.Arrow a b ∧ a ∈ names ∧ b ∈ names := by
  simp only [arrow_iff, within, List.mem_filter, Bool.and_eq_true, List.contains_eq_mem,
    decide_eq_true_eq]

/-! ### Ways that end -/

/-- Where there is no cycle every way ends. -/
theorem IsAcyclic.ends (h : g.IsAcyclic) (a : String) : g.Ends a := fun b _ => h b

/-- A name whose ways end is on no cycle. -/
theorem Ends.not_cycle (h : g.Ends a) : ¬Relation.TransGen g.Arrow a a := h a .refl

/-- Ways that go on behind an arrow end as well. -/
theorem Ends.of_arrow (h : g.Ends a) (hab : g.Arrow a b) : g.Ends b :=
  fun c hbc => h c (.head hab hbc)

/-! ### Rising numbers -/

/-- Along a way of one arrow or more the numbers grow. -/
theorem Rises.lt_of_transGen {rank : String → Nat} (h : g.Rises rank)
    (hab : Relation.TransGen g.Arrow a b) : rank a < rank b := by
  induction hab with
  | single hab => exact h hab
  | tail _ hbc ih => exact Nat.lt_trans ih (h hbc)

/-- Along a way the numbers do not fall. -/
theorem Rises.le_of_reaches {rank : String → Nat} (h : g.Rises rank) (hab : g.Reaches a b) :
    rank a ≤ rank b := by
  induction hab with
  | refl => exact Nat.le_refl _
  | tail _ hbc ih => exact Nat.le_trans ih (Nat.le_of_lt (h hbc))

/-- Where numbers rise along every arrow there is no cycle. -/
theorem Rises.isAcyclic {rank : String → Nat} (h : g.Rises rank) : g.IsAcyclic :=
  fun _ ha => Nat.lt_irrefl _ (h.lt_of_transGen ha)

open Classical in
/-- How many arrows start at names that lead to a name. -/
noncomputable def depthOf (g : Digraph) (b : String) : Nat :=
  (g.arrows.filter fun r => Relation.TransGen g.Arrow r.1 b).length

/-- No more arrows lead to a name than there are. -/
theorem depthOf_le (g : Digraph) (b : String) : g.depthOf b ≤ g.arrows.length :=
  List.length_filter_le _ _

/-- Without cycles, more arrows start before the end of an arrow than before its start. -/
theorem IsAcyclic.rises_depthOf (h : g.IsAcyclic) : g.Rises g.depthOf := by
  classical
  intro a b hab
  have hsub : g.arrows.filter (fun r => Relation.TransGen g.Arrow r.1 a) =
      (g.arrows.filter fun r => Relation.TransGen g.Arrow r.1 b).filter fun r =>
        Relation.TransGen g.Arrow r.1 a := by
    rw [List.filter_filter]
    apply List.filter_congr
    intro r _
    by_cases hr : Relation.TransGen g.Arrow r.1 a
    · simp [hr, hr.tail hab]
    · simp [hr]
  unfold depthOf
  rw [hsub, List.length_filter_lt_length_iff_exists]
  -- the arrow itself starts before `b`, and not before `a`
  refine ⟨(a, b), List.mem_filter.mpr ⟨arrow_iff.mp hab, ?_⟩, ?_⟩
  · simpa using Relation.TransGen.single hab
  · simpa using h a

/-- Cycles are missing exactly where numbers rise along every arrow. -/
theorem isAcyclic_iff_exists_rises : g.IsAcyclic ↔ ∃ rank, g.Rises rank :=
  ⟨fun h => ⟨_, h.rises_depthOf⟩, fun ⟨_, h⟩ => h.isAcyclic⟩

/-- Without cycles there is no way that goes on for ever. -/
theorem IsAcyclic.wellFounded (h : g.IsAcyclic) : WellFounded fun b a => g.Arrow a b := by
  -- the number of arrows that do not start before a name falls along every arrow
  have hfall : ∀ a b, g.Arrow a b →
      g.arrows.length - g.depthOf b < g.arrows.length - g.depthOf a := by
    intro a b hab
    have hlt := h.rises_depthOf hab
    have hle := g.depthOf_le b
    omega
  exact Subrelation.wf (fun {b a} hab => hfall a b hab)
    (measure fun n => g.arrows.length - g.depthOf n).wf

/-- A new name with arrows out of it closes no way. -/
theorem IsAcyclic.add_source {g' : Digraph} (h : g.IsAcyclic) (new : String)
    (hnew : ∀ a b, g.Arrow a b → a ≠ new ∧ b ≠ new)
    (harrows : ∀ a b, g'.Arrow a b → g.Arrow a b ∨ a = new ∧ b ≠ new) : g'.IsAcyclic := by
  refine isAcyclic_iff_exists_rises.mpr
    ⟨fun n => if n = new then 0 else g.depthOf n + 1, fun a b hab => ?_⟩
  rcases harrows a b hab with hold | ⟨rfl, hb⟩
  · obtain ⟨ha, hb⟩ := hnew a b hold
    simp only [if_neg ha, if_neg hb]
    exact Nat.succ_lt_succ (h.rises_depthOf hold)
  · simp only [if_neg hb]
    exact Nat.succ_pos _

/-- A new name with arrows into it closes no way. -/
theorem IsAcyclic.add_target {g' : Digraph} (h : g.IsAcyclic) (new : String)
    (hnew : ∀ a b, g.Arrow a b → a ≠ new ∧ b ≠ new)
    (harrows : ∀ a b, g'.Arrow a b → g.Arrow a b ∨ b = new ∧ a ≠ new) : g'.IsAcyclic := by
  refine isAcyclic_iff_exists_rises.mpr
    ⟨fun n => if n = new then g.arrows.length + 1 else g.depthOf n, fun a b hab => ?_⟩
  rcases harrows a b hab with hold | ⟨rfl, ha⟩
  · obtain ⟨ha, hb⟩ := hnew a b hold
    simp only [if_neg ha, if_neg hb]
    exact h.rises_depthOf hold
  · simp only [if_neg ha]
    exact Nat.lt_succ_of_le (g.depthOf_le a)

/-! ### Where ways start and end -/

/-- Every name of an acyclic graph reaches a name from which no arrow leads. -/
theorem IsAcyclic.exists_reaches_sink (h : g.IsAcyclic) (a : String) :
    ∃ b, g.next b = [] ∧ g.Reaches a b := by
  induction a using h.wellFounded.induction with
  | _ a ih =>
    cases hnext : g.next a with
    | nil => exact ⟨a, hnext, .refl⟩
    | cons b rest =>
      have hab : g.Arrow a b := by
        rw [Arrow, hnext]
        exact List.mem_cons_self
      obtain ⟨c, hc, hbc⟩ := ih b hab
      exact ⟨c, hc, .head hab hbc⟩

/-- Every name of an acyclic graph is reached from a name to which no arrow leads. -/
theorem IsAcyclic.exists_source_reaches (h : g.IsAcyclic) (b : String) :
    ∃ a, g.isTarget a = false ∧ g.Reaches a b := by
  obtain ⟨rank, hrank⟩ := isAcyclic_iff_exists_rises.mp h
  induction hn : rank b using Nat.strong_induction_on generalizing b with
  | _ n ih =>
    by_cases hb : g.isTarget b = true
    · obtain ⟨a, hab⟩ := isTarget_iff.mp hb
      obtain ⟨r, hr, hra⟩ := ih (rank a) (hn ▸ hrank hab) a rfl
      exact ⟨r, hr, hra.tail hab⟩
    · exact ⟨b, by simpa using hb, .refl⟩

/-- When no two arrows lead to one name from different names, a name is reached from one name only
among those to which no arrow leads. -/
theorem source_unique_of_reaches (h : ∀ ⦃a a' b⦄, g.Arrow a b → g.Arrow a' b → a = a')
    {r r' : String} (hr : g.isTarget r = false) (hr' : g.isTarget r' = false)
    (hrb : g.Reaches r b) (hrb' : g.Reaches r' b) : r = r' := by
  have hsource : ∀ {a r}, g.isTarget r = false → ¬g.Arrow a r := by
    intro a r hr ha
    rw [isTarget_iff.mpr ⟨a, ha⟩] at hr
    exact nomatch hr
  induction hrb with
  | refl =>
    rcases hrb'.cases_tail with heq | ⟨a, _, ha⟩
    · exact heq
    · exact absurd ha (hsource hr)
  | tail _ hab ih =>
    rcases hrb'.cases_tail with heq | ⟨a', hra', ha'⟩
    · exact absurd (heq ▸ hab) (hsource hr')
    · exact ih (h hab ha' ▸ hra')

/-- The names from which layouts start are distinct names of the list. -/
theorem nodup_roots {names : List String} (h : names.Nodup) : (g.roots names).Nodup := by
  unfold roots
  split
  · exact h.sublist (List.take_sublist 1 names)
  · exact h.filter _

/-- In an acyclic graph layouts start from the names to which no arrow leads. -/
theorem IsAcyclic.mem_roots_within {names : List String} (h : (g.within names).IsAcyclic) :
    a ∈ (g.within names).roots names ↔ a ∈ names ∧ (g.within names).isTarget a = false := by
  have hfilter : (g.within names).roots names =
      names.filter fun n => !(g.within names).isTarget n := by
    unfold roots
    split
    · rename_i hnone
      -- a first name would be reached from one to which no arrow leads
      cases names with
      | nil => rfl
      | cons n rest =>
        obtain ⟨r, hr, hrn⟩ := h.exists_source_reaches n
        have hmem : r ∈ n :: rest := by
          rcases hrn.cases_head with rfl | ⟨b, hrb, _⟩
          · exact List.mem_cons_self
          · exact (arrow_within.mp hrb).2.1
        have : r ∈ (n :: rest).filter fun n' => !(g.within (n :: rest)).isTarget n' :=
          List.mem_filter.mpr ⟨hmem, by simp [hr]⟩
        rw [hnone] at this
        exact absurd this List.not_mem_nil
    · rfl
  rw [hfilter, List.mem_filter]
  simp

end Diagrams.Digraph
