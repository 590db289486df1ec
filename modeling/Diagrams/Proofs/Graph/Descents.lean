import Diagrams.Proofs.Graph.Memory
import Mathlib.Algebra.BigOperators.Fin
import Mathlib.Data.Finite.Sigma
import Mathlib.Data.Finite.Sum
import Mathlib.SetTheory.Cardinal.Finite

/-!
# Widths count ways down

A way down from a name goes on to one of the names that it leads to, from there to one of those below,
and ends at a name that leads nowhere. The width of a name is the number of ways down from it: a name
below that is met on several ways takes a column for each of them.

**Main statement** (`IsAcyclic.width_eq_card_descent`): in an acyclic graph this is so with any
memory that holds such numbers, for one name and for several asked in turn, and the memory holds such
numbers afterwards.

* `Descent` — the ways down from a name, as data. `Descent.unfolding` takes off the first choice, so
  that ways are counted along the arrows.
* `IsAcyclic.isWidth_card_descent` — the numbers of ways are the widths of the graph.
* `Measures.exists_names_subset` — counting forgets nothing and remembers what it has counted, in any
  graph.
-/

namespace Diagrams.Digraph

variable {g : Digraph}

/-! ### Ways down -/

/-- A way down from a name. Names are chosen by their places, so that a name to which two arrows lead
is chosen in two ways. -/
inductive Descent (g : Digraph) : String → Type where
  /-- The name leads nowhere. -/
  | stop {n : String} (h : g.next n = []) : Descent g n
  /-- One of the names that it leads to, and a way down from there. -/
  | step {n : String} (i : Fin (g.next n).length) (below : Descent g (g.next n)[i]) : Descent g n

/-- A way down stops at once, or consists of its first choice and the way behind it. -/
def Descent.unfolding (g : Digraph) (n : String) :
    g.Descent n ≃ PLift (g.next n = []) ⊕ Σ i : Fin (g.next n).length, g.Descent (g.next n)[i] where
  toFun
    | .stop h => .inl ⟨h⟩
    | .step i below => .inr ⟨i, below⟩
  invFun
    | .inl h => .stop h.down
    | .inr ⟨i, below⟩ => .step i below
  left_inv d := by cases d <;> rfl
  right_inv s := by rcases s with h | ⟨i, below⟩ <;> rfl

/-- From a name that reaches the end of a way there is a way down. -/
theorem Reaches.nonempty_descent {a b : String} (hab : g.Reaches a b) (hb : g.next b = []) :
    Nonempty (g.Descent a) := by
  induction hab using Relation.ReflTransGen.head_induction_on with
  | refl => exact ⟨.stop hb⟩
  | head hac _ ih =>
    obtain ⟨i, hi, rfl⟩ := List.getElem_of_mem hac
    exact ih.map (Descent.step ⟨i, hi⟩)

namespace IsAcyclic

/-- From every name a way leads to an end. -/
theorem nonempty_descent (hg : g.IsAcyclic) (n : String) : Nonempty (g.Descent n) := by
  obtain ⟨b, hb, hnb⟩ := hg.exists_reaches_sink n
  exact hnb.nonempty_descent hb

/-- Without cycles there are finitely many ways down from each name. -/
theorem finite_descent (hg : g.IsAcyclic) (n : String) : Finite (g.Descent n) := by
  induction n using hg.wellFounded.induction with
  | _ n ih =>
    have hbelow (i : Fin (g.next n).length) : Finite (g.Descent (g.next n)[i]) :=
      ih _ (List.getElem_mem i.isLt)
    exact Finite.of_equiv _ (Descent.unfolding g n).symm

/-- The ways down are counted along the arrows. -/
theorem card_descent (hg : g.IsAcyclic) (n : String) :
    Nat.card (g.Descent n) = Nat.card (PLift (g.next n = [])) +
      ((g.next n).map fun b => Nat.card (g.Descent b)).sum := by
  have hfinite (i : Fin (g.next n).length) : Finite (g.Descent (g.next n)[i]) :=
    hg.finite_descent _
  rw [Nat.card_congr (Descent.unfolding g n), Nat.card_sum, Nat.card_sigma]
  congr 1
  exact Fin.sum_univ_fun_getElem (g.next n) fun b => Nat.card (g.Descent b)

/-- The numbers of ways down are the widths. -/
theorem isWidth_card_descent (hg : g.IsAcyclic) :
    g.IsWidth fun n => Nat.card (g.Descent n) := by
  intro n
  have hcard := hg.card_descent n
  cases hnext : g.next n with
  | nil => simp [hcard, hnext]
  | cons b rest =>
    -- one of the ways goes on to the first name, so that the least width of one does not matter
    have hb : 0 < Nat.card (g.Descent b) :=
      have := hg.nonempty_descent b
      have := hg.finite_descent b
      Nat.card_pos
    simp only [hnext, List.map_cons, List.sum_cons, reduceCtorEq, Nat.card_of_isEmpty] at hcard ⊢
    omega

end IsAcyclic

/-! ### What is remembered -/

/-- Counting forgets nothing, and the targets are remembered unless they are on the path. -/
theorem Measures.exists_names_subset {path targets : List String}
    {memory memory' : Option (Table Nat)} {v : Nat} (h : g.Measures path memory targets v memory') :
    ∀ t, memory = some t → ∃ t', memory' = some t' ∧ t.names ⊆ t'.names ∧
      ∀ b ∈ targets, b ∉ path → b ∈ t'.names := by
  induction h with
  | nil path memory =>
    intro t hmemory
    exact ⟨t, hmemory, List.Subset.refl _, fun _ hb => absurd hb List.not_mem_nil⟩
  | onPath hb _ ih =>
    intro t hmemory
    obtain ⟨t', hmemory', hkept, hrest⟩ := ih t hmemory
    exact ⟨t', hmemory', hkept, List.forall_mem_cons.mpr ⟨fun hnew => absurd hb hnew, hrest⟩⟩
  | known _ hu _ ih =>
    intro t hmemory
    obtain ⟨t', hmemory', hkept, hrest⟩ := ih t hmemory
    rw [hmemory, Option.bind_some] at hu
    refine ⟨t', hmemory', hkept, List.forall_mem_cons.mpr ⟨fun _ => ?_, hrest⟩⟩
    exact hkept (Table.exists_get?_iff.mp ⟨_, hu⟩)
  | new _ _ _ _ ihBelow ihRest =>
    intro t hmemory
    obtain ⟨t₁, rfl, hkept₁, -⟩ := ihBelow t hmemory
    obtain ⟨t', hmemory', hkept, hrest⟩ := ihRest _ rfl
    refine ⟨t', hmemory', ?_, List.forall_mem_cons.mpr ⟨fun _ => ?_, hrest⟩⟩
    · exact List.Subset.trans hkept₁
        (List.Subset.trans (Table.names_subset_insert _ _ _) hkept)
    · exact hkept (Table.mem_names_insert _ _ _)

/-! ### Questions -/

/-- **Main statement.** In an acyclic graph there are finitely many ways down from each name. A memory
holds numbers of ways down. Then the width of a name is the number of ways down from it, behind any
path to which the name does not lead. Afterwards the memory holds numbers of ways down, all that were
in it and that of the name among them. So several names asked in turn give their numbers of ways
down. -/
theorem IsAcyclic.width_eq_card_descent (hg : g.IsAcyclic) {memory : Option (Table Nat)}
    (hmemory : Remembers (fun n => Nat.card (g.Descent n)) memory) :
    (∀ n, Finite (g.Descent n)) ∧
      (∀ path name, (∀ a ∈ path, ¬g.Reaches name a) →
        (g.width path memory name).1 = Nat.card (g.Descent name) ∧
        Remembers (fun n => Nat.card (g.Descent n)) (g.width path memory name).2 ∧
        ∀ t, memory = some t → ∃ t', (g.width path memory name).2 = some t' ∧
          t.names ⊆ t'.names ∧ name ∈ t'.names) ∧
      ∀ names, g.widthsInTurn memory names = names.map fun n => Nat.card (g.Descent n) := by
  have hw := hg.isWidth_card_descent
  refine ⟨hg.finite_descent, fun path name hpath => ?_, fun names => ?_⟩
  · obtain ⟨hwidth, hremembers⟩ := hg.width_eq_of_apart hw hmemory hpath
    refine ⟨hwidth, hremembers, fun t ht => ?_⟩
    obtain ⟨t', hmemory', hkept, htargets⟩ :=
      (g.measures_widths path memory [name]).exists_names_subset t ht
    have hname : name ∉ path := fun hm => hpath name hm .refl
    exact ⟨t', hmemory', hkept, htargets name List.mem_cons_self hname⟩
  · induction names generalizing memory with
    | nil => rfl
    | cons n rest ih =>
      obtain ⟨hwidth, hremembers⟩ := hg.width_eq hw hmemory n
      rw [widthsInTurn, hwidth, ih hremembers, List.map_cons]

/-- Two arrows lead from `A` to `B`, so that both ways down from `B` are met twice. They have been
counted before. -/
theorem width_eq_card_descent_doubled :
    let g : Digraph := ⟨[("A", "B"), ("A", "B"), ("A", "C"), ("B", "C"), ("B", "D")]⟩
    g.IsAcyclic ∧ Remembers (fun n => Nat.card (g.Descent n)) (some [("B", 2)]) ∧
      (∀ a ∈ ["E"], ¬g.Reaches "A" a) ∧
      (g.width ["E"] (some [("B", 2)]) "A").1 = Nat.card (g.Descent "A") ∧
      g.widthsInTurn (some [("B", 2)]) ["A", "C", "B"] = [5, 1, 2] := by
  intro g
  have hg : g.IsAcyclic := by
    refine isAcyclic_iff_exists_rises.mpr
      ⟨fun n => if n = "A" then 0 else if n = "B" then 1 else 2, fun a b hab => ?_⟩
    rw [arrow_iff] at hab
    simp only [g, List.mem_cons, Prod.mk.injEq, List.not_mem_nil, or_false] at hab
    rcases hab with ⟨rfl, rfl⟩ | ⟨rfl, rfl⟩ | ⟨rfl, rfl⟩ | ⟨rfl, rfl⟩ | ⟨rfl, rfl⟩ <;> decide
  have hC : Nat.card (g.Descent "C") = 1 := hg.isWidth_card_descent "C"
  have hD : Nat.card (g.Descent "D") = 1 := hg.isWidth_card_descent "D"
  have hB : Nat.card (g.Descent "B") = 2 := by
    have h := hg.isWidth_card_descent "B"
    rw [show g.next "B" = ["C", "D"] by decide] at h
    simpa [hC, hD] using h
  have hA : Nat.card (g.Descent "A") = 5 := by
    have h := hg.isWidth_card_descent "A"
    rw [show g.next "A" = ["B", "B", "C"] by decide] at h
    simpa [hB, hC] using h
  have hmemory : Remembers (fun n => Nat.card (g.Descent n)) (some [("B", 2)]) := by
    rintro t ⟨⟩ n v hv
    simp only [Table.get?, Option.ite_none_right_eq_some, Option.some.injEq] at hv
    obtain ⟨rfl, rfl⟩ := hv
    exact hB.symm
  have hapart : ∀ a ∈ ["E"], ¬g.Reaches "A" a := by
    intro a ha hreaches
    rw [List.mem_singleton.mp ha] at hreaches
    rcases hreaches.cases_tail with heq | ⟨b, -, hb⟩
    · exact absurd heq (by decide)
    · rw [arrow_iff] at hb
      simp [g] at hb
  have h := hg.width_eq_card_descent hmemory
  refine ⟨hg, hmemory, hapart, (h.2.1 ["E"] "A" hapart).1, ?_⟩
  rw [h.2.2]
  simp [hA, hB, hC]

end Diagrams.Digraph
