import Diagrams.Graph.Width
import Diagrams.Proofs.Graph.Reach
import Mathlib.Algebra.Ring.Nat

/-!
# Widths where no cycle is reached

**Main statement** (`IsWidthOfEnds.sum_eq`): the counting of widths gives the same for a name from
which no cycle is reached whatever the path and the memory are, as long as the memory holds the
widths of such names. What it holds of other names does not matter.

* `Measures` — what the counting does, target by target. Whatever is shown of all countings goes by
  its four cases (`measures_widths`).
* `IsWidth` — what the widths of a graph are: a name takes one column when it leads nowhere, and as
  many as the names that it leads to otherwise. An acyclic graph has such widths (`exists_isWidth`).
* `IsWidthOfEnds` — the same for the names from which no cycle is reached. Every graph has widths of
  these (`exists_isWidthOfEnds`).
* `IsAcyclic.width_eq` — in an acyclic graph this is so for all names.
* `one_le_width` — in any graph a width is at least one.
-/

namespace Diagrams.Digraph

variable {g : Digraph} {w : String → Nat}

/-! ### The counting -/

/-- The counting for targets from the end of a path, with a memory, gives a number and leaves a
memory. -/
inductive Measures (g : Digraph) :
    List String → Option (Table Nat) → List String → Nat → Option (Table Nat) → Prop where
  /-- Without targets nothing is counted. -/
  | nil (path : List String) (memory : Option (Table Nat)) : Measures g path memory [] 0 memory
  /-- A name on the path counts for one. -/
  | onPath {path rest : List String} {memory memory' : Option (Table Nat)} {b : String} {v : Nat}
      (hb : b ∈ path) (hrest : Measures g path memory rest v memory') :
      Measures g path memory (b :: rest) (1 + v) memory'
  /-- A name that is remembered is not counted again. -/
  | known {path rest : List String} {memory memory' : Option (Table Nat)} {b : String} {u v : Nat}
      (hb : b ∉ path) (hu : memory.bind (·.get? b) = some u)
      (hrest : Measures g path memory rest v memory') :
      Measures g path memory (b :: rest) (u + v) memory'
  /-- What another name leads to is counted, and the name is remembered. -/
  | new {path rest : List String} {memory memory₁ memory' : Option (Table Nat)} {b : String}
      {below v : Nat} (hb : b ∉ path) (hmiss : memory.bind (·.get? b) = none)
      (hbelow : Measures g (b :: path) memory (g.next b) below memory₁)
      (hrest : Measures g path (memory₁.map (·.insert b (max 1 below))) rest v memory') :
      Measures g path memory (b :: rest) (max 1 below + v) memory'

/-- The counting follows the rules. -/
theorem measures_widths (g : Digraph) (path : List String) (memory : Option (Table Nat))
    (targets : List String) :
    g.Measures path memory targets (g.widths path memory targets).1
      (g.widths path memory targets).2 := by
  induction path, memory, targets using Digraph.widths.induct g with
  | case1 path memory =>
    rw [widths]
    exact .nil path memory
  | case2 path memory b rest hb v memory' heq ih =>
    rw [widths, dif_pos hb]
    exact .onPath hb ih
  | case3 path memory b rest hb u hu v memory' heq ih =>
    rw [widths, dif_neg hb]
    simp only [hu]
    exact .known hb hu ih
  | case4 path memory b rest hb hmiss below memory₁ hbelow u v memory' heq ihBelow ihRest =>
    rw [widths, dif_neg hb]
    simp only [hmiss, hbelow]
    rw [hbelow] at ihBelow
    exact .new hb hmiss ihBelow ihRest

/-! ### Widths and memories of them -/

/-- The numbers are the widths of the graph's names. -/
def IsWidth (g : Digraph) (w : String → Nat) : Prop :=
  ∀ n, w n = max 1 ((g.next n).map w).sum

/-- All widths in the memory are right. -/
def Remembers (w : String → Nat) (memory : Option (Table Nat)) : Prop :=
  ∀ t ∈ memory, ∀ n v, Table.get? t n = some v → v = w n

/-- A width is never zero. -/
theorem IsWidth.pos (hw : g.IsWidth w) (n : String) : 1 ≤ w n := by
  rw [hw n]
  exact Nat.le_max_left _ _

/-- The names that a name leads to fit below it. -/
theorem IsWidth.sum_next_le (hw : g.IsWidth w) (n : String) : ((g.next n).map w).sum ≤ w n := by
  rw [hw n]
  exact Nat.le_max_right _ _

/-- An acyclic graph has widths: they are found by going back from the ends of ways. -/
theorem IsAcyclic.exists_isWidth (hg : g.IsAcyclic) : ∃ w, g.IsWidth w := by
  let w : String → Nat := hg.wellFounded.fix fun n width =>
    max 1 ((g.next n).attach.map fun b => width b.1 b.2).sum
  refine ⟨w, fun n => ?_⟩
  have hfix : w n = max 1 ((g.next n).attach.map fun b => w b.1).sum := hg.wellFounded.fix_eq _ n
  rw [hfix, List.attach_map_val (f := w)]

/-! ### Names from which no cycle is reached -/

/-- The numbers are the widths of the names from which no cycle is reached. -/
def IsWidthOfEnds (g : Digraph) (w : String → Nat) : Prop :=
  ∀ n, g.Ends n → w n = max 1 ((g.next n).map w).sum

/-- The widths in the memory are right for the names from which no cycle is reached. -/
def RemembersEnds (g : Digraph) (w : String → Nat) (memory : Option (Table Nat)) : Prop :=
  ∀ t ∈ memory, ∀ n v, Table.get? t n = some v → g.Ends n → v = w n

/-- Every graph has such widths: without the arrows from the other names it is acyclic. -/
theorem exists_isWidthOfEnds (g : Digraph) : ∃ w, g.IsWidthOfEnds w := by
  classical
  let ending : Digraph := ⟨g.arrows.filter fun r => g.Ends r.1⟩
  have harrow : ∀ a b, ending.Arrow a b → g.Ends a ∧ g.Arrow a b := by
    intro a b hab
    obtain ⟨hmem, hends⟩ := List.mem_filter.mp (arrow_iff.mp hab)
    exact ⟨of_decide_eq_true hends, arrow_iff.mpr hmem⟩
  have hacyclic : ending.IsAcyclic := by
    intro a ha
    obtain ⟨b, hab, -⟩ := Relation.TransGen.head'_iff.mp ha
    exact (harrow a b hab).1.not_cycle (Relation.TransGen.mono (fun a b hab => (harrow a b hab).2) _ _ ha)
  obtain ⟨w, hw⟩ := hacyclic.exists_isWidth
  refine ⟨w, fun n hn => ?_⟩
  have hnext : ending.next n = g.next n := by
    show ((g.arrows.filter fun r => g.Ends r.1).filter _).map _ = _
    rw [List.filter_filter, next]
    congr 1
    apply List.filter_congr
    intro r _
    by_cases hr : r.1 = n
    · simp [hr, hn]
    · simp [hr]
  rw [hw n, hnext]

/-- What holds of all entries of a memory holds of them when one more is written of which it holds. -/
theorem forall_entries_insert {P : String → Nat → Prop} {memory : Option (Table Nat)}
    (h : ∀ t ∈ memory, ∀ n v, Table.get? t n = some v → P n v) {b : String} {u : Nat} (hu : P b u) :
    ∀ t ∈ memory.map (·.insert b u), ∀ n v, Table.get? t n = some v → P n v := by
  intro t ht n v hv
  obtain ⟨t₁, ht₁, rfl⟩ := Option.map_eq_some_iff.mp ht
  rw [Table.get?_insert] at hv
  split at hv
  · rename_i hbn
    cases hv
    exact hbn ▸ hu
  · exact h t₁ ht₁ n v hv

/-- What is counted for targets that lead to the path only along cycles. A name from which no cycle
is reached does not lead to the path then, so the path does not matter for it. -/
theorem IsWidthOfEnds.sum_eq (hw : g.IsWidthOfEnds w) {path targets : List String}
    {memory memory' : Option (Table Nat)} {v : Nat} (h : g.Measures path memory targets v memory')
    (hpath : ∀ a ∈ path, ∀ b ∈ targets, g.Reaches b a → Relation.TransGen g.Arrow a b)
    (hmemory : g.RemembersEnds w memory) :
    ((∀ b ∈ targets, g.Ends b) → v = (targets.map w).sum) ∧ g.RemembersEnds w memory' := by
  induction h with
  | nil => exact ⟨fun _ => rfl, hmemory⟩
  | @onPath path rest memory memory' b v hb _ ih =>
    have hrest := ih (fun a ha c hc => hpath a ha c (List.mem_cons_of_mem b hc)) hmemory
    refine ⟨fun hends => ?_, hrest.2⟩
    exact absurd (hpath b hb b List.mem_cons_self .refl) (hends b List.mem_cons_self).not_cycle
  | @known path rest memory memory' b u v hb hu _ ih =>
    have hrest := ih (fun a ha c hc => hpath a ha c (List.mem_cons_of_mem b hc)) hmemory
    refine ⟨fun hends => ?_, hrest.2⟩
    obtain ⟨t, ht, htu⟩ := Option.bind_eq_some_iff.mp hu
    obtain ⟨hb', hrest'⟩ := List.forall_mem_cons.mp hends
    rw [hrest.1 hrest', hmemory t ht b u htu hb', List.map_cons, List.sum_cons]
  | @new path rest memory memory₁ memory' b below v hb _ _ _ ihBelow ihRest =>
    have h₁ := ihBelow (fun a ha c hc hca => by
      rcases List.mem_cons.mp ha with rfl | ha
      · exact .single hc
      · exact (hpath a ha b List.mem_cons_self (.head hc hca)).tail hc) hmemory
    have hv : g.Ends b → max 1 below = w b := by
      intro hends
      rw [hw b hends, ← h₁.1 fun c hc => hends.of_arrow hc]
    have h₂ := ihRest (fun a ha c hc => hpath a ha c (List.mem_cons_of_mem b hc))
      (forall_entries_insert h₁.2 hv)
    refine ⟨fun hends => ?_, h₂.2⟩
    obtain ⟨hb', hrest'⟩ := List.forall_mem_cons.mp hends
    rw [h₂.1 hrest', hv hb', List.map_cons, List.sum_cons]

/-- The width of a name from which no cycle is reached does not depend on the memory. -/
theorem IsWidthOfEnds.width_eq (hw : g.IsWidthOfEnds w) {memory : Option (Table Nat)}
    (hmemory : g.RemembersEnds w memory) (name : String) :
    (g.Ends name → (g.width [] memory name).1 = w name) ∧
      g.RemembersEnds w (g.width [] memory name).2 := by
  have h := hw.sum_eq (g.measures_widths [] memory [name])
    (fun _ ha => absurd ha List.not_mem_nil) hmemory
  simpa [width] using h

/-! ### Acyclic graphs -/

/-- The width of a name depends neither on the memory nor on a path to which the name does not lead. -/
theorem IsAcyclic.width_eq_of_apart (hg : g.IsAcyclic) (hw : g.IsWidth w) {path : List String}
    {memory : Option (Table Nat)} (hmemory : Remembers w memory) {name : String}
    (hpath : ∀ a ∈ path, ¬g.Reaches name a) :
    (g.width path memory name).1 = w name ∧ Remembers w (g.width path memory name).2 := by
  have hends : g.IsWidthOfEnds w := fun n _ => hw n
  have hback : ∀ a ∈ path, ∀ b ∈ [name], g.Reaches b a → Relation.TransGen g.Arrow a b := by
    intro a ha b hb hba
    rw [List.mem_singleton.mp hb] at hba
    exact absurd hba (hpath a ha)
  have h := hends.sum_eq (g.measures_widths path memory [name]) hback
    fun t ht n v hv _ => hmemory t ht n v hv
  refine ⟨?_, fun t ht n v hv => h.2 t ht n v hv (hg.ends n)⟩
  rw [width, h.1 fun b _ => hg.ends b, List.map_singleton, List.sum_singleton]

/-- The width of a name does not depend on the memory. -/
theorem IsAcyclic.width_eq (hg : g.IsAcyclic) (hw : g.IsWidth w) {memory : Option (Table Nat)}
    (hmemory : Remembers w memory) (name : String) :
    (g.width [] memory name).1 = w name ∧ Remembers w (g.width [] memory name).2 :=
  hg.width_eq_of_apart hw hmemory fun _ ha => absurd ha List.not_mem_nil

/-! ### Any graph -/

/-- No width in the memory is zero. -/
def IsPositive (memory : Option (Table Nat)) : Prop :=
  ∀ t ∈ memory, ∀ n v, Table.get? t n = some v → 1 ≤ v

/-- Every target counts for one column at least. -/
theorem Measures.length_le {path targets : List String} {memory memory' : Option (Table Nat)}
    {v : Nat} (h : g.Measures path memory targets v memory') (hmemory : IsPositive memory) :
    targets.length ≤ v ∧ IsPositive memory' := by
  induction h with
  | nil => exact ⟨Nat.le_refl 0, hmemory⟩
  | onPath _ _ ih =>
    have hrest := ih hmemory
    rw [List.length_cons, Nat.add_comm]
    exact ⟨Nat.add_le_add_left hrest.1 1, hrest.2⟩
  | @known path rest memory memory' b u v _ hu _ ih =>
    have hrest := ih hmemory
    obtain ⟨t, ht, htu⟩ := Option.bind_eq_some_iff.mp hu
    rw [List.length_cons, Nat.add_comm]
    exact ⟨Nat.add_le_add (hmemory t ht b u htu) hrest.1, hrest.2⟩
  | @new path rest memory memory₁ memory' b below v _ _ _ _ ihBelow ihRest =>
    have hpos : 1 ≤ max 1 below := Nat.le_max_left 1 below
    have hrest := ihRest (forall_entries_insert (ihBelow hmemory).2 hpos)
    rw [List.length_cons, Nat.add_comm]
    exact ⟨Nat.add_le_add hpos hrest.1, hrest.2⟩

/-- The width of a name is never zero. -/
theorem one_le_width (g : Digraph) (path : List String) {memory : Option (Table Nat)}
    (h : IsPositive memory) (name : String) :
    1 ≤ (g.width path memory name).1 ∧ IsPositive (g.width path memory name).2 :=
  (g.measures_widths path memory [name]).length_le h

end Diagrams.Digraph
