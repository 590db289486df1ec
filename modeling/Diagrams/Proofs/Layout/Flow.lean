import Diagrams.Proofs.Graph.Entries
import Diagrams.Proofs.Layout.Overlap
import Diagrams.Proofs.Number.Binary64
import Mathlib.Order.Bounds.Defs

/-!
# Acyclic flowcharts follow their direction

**Main statement** (`levels_acyclic`): when the known edges of a flowchart form no cycle, the level
of a name is the length of the longest way to it, columns are given along all known edges, and each
of them leads in the direction of the flowchart, by the distance of two levels at least.

The walk for levels finds a way to each name that is as long as its level is high
(`exists_isWay_of_get?`), and no way is longer, since levels rise along arrows
(`isGreatest_levels`). A level then lies on the grid, and further on than all levels below it
(`isBeyond_point`), as long as coordinates are computed without loss: `KeepsHalves` is all that is
needed for that. Exact arithmetic has it without a bound, and 53 bits have it for flowcharts of any
size that can occur.
-/

namespace Diagrams.Layout

open Number Diagrams.Digraph

variable {A : Arithmetic} {bound : Nat} {names : List String} {edges : Digraph}

/-! ### Levels -/

/-- The level of a name in an acyclic graph is the number of arrows on the longest way to it. -/
theorem isGreatest_levels (h : (edges.within names).IsAcyclic) {n : String} (hn : n ∈ names) :
    let g := edges.within names
    ∃ l, (g.levels names (g.roots names)).get? n = some l ∧
      IsGreatest {k | ∃ a p, g.IsWay a n p ∧ p.length = k + 1} l := by
  intro g
  obtain ⟨r, hr, hrn⟩ := exists_root h hn
  obtain ⟨l, hl⟩ := exists_levelsFrom hr hrn
  obtain ⟨a, -, p, hp, -, hlength⟩ := exists_isWay_of_get? hl
  refine ⟨l, get?_levels hl, ⟨a, p, hp, hlength⟩, ?_⟩
  rintro k ⟨b, q, hq, hk⟩
  have hrises : g.Rises fun n => (g.levels names (g.roots names)).getD n 0 := rises_levels_within h
  have hle := hq.length_le_of_rises hrises
  rw [Table.getD, get?_levels hl, Option.getD_some] at hle
  omega

/-- No level is as high as there are names. -/
theorem getD_levels_lt {n : String} (hn : n ∈ names) :
    let g := edges.within names
    (g.levels names (g.roots names)).getD n 0 < names.length := by
  intro g
  rw [g.getD_levels, Table.getD]
  cases hl : (g.levelsFrom (g.roots names)).get? n with
  | none => exact List.length_pos_of_mem hn
  | some l =>
    obtain ⟨r, hr, p, hp, hnodup, hlength⟩ := exists_isWay_of_get? hl
    have hle := hp.length_le (g.roots_subset names hr) hnodup
    have hdedup := (List.dedup_sublist names).length_le
    rw [Option.getD_some]
    omega

/-! ### Coordinates of levels -/

/-- Halves of whole numbers below the bound are kept. -/
def KeepsHalves (A : Arithmetic) (bound : Nat) : Prop :=
  ∀ n : Int, n.natAbs < bound → A.round (n / 2) = n / 2

/-- Without rounding halves are kept, whatever the bound is. -/
theorem keepsHalves_exact (bound : Nat) : KeepsHalves .exact bound := fun _ _ => rfl

/-- With 53 bits halves of numbers below `2 ^ 53` are kept. -/
theorem keepsHalves_binary64 : KeepsHalves .binary64 (2 ^ 53) := fun _ h => toBinary64_half h

/-- Halves that are kept below a bound are kept below a lower one. -/
theorem KeepsHalves.mono (h : KeepsHalves A bound) {lower : Nat} (hle : lower ≤ bound) :
    KeepsHalves A lower :=
  fun n hn => h n (hn.trans_le hle)

/-- Where halves are kept whole numbers are. -/
theorem KeepsHalves.round_intCast (h : KeepsHalves A bound) {n : Int}
    (hn : 2 * n.natAbs < bound) : A.round n = n := by
  have hround := h (2 * n) (by omega)
  have hhalf : ((2 * n : Int) : Rat) / 2 = n := by
    push_cast
    ring
  rwa [hhalf] at hround

/-- What is on the grid stays where it is. -/
theorem KeepsHalves.snap_eq (h : KeepsHalves A bound) {k : Int} (hk : 2 * k.natAbs + 1 < bound) :
    snap A ((10 * k : Int) : Rat) = 10 * k := by
  have hwhole : A.round ((10 * k : Int) / (grid : Int)) = k := by
    have htenth : ((10 * k : Int) : Rat) / (grid : Int) = k := by
      rw [grid]
      push_cast
      ring
    rw [htenth]
    exact h.round_intCast (by omega)
  have hnext : A.round (k + 1 / 2) = k + 1 / 2 := by
    have hround := h (2 * k + 1) (by omega)
    have hhalf : ((2 * k + 1 : Int) : Rat) / 2 = k + 1 / 2 := by
      push_cast
      ring
    rw [← hhalf]
    exact hround
  have hnearest : A.nearest (A.div (10 * k : Int) grid) = k := by
    have hhalf : (1 / 2 : Rat).floor = 0 := by decide +kernel
    rw [Arithmetic.div, hwhole, Arithmetic.nearest, Arithmetic.add, hnext, add_comm,
      Rat.floor_add_intCast, hhalf, Int.zero_add]
  rw [snap, Arithmetic.onGrid, hnearest, grid, Int.mul_comm]

/-- Coordinates of levels are kept. -/
theorem KeepsHalves.snap_along (h : KeepsHalves A bound) (o : Orientation) (start gap : Nat)
    {l : Nat} (hbound : 2 * (start + l * gap) + 1 < bound) :
    snap A (o.along (10 * start) (10 * gap) l) = o.along (10 * start) (10 * gap) l := by
  have hsteps : o.along (10 * start) (10 * gap) l =
      10 * (start + (if o.backward then -1 else 1) * (l * gap : Nat)) := by
    unfold Orientation.along
    push_cast
    ring
  rw [hsteps]
  refine h.snap_eq ?_
  split <;> omega

/-- Levels lie as far from the edge as their number says at most. -/
theorem natAbs_along_le (o : Orientation) (start gap l : Nat) :
    (o.along start gap l).natAbs ≤ start + gap * l := by
  unfold Orientation.along
  rcases o.backward with _ | _ <;> push_cast <;> grind

/-- A node lies where its level says. -/
theorem KeepsHalves.point_eq (h : KeepsHalves A bound) (o : Orientation) {l : Nat}
    (hbound : 40 * (l + 1) ≤ bound) (c : Rat) :
    if o.horizontal then (o.point A l c).1 = o.along 100 200 l
    else (o.point A l c).2 = o.along 40 90 l := by
  unfold Orientation.point
  split
  · exact h.snap_along o 10 20 (by omega)
  · exact h.snap_along o 4 9 (by omega)

/-- A box lies beyond another one in a direction, by the distance of two levels at least. -/
def IsBeyond (direction : Term Direction) (a b : Box) : Prop :=
  match direction with
  | .known .td | .known .tb | .other .. => a.y + 90 ≤ b.y
  | .known .bt => b.y + 90 ≤ a.y
  | .known .lr => a.x + 200 ≤ b.x
  | .known .rl => b.x + 200 ≤ a.x

/-- A higher level lies beyond a lower one. -/
theorem KeepsHalves.isBeyond (h : KeepsHalves A bound) {l l' : Nat} (hl : l < l')
    (hbound : 40 * (l' + 1) ≤ bound) (direction : Term Direction) {c c' : Rat} {a b : Box}
    (ha : (a.x, a.y) = (Orientation.of direction).point A l c)
    (hb : (b.x, b.y) = (Orientation.of direction).point A l' c') : IsBeyond direction a b := by
  have hpa := h.point_eq (Orientation.of direction) (l := l) (by omega) c
  have hpb := h.point_eq (Orientation.of direction) hbound c'
  rw [← ha] at hpa
  rw [← hb] at hpb
  dsimp only at hpa hpb
  have hside := along_lt (Orientation.of direction) 100 (by decide : (0 : Int) ≤ 200) hl
  have hdown := along_lt (Orientation.of direction) 40 (by decide : (0 : Int) ≤ 90) hl
  rcases direction with d | _
  · cases d <;> simp_all [Orientation.of, IsBeyond]
  · simp_all [Orientation.of, IsBeyond]

/-! ### Flowcharts -/

/-- Every arrow leads in the direction, from box to box. -/
def Flows (direction : Term Direction) (g : Digraph) (boxes : Table Box) : Prop :=
  ∀ ⦃a b⦄, g.Arrow a b →
    ∃ s t, boxes.get? a = some s ∧ boxes.get? b = some t ∧ IsBeyond direction s t

/-- Whichever node of a name comes last, its box lies where the level and the column of the name
say, and is as large as the node. -/
theorem exists_get?_flowchart (A : Arithmetic) {nodes : List Node} (edges : Digraph)
    (direction : Term Direction) {n : String} (hn : n ∈ nodes.map Node.id) :
    ∃ s, (flowchart A nodes edges direction).get? n = some s ∧
      (s.x, s.y) = (Orientation.of direction).point A
        ((ranks A (nodes.map Node.id) edges).levels.getD n 0)
        ((ranks A (nodes.map Node.id) edges).columns.getD n 0) ∧
      ∃ node, (s.width, s.height) = nodeSize node := by
  obtain ⟨s, hs⟩ : ∃ s, (flowchart A nodes edges direction).get? n = some s := by
    refine Table.exists_get?_ofList ?_
    rw [Table.names, List.map_map]
    exact hn
  obtain ⟨node, -, heq⟩ := List.mem_map.mp (Table.mem_of_get?_ofList hs)
  cases heq
  exact ⟨_, hs, rfl, node, rfl⟩

/-- Levels that rise along arrows make the arrows of a flowchart lead in its direction. -/
theorem KeepsHalves.flows {nodes : List Node} (h : KeepsHalves A (40 * nodes.length))
    (hacyclic : (edges.within (nodes.map Node.id)).IsAcyclic) (direction : Term Direction) :
    Flows direction (edges.within (nodes.map Node.id)) (flowchart A nodes edges direction) := by
  intro a b hab
  have hrises : (edges.within (nodes.map Node.id)).Rises fun n =>
      (ranks A (nodes.map Node.id) edges).levels.getD n 0 := rises_levels_within hacyclic
  obtain ⟨-, ha, hb⟩ := arrow_within.mp hab
  have hbound : 40 * ((ranks A (nodes.map Node.id) edges).levels.getD b 0 + 1) ≤
      40 * nodes.length := by
    have hlt : (ranks A (nodes.map Node.id) edges).levels.getD b 0 < (nodes.map Node.id).length :=
      getD_levels_lt hb
    rw [List.length_map] at hlt
    exact Nat.mul_le_mul_left 40 hlt
  obtain ⟨s, hs, hps, -⟩ := exists_get?_flowchart A edges direction ha
  obtain ⟨t, ht, hpt, -⟩ := exists_get?_flowchart A edges direction hb
  exact ⟨s, t, hs, ht, h.isBeyond (hrises hab) hbound direction hps hpt⟩

/-- **Main statement.** When the known edges form no cycle, every node has the length of the longest
way to it as its level, columns are given along all known edges, and each of them leads in the
direction of the flowchart. With 53 bits this holds up to sizes that no flowchart has; without
rounding it holds for all sizes. -/
theorem levels_acyclic (nodes : List Node) (edges : Digraph)
    (h : (edges.within (nodes.map Node.id)).IsAcyclic) :
    let names := nodes.map Node.id
    let g := edges.within names
    let levels := g.levels names (g.roots names)
    (∀ n ∈ names, ∃ l, levels.get? n = some l ∧
      IsGreatest {k | ∃ a p, g.IsWay a n p ∧ p.length = k + 1} l) ∧
    treeOf g levels = g ∧
    (∀ direction, Flows direction g (flowchart .exact nodes edges direction)) ∧
    (nodes.length ≤ 2 ^ 47 →
      ∀ direction, Flows direction g (flowchart .binary64 nodes edges direction)) := by
  intro names g levels
  have hrises : g.Rises fun n => levels.getD n 0 :=
    h.rises_levels fun a b hab => exists_root h (arrow_within.mp hab).2.1
  refine ⟨fun n hn => isGreatest_levels h hn, treeOf_eq hrises, ?_, ?_⟩
  · exact fun direction => (keepsHalves_exact _).flows h direction
  · intro hlength direction
    exact (keepsHalves_binary64.mono (by omega)).flows h direction

/-- A shorter way and a longer one lead to the same node. -/
theorem levels_acyclic_detour :
    let nodes := [Node.plain "a", .plain "b", .plain "c"]
    let edges : Digraph := ⟨[("a", "b"), ("a", "c"), ("c", "b")]⟩
    (edges.levels ["a", "b", "c"] (edges.roots ["a", "b", "c"])).get? "b" = some 2 ∧
    IsGreatest {k | ∃ a p, edges.IsWay a "b" p ∧ p.length = k + 1} 2 ∧
    Flows Direction.lr edges (flowchart .binary64 nodes edges Direction.lr) := by
  intro nodes edges
  have hknown : edges.within (nodes.map Node.id) = edges := by decide
  have hrank : edges.Rises fun n => if n = "a" then 0 else if n = "c" then 1 else 2 := by
    intro a b hab
    have hmem := arrow_iff.mp hab
    clear hab
    revert hmem
    simp only [edges, List.mem_cons, List.not_mem_nil, or_false, Prod.mk.injEq]
    rintro (⟨rfl, rfl⟩ | ⟨rfl, rfl⟩ | ⟨rfl, rfl⟩) <;> decide
  have hmain := levels_acyclic nodes edges (hknown ▸ hrank.isAcyclic)
  simp only [hknown] at hmain
  obtain ⟨l, hl, hgreatest⟩ := hmain.1 "b" (by decide)
  have hway : edges.IsWay "a" "b" ["a", "c", "b"] := by
    have hfirst : edges.IsWay "a" "c" ["a", "c"] :=
      (isWay_singleton edges "a").concat (arrow_iff.mpr (by decide))
    exact hfirst.concat (arrow_iff.mpr (by decide))
  obtain rfl : l = 2 := by
    obtain ⟨⟨a, p, hp, hlength⟩, hupper⟩ := hgreatest
    have hle : p.length ≤ 2 + 1 := hp.length_le_of_rises hrank
    have hge : 2 ≤ l := hupper ⟨"a", _, hway, rfl⟩
    omega
  exact ⟨hl, hgreatest, hmain.2.2.2 (by decide) Direction.lr⟩

end Diagrams.Layout
