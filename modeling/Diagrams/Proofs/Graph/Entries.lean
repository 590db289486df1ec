import Diagrams.Proofs.Graph.Levels
import Mathlib.Data.List.Chain
import Mathlib.Data.List.Dedup
import Mathlib.Data.List.Perm.Subperm

/-!
# What the walk for levels enters

A name on the path is not entered, and another name is entered again only on a longer path. In a
graph with cycles this alone ends the walk.

* `Digraph.IsWay` — a way along arrows, as the list of the names on it.
* `levels_walk` — the table of levels is what the walk writes for the names it enters, one after the
  other.
* `Leads` — the path together with any target not on it is a way from a root without a name met
  twice. A step of the walk keeps this (`Leads.next`, `Leads.rest`), so every entry is at the end of
  such a way, and its level is the number of arrows on it (`exists_isWay_of_mem_entries`). So levels
  stay below the number of names (`IsWay.length_le`).
* `pairwise_entries` — a name's levels rise from entry to entry.

**Main statement** (`levels_of_any_graph`): no name is entered more often than there are names. A
name that a root reaches gets as its level the number of arrows on a way from a root without a name
met twice; roots, and names that no root reaches, get level zero.
-/

namespace Diagrams.Digraph

variable {g : Digraph} {roots path targets : List String} {levels : Table Nat} {level : Nat}
  {a b c n r : String} {p : List String}

/-! ### Ways -/

/-- The names on a way along arrows from one name to another. -/
structure IsWay (g : Digraph) (a b : String) (p : List String) : Prop where
  /-- An arrow leads from each name to the next one. -/
  chain : p.IsChain g.Arrow
  /-- The way starts at the first name. -/
  head : p.head? = some a
  /-- It ends at the other one. -/
  last : p.getLast? = some b

/-- A way without arrows. -/
theorem isWay_singleton (g : Digraph) (a : String) : g.IsWay a a [a] :=
  ⟨List.isChain_singleton a, rfl, rfl⟩

namespace IsWay

/-- A way goes on along an arrow. -/
theorem concat (h : g.IsWay a b p) (hbc : g.Arrow b c) : g.IsWay a c (p ++ [c]) where
  chain := by
    refine List.isChain_append.mpr ⟨h.chain, List.isChain_singleton c, ?_⟩
    intro x hx y hy
    rw [h.last] at hx
    cases hx
    cases hy
    exact hbc
  head := by
    rw [List.head?_append, h.head]
    rfl
  last := List.getLast?_concat

/-- Names on a way that ends with an arrow: the way before it. -/
theorem exists_arrow (h : g.IsWay a b (p ++ [c])) (hp : p ≠ []) :
    c = b ∧ ∃ d, g.Arrow d b ∧ g.IsWay a d p := by
  obtain ⟨q, d, rfl⟩ : ∃ q d, p = q ++ [d] :=
    ⟨_, _, (List.dropLast_append_getLast hp).symm⟩
  have hlast := h.last
  rw [List.getLast?_concat] at hlast
  cases hlast
  obtain ⟨hchain, -, harrow⟩ := List.isChain_append.mp h.chain
  refine ⟨rfl, d, harrow d List.getLast?_concat b rfl, hchain, ?_, List.getLast?_concat⟩
  rw [← h.head, List.head?_append_of_ne_nil _ hp]

/-- What is at the end of a way is reached. -/
theorem reaches (h : g.IsWay a b p) : g.Reaches a b := by
  induction p using List.reverseRecOn generalizing b with
  | nil => exact nomatch h.head
  | append_singleton p c ih =>
    by_cases hp : p = []
    · subst hp
      have hhead := h.head
      have hlast := h.last
      cases hhead
      cases hlast
      exact .refl
    · obtain ⟨-, d, hdb, hway⟩ := h.exists_arrow hp
      exact (ih hway).tail hdb

/-- Numbers that grow along arrows grow by one at least with each arrow of a way. -/
theorem length_le_of_rises {rank : String → Nat} (hrank : g.Rises rank) (h : g.IsWay a b p) :
    p.length ≤ rank b + 1 := by
  induction p using List.reverseRecOn generalizing b with
  | nil => exact Nat.zero_le _
  | append_singleton p c ih =>
    rw [List.length_append, List.length_singleton]
    by_cases hp : p = []
    · subst hp
      exact Nat.succ_le_succ (Nat.zero_le _)
    · obtain ⟨-, d, hdb, hway⟩ := h.exists_arrow hp
      have hlt := hrank hdb
      have hle := ih hway
      omega

end IsWay

/-! ### What is entered -/

/-- Entering a name is noted. -/
@[simp] theorem Walk.entered_enter (levels : Table Nat) (name : String) (level : Nat) :
    (enter levels name level).entered = [(name, level)] := rfl

/-- The names of two walks are entered one after the other. -/
@[simp] theorem Walk.entered_followedBy (w : Walk) (next : Table Nat → Walk) :
    (w.followedBy next).entered = w.entered ++ (next w.levels).entered := rfl

/-- The walk writes what it enters, one after the other. -/
theorem levels_walk (g : Digraph) (path : List String) (level : Nat) (targets : List String)
    (levels : Table Nat) :
    (g.walk path level targets levels).levels =
      (g.walk path level targets levels).entered.foldl (fun t e => t.insert e.1 e.2) levels := by
  induction path, level, targets, levels using Digraph.walk.induct_unfolding g with
  | case1 path level levels => rfl
  | case2 path level levels b rest hb ih => exact ih
  | case3 path level levels b rest hb hraises ihBelow ihRest =>
    simp only [Walk.levels_followedBy, Walk.levels_enter, Walk.entered_followedBy,
      Walk.entered_enter, List.foldl_append, List.foldl_cons, List.foldl_nil]
    rw [← ihBelow, ← ihRest]
  | case4 path level levels b rest hb hraises ih => exact ih

/-- The path, which is written backwards, together with any target not on it is a way from a root,
without a name met twice and with as many arrows as the level says. -/
structure Leads (g : Digraph) (roots path : List String) (level : Nat) (targets : List String) :
    Prop where
  /-- The path is as long as the level is high. -/
  length : path.length = level
  /-- No name is on the path twice. -/
  nodup : path.Nodup
  /-- A target continues the way. -/
  way : ∀ b ∈ targets, ∃ r ∈ roots, g.IsWay r b (b :: path).reverse

namespace Leads

/-- At the roots nothing is on the path. -/
theorem start (g : Digraph) (roots : List String) : g.Leads roots [] 0 roots where
  length := rfl
  nodup := List.nodup_nil
  way b hb := ⟨b, hb, g.isWay_singleton b⟩

/-- What leads to all targets leads to the others. -/
theorem rest (h : g.Leads roots path level (b :: targets)) : g.Leads roots path level targets :=
  ⟨h.length, h.nodup, fun c hc => h.way c (List.mem_cons_of_mem b hc)⟩

/-- When a target is entered, it is followed by the names that it leads to. -/
theorem next (h : g.Leads roots path level (b :: targets)) (hb : b ∉ path) :
    g.Leads roots (b :: path) (level + 1) (g.next b) where
  length := by rw [List.length_cons, h.length]
  nodup := List.nodup_cons.mpr ⟨hb, h.nodup⟩
  way c hc := by
    obtain ⟨r, hr, hway⟩ := h.way b List.mem_cons_self
    refine ⟨r, hr, ?_⟩
    rw [List.reverse_cons]
    exact hway.concat hc

end Leads

/-- An entry stands at the end of a way from a root without a name met twice, and its level is the
number of arrows on it. -/
theorem exists_isWay_of_mem_entries (path : List String) (level : Nat) (targets : List String)
    (levels : Table Nat) (h : g.Leads roots path level targets) {e : String × Nat}
    (he : e ∈ (g.walk path level targets levels).entered) :
    ∃ r ∈ roots, ∃ p, g.IsWay r e.1 p ∧ p.Nodup ∧ p.length = e.2 + 1 := by
  induction path, level, targets, levels using Digraph.walk.induct_unfolding g with
  | case1 path level levels => exact absurd he List.not_mem_nil
  | case2 path level levels b rest hb ih => exact ih h.rest he
  | case3 path level levels b rest hb hraises ihBelow ihRest =>
    rw [Walk.entered_followedBy, Walk.entered_followedBy, Walk.entered_enter, List.append_assoc,
      List.singleton_append, List.mem_cons, List.mem_append] at he
    rcases he with rfl | he | he
    · obtain ⟨r, hr, hway⟩ := h.way b List.mem_cons_self
      refine ⟨r, hr, _, hway, List.nodup_reverse.mpr (List.nodup_cons.mpr ⟨hb, h.nodup⟩), ?_⟩
      rw [List.length_reverse, List.length_cons, h.length]
    · exact ihBelow _ (h.next hb) he
    · exact ihRest _ h.rest he
  | case4 path level levels b rest hb hraises ih => exact ih h.rest he

/-- So does a name that has a level after the walk. -/
theorem exists_isWay_of_get? {l : Nat} (h : (g.levelsFrom roots).get? n = some l) :
    ∃ r ∈ roots, ∃ p, g.IsWay r n p ∧ p.Nodup ∧ p.length = l + 1 := by
  rw [levelsFrom, levels_walk] at h
  exact exists_isWay_of_mem_entries [] 0 roots [] (Leads.start g roots)
    (Table.mem_of_get?_ofList h)

/-! ### How often a name is entered -/

/-- An entry is written, and from then on the level of its name does not fall. -/
theorem exists_get?_of_mem_entries (g : Digraph) (path : List String) (level : Nat)
    (targets : List String) (levels : Table Nat) {e : String × Nat}
    (he : e ∈ (g.walk path level targets levels).entered) :
    ∃ l, (g.walk path level targets levels).levels.get? e.1 = some l ∧ e.2 ≤ l := by
  induction path, level, targets, levels using Digraph.walk.induct_unfolding g with
  | case1 path level levels => exact absurd he List.not_mem_nil
  | case2 path level levels b rest hb ih =>
    exact ih he
  | case3 path level levels b rest hb hraises ihBelow ihRest =>
    rw [Walk.entered_followedBy, Walk.entered_followedBy, Walk.entered_enter, List.append_assoc,
      List.singleton_append, List.mem_cons, List.mem_append] at he
    rcases he with rfl | he | he
    · have hb : (levels.insert b level).get? b = some level := by
        rw [Table.get?_insert, if_pos rfl]
      obtain ⟨l, hl, hle⟩ := g.get?_walk_of_get? (b :: path) (level + 1) (g.next b) hb
      obtain ⟨l', hl', hle'⟩ := g.get?_walk_of_get? path level rest hl
      exact ⟨l', hl', Nat.le_trans hle hle'⟩
    · obtain ⟨l, hl, hle⟩ := ihBelow _ he
      obtain ⟨l', hl', hle'⟩ := g.get?_walk_of_get? path level rest hl
      exact ⟨l', hl', Nat.le_trans hle hle'⟩
    · exact ihRest _ he
  | case4 path level levels b rest hb hraises ih =>
    exact ih he

/-- A new entry is above the level that the name has. -/
theorem lt_of_get?_of_mem_entries (g : Digraph) (path : List String) (level : Nat)
    (targets : List String) (levels : Table Nat) {e : String × Nat} {l : Nat}
    (he : e ∈ (g.walk path level targets levels).entered) (hl : levels.get? e.1 = some l) :
    l < e.2 := by
  induction path, level, targets, levels using Digraph.walk.induct_unfolding g
    generalizing l with
  | case1 path level levels => exact absurd he List.not_mem_nil
  | case2 path level levels b rest hb ih => exact ih he hl
  | case3 path level levels b rest hb hraises ihBelow ihRest =>
    rw [Walk.entered_followedBy, Walk.entered_followedBy, Walk.entered_enter, List.append_assoc,
      List.singleton_append, List.mem_cons, List.mem_append] at he
    obtain ⟨l₁, hl₁, hle₁⟩ := get?_insert_of_raises hraises hl
    rcases he with rfl | he | he
    · unfold raises at hraises
      rw [hl] at hraises
      simpa using hraises
    · exact Nat.lt_of_le_of_lt hle₁ (ihBelow _ he hl₁)
    · obtain ⟨l₂, hl₂, hle₂⟩ := g.get?_walk_of_get? (b :: path) (level + 1) (g.next b) hl₁
      exact Nat.lt_of_le_of_lt (Nat.le_trans hle₁ hle₂) (ihRest _ he hl₂)
  | case4 path level levels b rest hb hraises ih => exact ih he hl

/-- A name's levels rise from entry to entry. -/
theorem pairwise_entries (g : Digraph) (path : List String) (level : Nat) (targets : List String)
    (levels : Table Nat) :
    (g.walk path level targets levels).entered.Pairwise fun e f => e.1 = f.1 → e.2 < f.2 := by
  induction path, level, targets, levels using Digraph.walk.induct_unfolding g with
  | case1 path level levels => exact List.Pairwise.nil
  | case2 path level levels b rest hb ih => exact ih
  | case3 path level levels b rest hb hraises ihBelow ihRest =>
    have hb : (levels.insert b level).get? b = some level := by
      rw [Table.get?_insert, if_pos rfl]
    rw [Walk.entered_followedBy, Walk.entered_followedBy, Walk.entered_enter, List.append_assoc,
      List.singleton_append, List.pairwise_cons, List.pairwise_append]
    refine ⟨?_, ihBelow _, ihRest _, ?_⟩
    · rintro f hf rfl
      rcases List.mem_append.mp hf with hf | hf
      · exact g.lt_of_get?_of_mem_entries _ _ _ _ hf hb
      · obtain ⟨l, hl, hle⟩ := g.get?_walk_of_get? (f.1 :: path) (level + 1) (g.next f.1) hb
        exact Nat.lt_of_le_of_lt hle (g.lt_of_get?_of_mem_entries _ _ _ _ hf hl)
    · intro e he f hf hef
      obtain ⟨l, hl, hle⟩ := g.exists_get?_of_mem_entries _ _ _ _ he
      rw [hef] at hl
      exact Nat.lt_of_le_of_lt hle (g.lt_of_get?_of_mem_entries _ _ _ _ hf hl)
  | case4 path level levels b rest hb hraises ih => exact ih

/-- When all levels are below a bound, no name is entered more often than the bound says. -/
theorem length_filter_entries_le (g : Digraph) (path : List String) (level : Nat)
    (targets : List String) (levels : Table Nat) {bound : Nat}
    (hbound : ∀ e ∈ (g.walk path level targets levels).entered, e.2 < bound) (n : String) :
    ((g.walk path level targets levels).entered.filter fun e => e.1 == n).length ≤ bound := by
  set own := (g.walk path level targets levels).entered.filter fun e => e.1 == n with hown
  have hnodup : (own.map (·.2)).Nodup := by
    rw [List.Nodup, List.pairwise_map]
    refine ((g.pairwise_entries path level targets levels).filter _).imp_of_mem ?_
    intro e f he hf hlt
    have hname : e.1 = n := by simpa using (List.mem_filter.mp he).2
    have hname' : f.1 = n := by simpa using (List.mem_filter.mp hf).2
    exact Nat.ne_of_lt (hlt (hname.trans hname'.symm))
  have hsub : own.map (·.2) ⊆ List.range bound := by
    intro l hl
    obtain ⟨e, he, rfl⟩ := List.mem_map.mp hl
    exact List.mem_range.mpr (hbound e (List.mem_filter.mp he).1)
  have hle := (List.subperm_of_subset hnodup hsub).length_le
  rwa [List.length_map, List.length_range] at hle

/-! ### Listed names -/

/-- A way between listed names stays among them. -/
theorem IsWay.subset {names : List String} {edges : Digraph} (ha : a ∈ names)
    (h : (edges.within names).IsWay a b p) : p ⊆ names := by
  induction p using List.reverseRecOn generalizing b with
  | nil => exact List.nil_subset _
  | append_singleton p c ih =>
    by_cases hp : p = []
    · subst hp
      have hhead := h.head
      cases hhead
      exact List.cons_subset.mpr ⟨ha, List.nil_subset _⟩
    · obtain ⟨rfl, d, hdc, hway⟩ := h.exists_arrow hp
      have hc : c ∈ names := (arrow_within.mp hdc).2.2
      exact List.append_subset.mpr ⟨ih hway, List.cons_subset.mpr ⟨hc, List.nil_subset _⟩⟩

/-- Without a name met twice it has no more names than are listed. -/
theorem IsWay.length_le {names : List String} {edges : Digraph} (ha : a ∈ names)
    (h : (edges.within names).IsWay a b p) (hp : p.Nodup) : p.length ≤ names.dedup.length := by
  refine (List.subperm_of_subset hp fun x hx => ?_).length_le
  exact List.mem_dedup.mpr (h.subset ha hx)

/-- Roots are among the names. -/
theorem roots_subset (g : Digraph) (names : List String) : g.roots names ⊆ names := by
  unfold roots
  split
  · exact List.take_subset 1 names
  · exact List.filter_subset_self _

/-- A root is not the target of an arrow, or it is the only root. -/
theorem mem_roots_cases {names : List String} (h : n ∈ g.roots names) :
    g.isTarget n = false ∨ g.roots names = [n] := by
  unfold roots at h ⊢
  split at h
  · cases names with
    | nil => exact absurd h List.not_mem_nil
    | cons m rest =>
      rw [List.take_succ_cons, List.take_zero, List.mem_singleton] at h
      rw [h]
      exact .inr rfl
  · exact .inl (by simpa using (List.mem_filter.mp h).2)

/-- Without a name met twice no way leads from root to root but the one without arrows. -/
theorem IsWay.length_of_roots {names : List String} (hr : r ∈ g.roots names)
    (hn : n ∈ g.roots names) (h : g.IsWay r n p) (hp : p.Nodup) : p.length = 1 := by
  obtain ⟨q, c, rfl⟩ : ∃ q c, p = q ++ [c] := by
    refine ⟨_, _, (List.dropLast_append_getLast ?_).symm⟩
    rintro rfl
    exact nomatch h.head
  by_cases hq : q = []
  · rw [hq]
    rfl
  · obtain ⟨rfl, d, hdc, hway⟩ := h.exists_arrow hq
    rcases mem_roots_cases hn with hsource | honly
    · rw [isTarget_iff.mpr ⟨d, hdc⟩] at hsource
      exact nomatch hsource
    · -- the way would come back to the only root
      rw [honly, List.mem_singleton] at hr
      subst hr
      have hmem : r ∈ q := List.mem_of_mem_head? hway.head
      exact absurd rfl ((List.nodup_append.mp hp).2.2 r hmem r List.mem_cons_self)

/-- On a way without arrows the first name is the last one. -/
theorem IsWay.eq_of_length (h : g.IsWay a b p) (hp : p.length = 1) : a = b := by
  obtain ⟨x, rfl⟩ := List.length_eq_one_iff.mp hp
  have hhead := h.head
  have hlast := h.last
  cases hhead
  cases hlast
  rfl

/-- **Main statement.** Whatever the graph is, the walk from the roots enters no name more often
than there are names. Every name then has a level below that number: a name that a root reaches has the
number of arrows on some way from a root on which no name is met twice, which is zero for the roots
alone, and a name that no root reaches has level zero. -/
theorem levels_of_any_graph (names : List String) (edges : Digraph) :
    let g := edges.within names
    let roots := g.roots names
    let entered := (g.walk [] 0 roots []).entered
    g.levelsFrom roots = .ofList entered ∧
      (∀ n, (entered.filter fun e => e.1 == n).length ≤ names.dedup.length) ∧
      ∀ n ∈ names, ∃ l, (g.levels names roots).get? n = some l ∧ l < names.dedup.length ∧
        ((∃ r ∈ roots, g.Reaches r n) →
          (∃ r ∈ roots, ∃ p, g.IsWay r n p ∧ p.Nodup ∧ p.length = l + 1) ∧
            (l = 0 ↔ n ∈ roots)) ∧
        ((¬∃ r ∈ roots, g.Reaches r n) → l = 0) := by
  intro g roots entered
  have hwritten : g.levelsFrom roots = .ofList entered := g.levels_walk [] 0 roots []
  have hbound : ∀ e ∈ entered, e.2 < names.dedup.length := by
    intro e he
    obtain ⟨r, hr, p, hp, hnodup, hlength⟩ :=
      exists_isWay_of_mem_entries [] 0 roots [] (Leads.start g roots) he
    have hle := hp.length_le (g.roots_subset names hr) hnodup
    omega
  refine ⟨hwritten, fun n => g.length_filter_entries_le [] 0 roots [] hbound n, ?_⟩
  intro n hn
  obtain ⟨l, hl⟩ := g.exists_levels names roots hn
  have hsame : (g.levelsFrom roots).getD n 0 = l := by
    rw [← g.getD_levels names, Table.getD, hl, Option.getD_some]
  by_cases hreached : ∃ r ∈ roots, g.Reaches r n
  · obtain ⟨r, hr, hrn⟩ := hreached
    obtain ⟨l', hl'⟩ := exists_levelsFrom hr hrn
    rw [Table.getD, hl', Option.getD_some] at hsame
    subst hsame
    obtain ⟨r', hr', p, hp, hnodup, hlength⟩ := exists_isWay_of_get? hl'
    have hzero : l' = 0 ↔ n ∈ roots := by
      constructor
      · rintro rfl
        exact hp.eq_of_length hlength ▸ hr'
      · intro hroot
        have hone := hp.length_of_roots hr' hroot hnodup
        omega
    rw [hwritten] at hl'
    exact ⟨l', hl, hbound _ (Table.mem_of_get?_ofList hl'),
      fun _ => ⟨⟨r', hr', p, hp, hnodup, hlength⟩, hzero⟩, fun h => absurd ⟨r, hr, hrn⟩ h⟩
  · have hnone : (g.levelsFrom roots).get? n = none := by
      refine Option.eq_none_iff_forall_ne_some.mpr fun l' hl' => hreached ?_
      obtain ⟨r, hr, p, hp, -, -⟩ := exists_isWay_of_get? hl'
      exact ⟨r, hr, hp.reaches⟩
    rw [Table.getD, hnone, Option.getD_none] at hsame
    subst hsame
    exact ⟨0, hl, List.length_pos_of_mem (List.mem_dedup.mpr hn), fun h => absurd h hreached,
      fun _ => rfl⟩

/-- A name to which a longer way leads is entered twice. -/
example : ((⟨[("a", "b"), ("a", "c"), ("c", "b")]⟩ : Digraph).walk [] 0 ["a"] []).entered =
    [("a", 0), ("b", 1), ("c", 1), ("b", 2)] := by cbv

end Diagrams.Digraph
