import Diagrams.Graph.Search
import Diagrams.Proofs.Graph.Reach

/-!
# What a depth-first search meets

* `Digraph.Meets` — the steps of a search as rules: the targets, the forest met, and the names seen
  before and afterwards. The search follows the rules (`meets_search`).
* `Meets.mem_seen_iff`, `Meets.not_mem_of_mem_names`, `Meets.nodup_names` — a search sees what it
  meets for the first time, each name once.
* `Meets.reaches` — everything that is met is reached from a target.
* `Meets.targets_subset`, `Meets.next_subset` — nothing is left out: what is seen afterwards is
  closed under the arrows from what was met. So a search that starts with nothing seen meets exactly
  what its targets reach (`Meets.mem_names_iff_reaches`).
-/

namespace Diagrams

/-- Where no names stand side by side nothing is met. -/
theorem Forest.eq_nil_of_heads {f : Forest} (h : f.heads = []) : f = .nil := by
  cases f with
  | nil => rfl
  | again _ _ => exact absurd h (List.cons_ne_nil _ _)
  | first _ _ _ => exact absurd h (List.cons_ne_nil _ _)

namespace Digraph

variable {g : Digraph}

/-- A search from targets with some names seen meets a forest and has then seen other names. -/
inductive Meets (g : Digraph) : List String → List String → Forest → List String → Prop where
  /-- Without targets nothing is met. -/
  | nil (seen : List String) : Meets g seen [] .nil seen
  /-- A name that was seen is met again. -/
  | again {seen seen' : List String} {b : String} {rest : List String} {f : Forest} (hb : b ∈ seen)
      (hrest : Meets g seen rest f seen') : Meets g seen (b :: rest) (.again b f) seen'
  /-- A new name is met, then what it leads to, and then the other targets. -/
  | first {seen seen₁ seen' : List String} {b : String} {rest : List String} {below f : Forest}
      (hb : b ∉ seen) (hbelow : Meets g (b :: seen) (g.next b) below seen₁)
      (hrest : Meets g seen₁ rest f seen') : Meets g seen (b :: rest) (.first b below f) seen'

/-- The search follows the rules. -/
theorem meets_search (g : Digraph) (seen targets : List String) :
    g.Meets seen targets (g.search seen targets).1 (g.search seen targets).2 := by
  induction seen, targets using Digraph.explore.induct g with
  | case1 seen =>
    rw [search_nil]
    exact .nil seen
  | case2 seen b rest hb ih =>
    rw [search_cons_of_mem g hb]
    exact .again hb ih
  | case3 seen b rest hb below hs ihBelow ihRest _ =>
    rw [search_cons_of_not_mem g hb]
    exact .first hb ihBelow ihRest

namespace Meets

variable {seen seen' targets : List String} {f : Forest}

/-- The targets stand side by side. -/
theorem heads_eq (h : g.Meets seen targets f seen') : f.heads = targets := by
  induction h with
  | nil => rfl
  | again _ _ ih => rw [Forest.heads, ih]
  | first _ _ _ _ ih => rw [Forest.heads, ih]

/-- A new target is met, then what it leads to, and nothing else. -/
theorem singleton {b : String} (h : g.Meets seen [b] f seen') (hb : b ∉ seen) :
    ∃ below, f = .first b below .nil ∧ g.Meets (b :: seen) (g.next b) below seen' := by
  cases h with
  | again hseen _ => exact absurd hseen hb
  | @first _ _ _ _ _ below _ _ hbelow hrest =>
    cases hrest
    exact ⟨below, rfl, hbelow⟩

/-- Seen are afterwards the names seen before and the ones met for the first time. -/
theorem mem_seen_iff (h : g.Meets seen targets f seen') {n : String} :
    n ∈ seen' ↔ n ∈ seen ∨ n ∈ f.names := by
  induction h with
  | nil => simp [Forest.names]
  | again _ _ ih => rw [ih, Forest.names]
  | first _ _ _ ihBelow ihRest =>
    rw [ihRest, ihBelow, Forest.names]
    simp only [List.mem_cons, List.cons_append, List.mem_append, or_assoc]
    exact or_left_comm

/-- What is met for the first time was not seen. -/
theorem not_mem_of_mem_names (h : g.Meets seen targets f seen') {n : String} (hn : n ∈ f.names) :
    n ∉ seen := by
  induction h with
  | nil => exact absurd hn List.not_mem_nil
  | again _ _ ih => exact ih hn
  | first hb hbelow _ ihBelow ihRest =>
    rw [Forest.names, List.cons_append] at hn
    rcases List.mem_cons.mp hn with rfl | hn
    · exact hb
    · rcases List.mem_append.mp hn with hn | hn
      · exact fun hs => ihBelow hn (List.mem_cons_of_mem _ hs)
      · exact fun hs => ihRest hn (hbelow.mem_seen_iff.mpr (.inl (List.mem_cons_of_mem _ hs)))

/-- No name is met for the first time twice. -/
theorem nodup_names (h : g.Meets seen targets f seen') : f.names.Nodup := by
  induction h with
  | nil => exact List.nodup_nil
  | again _ _ ih => exact ih
  | @first seen seen₁ seen' b rest below f hb hbelow hrest ihBelow ihRest =>
    have hb₁ : b ∈ seen₁ := hbelow.mem_seen_iff.mpr (.inl List.mem_cons_self)
    rw [Forest.names, List.cons_append, List.nodup_cons, List.nodup_append]
    refine ⟨fun hm => ?_, ihBelow, ihRest, ?_⟩
    · rcases List.mem_append.mp hm with hm | hm
      · exact hbelow.not_mem_of_mem_names hm List.mem_cons_self
      · exact hrest.not_mem_of_mem_names hm hb₁
    · rintro m hm n hn rfl
      exact hrest.not_mem_of_mem_names hn (hbelow.mem_seen_iff.mpr (.inr hm))

/-- Whatever is met for the first time is reached from a target. -/
theorem reaches (h : g.Meets seen targets f seen') {n : String} (hn : n ∈ f.names) :
    ∃ b ∈ targets, g.Reaches b n := by
  induction h with
  | nil => exact absurd hn List.not_mem_nil
  | again _ _ ih =>
    obtain ⟨b, hb, hbn⟩ := ih hn
    exact ⟨b, List.mem_cons_of_mem _ hb, hbn⟩
  | @first seen seen₁ seen' b rest below f _ _ _ ihBelow ihRest =>
    rw [Forest.names, List.cons_append] at hn
    rcases List.mem_cons.mp hn with rfl | hn
    · exact ⟨n, List.mem_cons_self, .refl⟩
    · rcases List.mem_append.mp hn with hn | hn
      · obtain ⟨c, hc, hcn⟩ := ihBelow hn
        exact ⟨b, List.mem_cons_self, .head hc hcn⟩
      · obtain ⟨c, hc, hcn⟩ := ihRest hn
        exact ⟨c, List.mem_cons_of_mem _ hc, hcn⟩

/-- All targets are seen afterwards. -/
theorem targets_subset (h : g.Meets seen targets f seen') : targets ⊆ seen' := by
  induction h with
  | nil => exact List.nil_subset _
  | again hb hrest ih => exact List.cons_subset.mpr ⟨hrest.mem_seen_iff.mpr (.inl hb), ih⟩
  | first _ hbelow hrest _ ih =>
    have hb := hbelow.mem_seen_iff.mpr (.inl List.mem_cons_self)
    exact List.cons_subset.mpr ⟨hrest.mem_seen_iff.mpr (.inl hb), ih⟩

/-- A target that was not seen is met for the first time. -/
theorem mem_names_of_mem_targets (h : g.Meets seen targets f seen') {n : String} (hn : n ∈ targets)
    (hs : n ∉ seen) : n ∈ f.names :=
  (h.mem_seen_iff.mp (h.targets_subset hn)).resolve_left hs

/-- Where the arrows from a name lead that is met for the first time is seen afterwards. -/
theorem next_subset (h : g.Meets seen targets f seen') {n : String} (hn : n ∈ f.names) :
    g.next n ⊆ seen' := by
  induction h with
  | nil => exact absurd hn List.not_mem_nil
  | again _ _ ih => exact ih hn
  | @first seen seen₁ seen' b rest below f _ hbelow hrest ihBelow ihRest =>
    have hkept : seen₁ ⊆ seen' := fun m hm => hrest.mem_seen_iff.mpr (.inl hm)
    rw [Forest.names, List.cons_append] at hn
    rcases List.mem_cons.mp hn with rfl | hn
    · exact List.Subset.trans hbelow.targets_subset hkept
    · rcases List.mem_append.mp hn with hn | hn
      · exact List.Subset.trans (ihBelow hn) hkept
      · exact ihRest hn

/-- A search that has seen nothing before meets exactly what its targets reach. -/
theorem mem_names_iff_reaches (h : g.Meets [] targets f seen') {n : String} :
    n ∈ f.names ↔ ∃ b ∈ targets, g.Reaches b n := by
  have hseen : ∀ {m : String}, m ∈ seen' ↔ m ∈ f.names := by
    intro m
    simpa using h.mem_seen_iff (n := m)
  constructor
  · exact h.reaches
  · rintro ⟨b, hb, hbn⟩
    induction hbn with
    | refl => exact hseen.mp (h.targets_subset hb)
    | tail _ hmn ih => exact hseen.mp (h.next_subset ih hmn)

/-- Numbers that grow along arrows are above those of the targets, wherever these are. -/
theorem lt_of_mem_names (h : g.Meets seen targets f seen') {rank : String → Nat}
    (hrank : g.Rises rank) {k : Nat} (hk : ∀ b ∈ targets, k < rank b) {n : String}
    (hn : n ∈ f.names) : k < rank n := by
  obtain ⟨b, hb, hbn⟩ := h.reaches hn
  exact Nat.lt_of_lt_of_le (hk b hb) (hrank.le_of_reaches hbn)

end Meets

end Digraph

end Diagrams
