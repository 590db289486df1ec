import Diagrams.Proofs.Graph.Search
import Mathlib.Data.List.Nodup

/-!
# Searches through forests

* `Digraph.IsForest` — no way leads back, and no name is the end of two arrows.
* `Digraph.Unfolds` — what is met when below every name stand the ends of its arrows and no name is
  met again. There is one such forest at most (`Unfolds.unique`).
* `Meets.unfolds` — a search through a forest unfolds its targets when these reach neither each
  other nor a name that was seen. `IsForest.unfolds_singleton` and `IsForest.unfolds_search` are the
  two cases: a single name, and names that no arrow leads to.

So in a forest what stands below a name is the same whether the search starts there or above it.

An outline is a list in which depths stand for what is below what. `IsNested` says that one item is
in the part of the list below another one, one step deeper. That is so for the two ends of an arrow
(`Unfolds.isNested_outline`).
-/

namespace Diagrams

namespace Digraph

variable {g : Digraph}

/-- No way leads back, and no name is the end of two arrows. -/
structure IsForest (g : Digraph) : Prop where
  /-- No way leads back. -/
  acyclic : g.IsAcyclic
  /-- No name is the end of two arrows. -/
  nodup_targets : (g.arrows.map (·.2)).Nodup

/-- Below each of the targets stand the ends of its arrows, and so on, none of them met again. -/
inductive Unfolds (g : Digraph) : List String → Forest → Prop where
  /-- Without targets there is nothing. -/
  | nil : Unfolds g [] .nil
  /-- A target, with the ends of its arrows below it, and then the other targets. -/
  | first {b : String} {rest : List String} {below f : Forest} (hbelow : Unfolds g (g.next b) below)
      (hrest : Unfolds g rest f) : Unfolds g (b :: rest) (.first b below f)

namespace Unfolds

variable {targets : List String} {f f' : Forest}

/-- Targets are unfolded in one way. -/
theorem unique (h : g.Unfolds targets f) (h' : g.Unfolds targets f') : f = f' := by
  induction h generalizing f' with
  | nil =>
    cases h'
    rfl
  | first _ _ ihBelow ihRest =>
    cases h' with
    | first hbelow' hrest' => rw [ihBelow hbelow', ihRest hrest']

/-- The targets stand side by side. -/
theorem heads_eq (h : g.Unfolds targets f) : f.heads = targets := by
  induction h with
  | nil => rfl
  | first _ _ _ ih => rw [Forest.heads, ih]

/-- They are among the names that are met. -/
theorem targets_subset (h : g.Unfolds targets f) : targets ⊆ f.names := by
  induction h with
  | nil => exact List.nil_subset _
  | first _ _ _ ih =>
    rw [Forest.names, List.cons_append]
    apply List.cons_subset_cons
    exact List.Subset.trans ih (List.subset_append_right _ _)

end Unfolds

namespace IsForest

variable (h : g.IsForest) {a a' b c : String}
include h

/-- An arrow to a name starts at one name. -/
theorem source_unique (ha : g.Arrow a b) (ha' : g.Arrow a' b) : a = a' := by
  rw [arrow_iff] at ha ha'
  exact congrArg Prod.fst (List.inj_on_of_nodup_map h.nodup_targets ha ha' rfl)

/-- Of two names that reach a third one reaches the other. -/
theorem reaches_or_reaches (ha : g.Reaches a c) (hb : g.Reaches b c) :
    g.Reaches a b ∨ g.Reaches b a := by
  have hunique : Relator.RightUnique (Function.swap g.Arrow) := fun _ _ _ => h.source_unique
  have hcb := Relation.reflTransGen_swap.mpr hb
  have hca := Relation.reflTransGen_swap.mpr ha
  exact (Relation.ReflTransGen.total_of_right_unique hunique hcb hca).imp
    Relation.reflTransGen_swap.mp Relation.reflTransGen_swap.mp

/-- The ends of the arrows from a name are distinct. -/
theorem nodup_next (b : String) : (g.next b).Nodup :=
  h.nodup_targets.sublist (List.filter_sublist.map _)

/-- They do not reach the name. -/
theorem not_reaches_of_next (hc : c ∈ g.next b) : ¬g.Reaches c b :=
  fun hcb => h.acyclic b (Relation.TransGen.head' hc hcb)

/-- They do not reach each other. -/
theorem not_reaches_next (ha : a ∈ g.next b) (hc : c ∈ g.next b) (hne : a ≠ c) :
    ¬g.Reaches a c := by
  intro hac
  rcases hac.cases_tail with heq | ⟨b', hab', hb'c⟩
  · exact hne heq.symm
  · rw [h.source_unique hb'c hc] at hab'
    exact h.not_reaches_of_next ha hab'

end IsForest

/-- A search through a forest from targets that reach neither each other nor a name that was seen
meets nothing again. -/
theorem Meets.unfolds (hg : g.IsForest) {seen seen' targets : List String} {f : Forest}
    (h : g.Meets seen targets f seen') (hapart : targets.Pairwise fun a b =>
      ¬g.Reaches a b ∧ ¬g.Reaches b a)
    (hnew : ∀ t ∈ targets, ∀ s ∈ seen, ¬g.Reaches t s) : g.Unfolds targets f := by
  induction h with
  | nil => exact .nil
  | again hb _ _ => exact absurd .refl (hnew _ List.mem_cons_self _ hb)
  | @first seen seen₁ seen' b rest below f hb hbelow hrest ihBelow ihRest =>
    obtain ⟨hbrest, hrestApart⟩ := List.pairwise_cons.mp hapart
    apply Unfolds.first
    · apply ihBelow
      · apply (hg.nodup_next b).imp_of_mem
        intro a c ha hc hne
        exact ⟨hg.not_reaches_next ha hc hne, hg.not_reaches_next hc ha hne.symm⟩
      · intro c hc s hs hcs
        rcases List.mem_cons.mp hs with rfl | hs
        · exact hg.not_reaches_of_next hc hcs
        · exact hnew b List.mem_cons_self s hs (.head hc hcs)
    · apply ihRest hrestApart
      -- what was seen meanwhile is reached from `b`, so a target that reaches it would reach `b`
      -- or be reached from there
      intro t ht s hs hts
      have hbs : s ∈ seen ∨ g.Reaches b s := by
        rcases hbelow.mem_seen_iff.mp hs with hs | hs
        · rcases List.mem_cons.mp hs with rfl | hs
          · exact .inr .refl
          · exact .inl hs
        · obtain ⟨c, hc, hcs⟩ := hbelow.reaches hs
          exact .inr (.head hc hcs)
      rcases hbs with hseen | hbs
      · exact hnew t (List.mem_cons_of_mem _ ht) s hseen hts
      · obtain ⟨hnbt, hntb⟩ := hbrest t ht
        exact (hg.reaches_or_reaches hts hbs).elim hntb hnbt

namespace IsForest

/-- A search from one name meets nothing again. -/
theorem unfolds_singleton (h : g.IsForest) (b : String) : g.Unfolds [b] (g.search [] [b]).1 :=
  (meets_search g [] [b]).unfolds h (List.pairwise_singleton _ _) fun _ _ _ hs =>
    absurd hs List.not_mem_nil

/-- Nor does a search from distinct names that no arrow leads to. -/
theorem unfolds_search (h : g.IsForest) {targets : List String} (hnodup : targets.Nodup)
    (hsources : ∀ t ∈ targets, g.isTarget t = false) :
    g.Unfolds targets (g.search [] targets).1 := by
  have hapart : ∀ {a b : String}, b ∈ targets → a ≠ b → ¬g.Reaches a b := by
    intro a b hb hne hab
    rcases hab.cases_tail with heq | ⟨c, _, hcb⟩
    · exact hne heq.symm
    · have htarget := isTarget_iff.mpr ⟨c, hcb⟩
      rw [hsources b hb] at htarget
      exact nomatch htarget
  apply (meets_search g [] targets).unfolds h
  · apply hnodup.imp_of_mem
    intro a b ha hb hne
    exact ⟨hapart hb hne, hapart ha hne.symm⟩
  · exact fun _ _ _ hs => absurd hs List.not_mem_nil

end IsForest

end Digraph

/-! ### Outlines -/

namespace Forest

variable {f : Forest} {depth : Nat}

/-- An outline lists the names that are met for the first time. -/
theorem map_snd_outline (f : Forest) (depth : Nat) : (f.outline depth).map Prod.snd = f.names := by
  induction f generalizing depth with
  | nil => rfl
  | again _ _ ih => exact ih depth
  | first _ _ _ ihBelow ihRest => simp [outline, names, ihBelow, ihRest]

/-- No item stands further out than the heads. -/
theorem le_of_mem_outline {x : Nat × String} (h : x ∈ f.outline depth) : depth ≤ x.1 := by
  induction f generalizing depth with
  | nil => exact absurd h List.not_mem_nil
  | again _ _ ih => exact ih h
  | first _ _ _ ihBelow ihRest =>
    simp only [outline, List.mem_append, List.mem_cons] at h
    rcases h with (rfl | h) | h
    · exact Nat.le_refl _
    · exact Nat.le_of_succ_le (ihBelow h)
    · exact ihRest h

end Forest

/-- One item stands in the part of a list that is below another item, one step deeper: everything
between the two is deeper than the other item. -/
def IsNested {α : Type} (entries : List (Nat × α)) (a b : α) : Prop :=
  ∃ before depth between after,
    entries = before ++ (depth, a) :: (between ++ (depth + 1, b) :: after) ∧
      ∀ x ∈ between, depth < x.1

namespace IsNested

variable {α : Type} {entries : List (Nat × α)} {a b : α}

/-- More items may stand before and after. -/
theorem append (h : IsNested entries a b) (front back : List (Nat × α)) :
    IsNested (front ++ entries ++ back) a b := by
  obtain ⟨before, depth, between, after, rfl, hbetween⟩ := h
  exact ⟨front ++ before, depth, between, after ++ back, by simp, hbetween⟩

/-- What is nested by its name is nested, when the two names belong to nothing else. -/
theorem of_map {β : Type} {name : α → β}
    (h : IsNested (entries.map fun x => (x.1, name x.2)) (name a) (name b))
    (ha : ∀ x ∈ entries, name x.2 = name a → x.2 = a)
    (hb : ∀ x ∈ entries, name x.2 = name b → x.2 = b) : IsNested entries a b := by
  obtain ⟨before, depth, between, after, hentries, hbetween⟩ := h
  obtain ⟨before, below, rfl, -, hbelow⟩ := List.map_eq_append_iff.mp hentries
  obtain ⟨x, below, rfl, hx, hrest⟩ := List.map_eq_cons_iff.mp hbelow
  obtain ⟨between, rest, rfl, rfl, hlast⟩ := List.map_eq_append_iff.mp hrest
  obtain ⟨y, after, rfl, hy, -⟩ := List.map_eq_cons_iff.mp hlast
  obtain ⟨rfl, hxa⟩ := Prod.mk.inj hx
  obtain ⟨hdepth, hyb⟩ := Prod.mk.inj hy
  have hxa := ha x (by simp) hxa
  have hyb := hb y (by simp) hyb
  refine ⟨before, x.1, between, after, ?_, fun z hz => hbetween _ (List.mem_map_of_mem hz)⟩
  rw [← hxa, ← hyb, ← hdepth]

end IsNested

namespace Digraph.Unfolds

variable {g : Digraph} {targets : List String} {f : Forest} {a b : String}

/-- The targets stand furthest out. -/
theorem mem_outline (h : g.Unfolds targets f) (ha : a ∈ targets) (depth : Nat) :
    (depth, a) ∈ f.outline depth := by
  induction h with
  | nil => exact absurd ha List.not_mem_nil
  | first _ _ _ ihRest =>
    rw [Forest.outline]
    rcases List.mem_cons.mp ha with rfl | ha
    · exact List.mem_append_left _ List.mem_cons_self
    · exact List.mem_append_right _ (ihRest ha)

/-- The end of an arrow is nested in the part below its start. -/
theorem isNested_outline (h : g.Unfolds targets f) (ha : a ∈ f.names) (hab : g.Arrow a b)
    (depth : Nat) : IsNested (f.outline depth) a b := by
  induction h generalizing depth with
  | nil => exact absurd ha List.not_mem_nil
  | @first c rest below f hbelow hrest ihBelow ihRest =>
    rw [Forest.names, List.cons_append, List.mem_cons, List.mem_append] at ha
    rw [Forest.outline]
    rcases ha with rfl | ha | ha
    · obtain ⟨between, after, hsplit⟩ := List.append_of_mem (hbelow.mem_outline hab (depth + 1))
      refine ⟨[], depth, between, after ++ f.outline depth, by simp [hsplit], ?_⟩
      intro x hx
      apply Forest.le_of_mem_outline (f := below)
      rw [hsplit]
      exact List.mem_append_left _ hx
    · simpa using (ihBelow ha (depth + 1)).append [(depth, c)] (f.outline depth)
    · simpa using (ihRest ha depth).append ((depth, c) :: below.outline (depth + 1)) []

end Digraph.Unfolds

end Diagrams
