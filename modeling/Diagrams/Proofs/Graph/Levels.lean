import Diagrams.Proofs.Graph.Reach

/-!
# Levels rise along the arrows of an acyclic graph

**Main statement** (`IsAcyclic.rises_levels`): in an acyclic graph all of whose arrows start at
names that a root reaches, every arrow leads to a higher level.

The walk enters a name again only on a longer path, so a name may have been left with its arrows
looked at from a lower level. What holds between two steps is `Settled`: the arrows from names that
have a level lead to higher ones, except from the names on the path, whose arrows are still being
followed. Without cycles no arrow leads back to the path, so a name keeps its level while it is on
the path (`Walked.kept`), and it is settled when the walk has gone to all names that it leads to.

Whether there are cycles or not, no level falls (`get?_walk_of_get?`), every name that a root reaches
gets a level on the walk (`exists_levelsFrom`), and every name has one in the end (`exists_levels`).
-/

namespace Diagrams.Digraph

variable {g : Digraph}

/-! ### Any graph -/

/-- A level that is not higher than the known one is no news. -/
theorem le_of_not_raises {levels : Table Nat} {b : String} {level : Nat}
    (h : ¬raises levels b level = true) : ∃ l, levels.get? b = some l ∧ level ≤ l := by
  unfold raises at h
  split at h
  · rename_i l hl
    exact ⟨l, hl, by simpa using h⟩
  · exact absurd rfl h

/-- A higher level is no less than the one before. -/
theorem get?_insert_of_raises {levels : Table Nat} {b : String} {level : Nat}
    (h : raises levels b level = true) {n : String} {l : Nat} (hn : levels.get? n = some l) :
    ∃ l', (levels.insert b level).get? n = some l' ∧ l ≤ l' := by
  rw [Table.get?_insert]
  by_cases hb : b = n
  · subst hb
    rw [if_pos rfl]
    unfold raises at h
    rw [hn] at h
    exact ⟨level, rfl, Nat.le_of_lt (by simpa using h)⟩
  · rw [if_neg hb]
    exact ⟨l, hn, Nat.le_refl l⟩

/-- A name that is entered gets its level. -/
@[simp] theorem Walk.levels_enter (levels : Table Nat) (name : String) (level : Nat) :
    (enter levels name level).levels = levels.insert name level := rfl

/-- The levels of two walks are those that the second one leaves. -/
@[simp] theorem Walk.levels_followedBy (w : Walk) (next : Table Nat → Walk) :
    (w.followedBy next).levels = (next w.levels).levels := rfl

/-- No level falls while the walk goes on. -/
theorem get?_walk_of_get? (g : Digraph) (path : List String) (level : Nat) (targets : List String)
    {levels : Table Nat} {n : String} {l : Nat} (hn : levels.get? n = some l) :
    ∃ l', (g.walk path level targets levels).levels.get? n = some l' ∧ l ≤ l' := by
  induction path, level, targets, levels using Digraph.walk.induct_unfolding g generalizing l with
  | case1 path level levels => exact ⟨l, hn, Nat.le_refl l⟩
  | case2 path level levels b rest hb ih => exact ih hn
  | case3 path level levels b rest hb hraises ihBelow ihRest =>
    obtain ⟨l₁, hn₁, hl₁⟩ := get?_insert_of_raises hraises hn
    obtain ⟨l₂, hn₂, hl₂⟩ := ihBelow _ hn₁
    obtain ⟨l₃, hn₃, hl₃⟩ := ihRest _ hn₂
    exact ⟨l₃, hn₃, Nat.le_trans hl₁ (Nat.le_trans hl₂ hl₃)⟩
  | case4 path level levels b rest hb hraises ih => exact ih hn

/-- A name that has a level keeps one. -/
theorem names_subset_walk (g : Digraph) (path : List String) (level : Nat) (targets : List String)
    (levels : Table Nat) : levels.names ⊆ (g.walk path level targets levels).levels.names := by
  intro n hn
  obtain ⟨l, hl⟩ := Table.exists_get?_iff.mpr hn
  obtain ⟨l', hl', -⟩ := g.get?_walk_of_get? path level targets hl
  exact Table.exists_get?_iff.mp ⟨l', hl'⟩

/-- The arrows from names with a level lead to names with one, names on the path apart. -/
def Closed (g : Digraph) (path : List String) (levels : Table Nat) : Prop :=
  ∀ a ∈ levels.names, a ∉ path → g.next a ⊆ levels.names

/-- A name is left when the walk has gone to all names that it leads to, so the levels are closed
again afterwards. -/
theorem closed_walk (path : List String) (level : Nat) (targets : List String) (levels : Table Nat)
    (hpath : path ⊆ levels.names) (h : g.Closed path levels) :
    targets ⊆ (g.walk path level targets levels).levels.names ∧
      g.Closed path (g.walk path level targets levels).levels := by
  induction path, level, targets, levels using Digraph.walk.induct_unfolding g with
  | case1 path level levels => exact ⟨List.nil_subset _, h⟩
  | case2 path level levels b rest hb ih =>
    obtain ⟨hrest, hclosed⟩ := ih hpath h
    exact ⟨List.cons_subset.mpr ⟨g.names_subset_walk _ _ _ _ (hpath hb), hrest⟩, hclosed⟩
  | case3 path level levels b rest hb hraises ihBelow ihRest =>
    have hb' : b ∈ (levels.insert b level).names := levels.mem_names_insert b level
    have hkept : levels.names ⊆ (levels.insert b level).names := levels.names_subset_insert b level
    have hopen : g.Closed (b :: path) (levels.insert b level) := by
      intro a ha hpath'
      rw [List.mem_cons, not_or] at hpath'
      rcases Table.mem_names_insert_iff.mp ha with rfl | ha
      · exact absurd rfl hpath'.1
      · exact List.Subset.trans (h a ha hpath'.2) hkept
    obtain ⟨hnext, hbelow⟩ := ihBelow _
      (List.cons_subset.mpr ⟨hb', List.Subset.trans hpath hkept⟩) hopen
    have hnames := g.names_subset_walk (b :: path) (level + 1) (g.next b) (levels.insert b level)
    obtain ⟨hrest, hclosed⟩ := ihRest _
      (List.Subset.trans hpath (List.Subset.trans hkept hnames)) fun a ha hpath' => by
        by_cases hab : a = b
        · exact hab ▸ hnext
        · exact hbelow a ha (List.not_mem_cons_of_ne_of_not_mem hab hpath')
    exact ⟨List.cons_subset.mpr ⟨g.names_subset_walk _ _ _ _ (hnames hb'), hrest⟩, hclosed⟩
  | case4 path level levels b rest hb hraises ih =>
    obtain ⟨hrest, hclosed⟩ := ih hpath h
    obtain ⟨l, hl, -⟩ := le_of_not_raises hraises
    have hb' : b ∈ levels.names := Table.exists_get?_iff.mp ⟨l, hl⟩
    exact ⟨List.cons_subset.mpr ⟨g.names_subset_walk _ _ _ _ hb', hrest⟩, hclosed⟩

/-- Every name that a root reaches gets a level on the walk. -/
theorem exists_levelsFrom {roots : List String} {r n : String} (hr : r ∈ roots)
    (hn : g.Reaches r n) : ∃ l, (g.levelsFrom roots).get? n = some l := by
  obtain ⟨hroots, hclosed⟩ := closed_walk (g := g) [] 0 roots [] (List.nil_subset _)
    fun _ h => absurd h List.not_mem_nil
  refine Table.exists_get?_iff.mpr ?_
  induction hn with
  | refl => exact hroots hr
  | tail _ hbc ih => exact hclosed _ ih List.not_mem_nil hbc

/-- Names that have a level keep it when the others get theirs. -/
theorem get?_levels {names roots : List String} {n : String} {l : Nat}
    (h : (g.levelsFrom roots).get? n = some l) : (g.levels names roots).get? n = some l := by
  unfold levels
  refine List.foldlRecOn (motive := fun t : Table Nat => t.get? n = some l) names _ h ?_
  intro t ht m _
  unfold Table.insertNew
  split
  · exact ht
  · rename_i hm
    rw [Table.get?_insert]
    split
    · rename_i hmn
      subst hmn
      simp [Table.contains, ht] at hm
    · exact ht

/-- A name that the walk does not reach gets level zero; the others keep their levels. -/
theorem getD_levels (g : Digraph) (names roots : List String) (n : String) :
    (g.levels names roots).getD n 0 = (g.levelsFrom roots).getD n 0 := by
  unfold levels
  refine List.foldlRecOn (motive := fun t : Table Nat => t.getD n 0 = (g.levelsFrom roots).getD n 0)
    names _ rfl ?_
  intro t ht m _
  unfold Table.insertNew
  split
  · exact ht
  · rename_i hm
    rw [← ht, Table.getD, Table.getD, Table.get?_insert]
    split
    · rename_i hmn
      subst hmn
      simp only [Table.contains, Option.not_isSome_iff_eq_none] at hm
      rw [hm]
      rfl
    · rfl

/-- Every name has a level, whether the walk reaches it or not. -/
theorem exists_levels (g : Digraph) (names roots : List String) {n : String} (hn : n ∈ names) :
    ∃ l, (g.levels names roots).get? n = some l := by
  have hfold : ∀ t : Table Nat, n ∈ t.names ∨ n ∈ names →
      n ∈ (names.foldl (fun t m => t.insertNew m 0) t).names := by
    clear hn
    induction names with
    | nil => simp
    | cons m rest ih =>
      intro t ht
      apply ih
      rw [Table.names_insertNew]
      rcases ht with ht | ht
      · exact .inl (by split <;> simp [ht])
      · rcases List.mem_cons.mp ht with rfl | ht
        · exact .inl (by split <;> simp_all)
        · exact .inr ht
  exact Table.exists_get?_iff.mpr (hfold _ (.inr hn))

/-! ### Acyclic graphs -/

/-- The arrows from names with a level lead to names with higher ones, names on the path apart. -/
def Settled (g : Digraph) (path : List String) (levels : Table Nat) : Prop :=
  ∀ a l, a ∉ path → levels.get? a = some l →
    ∀ b, g.Arrow a b → ∃ l', levels.get? b = some l' ∧ l < l'

/-- What a walk has done to the levels. -/
structure Walked (g : Digraph) (path : List String) (level : Nat) (targets : List String)
    (before after : Table Nat) : Prop where
  /-- The levels of names on the path stay. -/
  kept : ∀ n ∈ path, after.get? n = before.get? n
  /-- The targets are as high as the walk was when it came to them. -/
  reached : ∀ b ∈ targets, ∃ l, after.get? b = some l ∧ level ≤ l
  /-- Names that were settled are so again, and so are the ones that the walk has come through. -/
  settled : g.Settled path before → g.Settled path after

/-- Names lead from the path to all targets, so that no target is on it. -/
theorem IsAcyclic.walked (hg : g.IsAcyclic) (path : List String) (level : Nat)
    (targets : List String) (levels : Table Nat)
    (hpath : ∀ a ∈ path, ∀ b ∈ targets, Relation.TransGen g.Arrow a b) :
    g.Walked path level targets levels (g.walk path level targets levels).levels := by
  induction path, level, targets, levels using Digraph.walk.induct_unfolding g with
  | case1 path level levels =>
    exact ⟨fun _ _ => rfl, fun _ h => absurd h List.not_mem_nil, id⟩
  | case2 path level levels b rest hb ih =>
    exact absurd (hpath b hb b List.mem_cons_self) (hg b)
  | case3 path level levels b rest hb hraises ihBelow ihRest =>
    have hbelow := ihBelow (levels.insert b level) fun a ha c hc => by
      rcases List.mem_cons.mp ha with rfl | ha
      · exact .single hc
      · exact (hpath a ha b List.mem_cons_self).tail hc
    have hrest := ihRest (g.walk (b :: path) (level + 1) (g.next b)
        (levels.insert b level)).levels fun a ha c hc => hpath a ha c (List.mem_cons_of_mem b hc)
    -- the name just entered has its level as long as the walk goes on below it
    have hlevel : (g.walk (b :: path) (level + 1) (g.next b)
        (levels.insert b level)).levels.get? b = some level := by
      rw [hbelow.kept b List.mem_cons_self, Table.get?_insert, if_pos rfl]
    simp only [Walk.levels_followedBy, Walk.levels_enter]
    refine ⟨?_, ?_, ?_⟩
    · intro n hn
      have hbn : b ≠ n := fun hbn => hb (hbn ▸ hn)
      rw [hrest.kept n hn, hbelow.kept n (List.mem_cons_of_mem b hn), Table.get?_insert,
        if_neg hbn]
    · intro c hc
      rcases List.mem_cons.mp hc with rfl | hc
      · exact g.get?_walk_of_get? path level rest hlevel
      · exact hrest.reached c hc
    · intro hsettled
      apply hrest.settled
      have hopen : g.Settled (b :: path) (levels.insert b level) := by
        intro a l ha hal c hac
        have hba : b ≠ a := fun hba => ha (hba ▸ List.mem_cons_self)
        rw [Table.get?_insert, if_neg hba] at hal
        obtain ⟨l', hc, hl'⟩ :=
          hsettled a l (fun h => ha (List.mem_cons_of_mem b h)) hal c hac
        obtain ⟨l'', hc', hl''⟩ := get?_insert_of_raises hraises hc
        exact ⟨l'', hc', Nat.lt_of_lt_of_le hl' hl''⟩
      intro a l ha hal c hac
      by_cases hab : a = b
      · subst hab
        rw [hlevel] at hal
        cases hal
        exact hbelow.reached c hac
      · refine hbelow.settled hopen a l (fun h => ?_) hal c hac
        rcases List.mem_cons.mp h with h | h
        · exact hab h
        · exact ha h
  | case4 path level levels b rest hb hraises ih =>
    have hrest := ih fun a ha c hc => hpath a ha c (List.mem_cons_of_mem b hc)
    refine ⟨hrest.kept, ?_, hrest.settled⟩
    intro c hc
    rcases List.mem_cons.mp hc with rfl | hc
    · obtain ⟨l, hl, hle⟩ := le_of_not_raises hraises
      obtain ⟨l', hl', hle'⟩ := g.get?_walk_of_get? path level rest hl
      exact ⟨l', hl', Nat.le_trans hle hle'⟩
    · exact hrest.reached c hc

/-- When a root reaches the start of every arrow, levels rise along the arrows. -/
theorem IsAcyclic.rises_levels (hg : g.IsAcyclic) {names roots : List String}
    (hroots : ∀ ⦃a b⦄, g.Arrow a b → ∃ r ∈ roots, g.Reaches r a) :
    g.Rises fun n => (g.levels names roots).getD n 0 := by
  intro a b hab
  obtain ⟨r, hr, hra⟩ := hroots hab
  obtain ⟨l, hl⟩ := exists_levelsFrom hr hra
  have hw := hg.walked [] 0 roots [] fun _ h => absurd h List.not_mem_nil
  have hsettled : g.Settled [] (g.levelsFrom roots) := hw.settled fun _ _ _ h => nomatch h
  obtain ⟨l', hl', hlt⟩ := hsettled a l List.not_mem_nil hl b hab
  simpa [Table.getD, get?_levels hl, get?_levels hl'] using hlt

end Diagrams.Digraph
