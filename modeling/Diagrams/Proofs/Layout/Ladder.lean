import Diagrams.Proofs.Layout.Flow
import Diagrams.Proofs.Layout.Origin

/-!
# Columns beyond the range of numbers

**Main statement** (`columnsInRange_ladder`): a ladder of several arrows from each name to the next
has a column beyond the range of numbers when it is high enough.

A width counts the ways that lead down, so it is multiplied with each step of a ladder
(`IsWidth.pow_le`), and the numbers of names and arrows are only added to. The second name of a
ladder stands in the middle of the columns reserved for it, and the first one is centred over it, so
the column of the first one is half as large as that of the second at least (`two_pow_le_column`).
-/

namespace Diagrams

open Number

namespace Digraph

variable {g : Digraph} {w : String → Nat} {k : Nat}

/-- Below a name there is room for each of the arrows that lead from it to another. -/
theorem IsWidth.mul_le (hw : g.IsWidth w) (a b : String) : (g.next a).count b * w b ≤ w a := by
  have hsub : (List.replicate ((g.next a).count b) b).Sublist (g.next a) :=
    List.replicate_sublist_iff.mpr le_rfl
  have hsum := (hsub.map w).sum_le_sum fun _ _ => Nat.zero_le _
  rw [List.map_replicate, List.sum_replicate, nsmul_eq_mul, Nat.cast_id] at hsum
  exact hsum.trans (hw.sum_next_le a)

/-- With each step along which there are several arrows the width is multiplied. -/
theorem IsWidth.pow_le (hw : g.IsWidth w) {a : String} {names : List String}
    (h : List.IsChain (fun a b => k ≤ (g.next a).count b) (a :: names)) :
    k ^ names.length ≤ w a := by
  induction names generalizing a with
  | nil => exact hw.pos a
  | cons b rest ih =>
    obtain ⟨hab, hrest⟩ := List.isChain_cons_cons.mp h
    calc k ^ (rest.length + 1)
        = k * k ^ rest.length := by rw [Nat.pow_succ, Nat.mul_comm]
      _ ≤ (g.next a).count b * w b := Nat.mul_le_mul hab (ih hrest)
      _ ≤ w a := hw.mul_le a b

/-! ### Ladders -/

/-- Several arrows from each name to the next one. -/
def rungs (k : Nat) : List String → List (String × String)
  | a :: b :: rest => List.replicate k (a, b) ++ rungs k (b :: rest)
  | _ => []

/-- The graph of these arrows. -/
def ladder (k : Nat) (names : List String) : Digraph := ⟨rungs k names⟩

variable {a b c : String} {names rest : List String}

/-- Arrows lead from a name of the list to one behind the first. -/
theorem mem_of_mem_rungs (h : (a, b) ∈ rungs k names) : a ∈ names ∧ b ∈ names.tail := by
  induction names using rungs.induct with
  | case1 c d rest ih =>
    rcases List.mem_append.mp h with h | h
    · obtain ⟨rfl, rfl⟩ := Prod.mk.inj (List.eq_of_mem_replicate h)
      exact ⟨List.mem_cons_self, List.mem_cons_self⟩
    · obtain ⟨ha, hb⟩ := ih h
      exact ⟨List.mem_cons_of_mem c ha, List.mem_cons_of_mem d hb⟩
  | case2 names hnames =>
    rw [rungs.eq_2 k names hnames] at h
    cases h

/-- To each name behind the first one an arrow leads. -/
theorem exists_mem_rungs (hk : k ≠ 0) (h : b ∈ names.tail) : ∃ a, (a, b) ∈ rungs k names := by
  induction names using rungs.induct with
  | case1 c d rest ih =>
    rcases List.mem_cons.mp h with rfl | h
    · exact ⟨c, List.mem_append_left _ (List.mem_replicate.mpr ⟨hk, rfl⟩)⟩
    · obtain ⟨a, ha⟩ := ih h
      exact ⟨a, List.mem_append_right _ ha⟩
  | case2 names hnames =>
    obtain _ | ⟨a, _ | ⟨c, rest⟩⟩ := names
    · cases h
    · cases h
    · exact absurd rfl (hnames a c rest)

/-- The names of a ladder with a step are the ends of its arrows. -/
theorem mem_iff_exists_rungs (hk : k ≠ 0) {n : String} :
    n ∈ a :: b :: rest ↔ ∃ r ∈ rungs k (a :: b :: rest), r.1 = n ∨ r.2 = n := by
  constructor
  · intro h
    rcases List.mem_cons.mp h with rfl | h
    · exact ⟨(n, b), List.mem_append_left _ (List.mem_replicate.mpr ⟨hk, rfl⟩), .inl rfl⟩
    · obtain ⟨c, hc⟩ : ∃ c, (c, n) ∈ rungs k (a :: b :: rest) := exists_mem_rungs hk h
      exact ⟨(c, n), hc, .inr rfl⟩
  · rintro ⟨⟨c, d⟩, h, rfl | rfl⟩
    · exact (mem_of_mem_rungs h).1
    · exact List.mem_of_mem_tail (mem_of_mem_rungs h).2

/-- There are as many arrows from each name to the next one, whatever arrows stand before. -/
theorem isChain_rungs (k : Nat) (before : List (String × String)) (names : List String) :
    List.IsChain (fun a b => k ≤ ((Digraph.mk (before ++ rungs k names)).next a).count b)
      names := by
  induction names using rungs.induct generalizing before with
  | case1 a b rest ih =>
    refine List.isChain_cons_cons.mpr ⟨?_, ?_⟩
    · simp only [next, rungs, List.filter_append, List.map_append, List.count_append,
        List.filter_replicate, BEq.rfl, if_true, List.map_replicate, List.count_replicate_self]
      omega
    · -- for the rest of the names the arrows of this step stand before as well
      have hrest := ih (before ++ List.replicate k (a, b))
      rwa [List.append_assoc] at hrest
  | case2 names hnames =>
    obtain _ | ⟨a, _ | ⟨b, rest⟩⟩ := names
    · exact List.isChain_nil
    · exact List.isChain_singleton a
    · exact absurd rfl (hnames a b rest)

/-- Arrows lead on in the list. -/
theorem rises_ladder (k : Nat) (h : names.Nodup) : (ladder k names).Rises names.idxOf := by
  intro a b hab
  rw [arrow_iff, ladder] at hab
  show names.idxOf a < names.idxOf b
  induction names using rungs.induct with
  | case1 c d rest ih =>
    obtain ⟨hc, hnodup⟩ := List.nodup_cons.mp h
    rcases List.mem_append.mp hab with hab | hab
    · obtain ⟨rfl, rfl⟩ := Prod.mk.inj (List.eq_of_mem_replicate hab)
      have hne : a ≠ b := fun hab => hc (hab ▸ List.mem_cons_self)
      rw [List.idxOf_cons_self, List.idxOf_cons_ne _ hne]
      exact Nat.succ_pos _
    · obtain ⟨ha, hb⟩ := mem_of_mem_rungs hab
      have hca : c ≠ a := fun heq => hc (heq ▸ ha)
      have hcb : c ≠ b := fun heq => hc (heq ▸ List.mem_of_mem_tail hb)
      rw [List.idxOf_cons_ne _ hca, List.idxOf_cons_ne _ hcb]
      exact Nat.succ_lt_succ (ih hnodup hab)
  | case2 names hnames =>
    rw [rungs.eq_2 k names hnames] at hab
    cases hab

/-- The first name leads to the second one. -/
theorem next_ladder (k : Nat) (a b : String) (rest : List String) :
    ∃ more, (ladder (k + 2) (a :: b :: rest)).next a = b :: b :: more := by
  simp [ladder, rungs, next, List.replicate_succ]

/-- All arrows are known when the names of the ladder are. -/
theorem within_ladder (k : Nat) {known : List String} (h : names ⊆ known) :
    (ladder k names).within known = ladder k names := by
  rw [within, ladder, Digraph.mk.injEq, List.filter_eq_self]
  rintro ⟨a, b⟩ hab
  obtain ⟨ha, hb⟩ := mem_of_mem_rungs hab
  simp [h ha, h (List.mem_of_mem_tail hb)]

/-- Layouts start from the first name. -/
theorem roots_ladder (hk : k ≠ 0) (hnodup : (a :: rest).Nodup) {known : List String}
    (hknown : known.Nodup) (h : ∀ n, n ∈ known ↔ n ∈ a :: rest) :
    (ladder k (a :: rest)).roots known = [a] := by
  have hwithin : (ladder k (a :: rest)).within known = ladder k (a :: rest) :=
    within_ladder k fun n hn => (h n).mpr hn
  have hacyclic : ((ladder k (a :: rest)).within known).IsAcyclic :=
    hwithin.symm ▸ (rises_ladder k hnodup).isAcyclic
  have hmem : ∀ n, n ∈ (ladder k (a :: rest)).roots known ↔ n ∈ [a] := by
    intro n
    have hroots := hacyclic.mem_roots_within (a := n)
    rw [hwithin, h] at hroots
    rw [hroots, List.mem_singleton]
    constructor
    · rintro ⟨hn, hnone⟩
      refine (List.mem_cons.mp hn).resolve_right fun hn => ?_
      obtain ⟨b, hb⟩ : ∃ b, (b, n) ∈ rungs k (a :: rest) := exists_mem_rungs hk hn
      have htarget : (ladder k (a :: rest)).isTarget n = true :=
        isTarget_iff.mpr ⟨b, arrow_iff.mpr hb⟩
      exact absurd (hnone.symm.trans htarget) Bool.false_ne_true
    · rintro rfl
      refine ⟨List.mem_cons_self, eq_false_of_ne_true fun htarget => ?_⟩
      obtain ⟨b, hb⟩ := isTarget_iff.mp htarget
      exact (List.nodup_cons.mp hnodup).1 (mem_of_mem_rungs (arrow_iff.mp hb)).2
  have hperm := (List.perm_ext_iff_of_nodup (nodup_roots hknown) (List.nodup_singleton a)).mpr hmem
  exact List.perm_singleton.mp hperm

end Digraph

namespace Layout

open Diagrams.Digraph

variable {g : Digraph} {w : String → Nat} {n : Nat}

/-! ### The column of a root -/

/-- The middle of many columns. -/
theorem two_pow_le_middle {width : Nat} (h : 2 ^ (n + 1) < width) :
    (2 : Rat) ^ n ≤ middle .binary64 0 width := by
  have hwidth : (2 : Rat) ^ (n + 1) + 1 ≤ width := by exact_mod_cast h
  rw [pow_succ] at hwidth
  have hhalf : (2 : Rat) ^ n ≤ Arithmetic.binary64.div ((width : Rat) - 1) 2 :=
    two_pow_le_toBinary64 (by linarith)
  have hstart : 0 ≤ Arithmetic.binary64.round 0 := keepsSign_binary64.round le_rfl
  exact two_pow_le_toBinary64 (by linarith)

/-- None of some numbers is greater than the greatest. -/
theorem le_greatest (q : Rat) (qs : List Rat) : q ≤ greatest q qs := by
  refine List.foldlRecOn (motive := fun m : Rat => q ≤ m) qs _ le_rfl ?_
  intro m hm r _
  split
  · rename_i hmr
    exact hm.trans hmr.le
  · exact hm

/-- The middle between columns is half of each of them at least. -/
theorem two_pow_le_between {c : Rat} {centers : List Rat} (start : Rat)
    (hcenters : ∀ d ∈ c :: centers, 0 ≤ d) (hc : (2 : Rat) ^ (n + 1) ≤ c) :
    (2 : Rat) ^ n ≤ between .binary64 (c :: centers) start := by
  have hleast : 0 ≤ least c centers := hcenters _ (least_mem c centers)
  have hgreatest : (2 : Rat) ^ (n + 1) ≤ greatest c centers := hc.trans (le_greatest c centers)
  have hsum : (2 : Rat) ^ (n + 1) ≤
      Arithmetic.binary64.add (least c centers) (greatest c centers) :=
    two_pow_le_toBinary64 (by linarith)
  rw [pow_succ] at hsum
  exact two_pow_le_toBinary64 (by linarith)

/-- The names that are left take no column away. -/
theorem get?_leftovers (A : Arithmetic) {name : String} {c : Rat} (names : List String)
    {p : Rat × Table Rat} (h : p.2.get? name = some c) :
    (names.foldl (fun (p : Rat × Table Rat) name =>
      if p.2.contains name then p else (past A p.1 1, p.2.insert name p.1)) p).2.get? name =
        some c := by
  induction names generalizing p with
  | nil => exact h
  | cons other rest ih =>
    rw [List.foldl_cons]
    apply ih
    split
    · exact h
    · rename_i hother
      have hne : other ≠ name := by
        rintro rfl
        exact hother (Table.contains_iff.mpr (Table.exists_get?_iff.mp ⟨c, h⟩))
      rw [Table.get?_insert, if_neg hne, h]

/-- A root that leads to several names stands between the centers of their trees. -/
theorem get?_columnsOf_root (A : Arithmetic) (names : List String) {root c d : String}
    {more seen : List String} {below rest : Forest} {after : Rat} {centers : List Rat}
    {columns : Columns} (hnext : g.next root = c :: d :: more)
    (hsearch : g.search [root] (c :: d :: more) = (.first c below rest, seen))
    (hspread : spread A g (.first c below rest) 0 {} = (after, centers, columns)) :
    (columnsOf A g names [root]).get? root = some (between A centers 0) := by
  have hheads : (Forest.first c below rest).heads = c :: d :: more := by
    have hmeets := (meets_search g [root] (c :: d :: more)).heads_eq
    rwa [hsearch] at hmeets
  have hplaced : placeTree A g (.first root (.first c below rest) .nil) 0 {} =
      (after, columns.set root (between A centers 0)) := by
    simp only [placeTree, hheads, hspread]
  have hcolumn : (Assignment.place A g {} root 0).2.columns.column.get? root =
      some (between A centers 0) := by
    rw [Assignment.place, search_cons_of_not_mem g List.not_mem_nil, hnext, hsearch, search_nil]
    simp only [hplaced, Columns.column_set, Table.get?_insert, if_pos]
  exact get?_leftovers A names (p := (_, _)) hcolumn

/-- A root that leads to several names, the first of which is wide, stands in a column far from the
first one. -/
theorem two_pow_le_column (hg : g.IsAcyclic) (hw : g.IsWidth w) {root c d : String}
    {more : List String} (hnext : g.next root = c :: d :: more) (hc : 4 * 2 ^ n < w c)
    (names : List String) :
    ∃ q, (columnsOf .binary64 g names [root]).get? root = some q ∧ (2 : Rat) ^ n ≤ q := by
  have hne : c ∉ [root] := by
    intro hmem
    have hloop : g.Arrow root root := by
      show root ∈ g.next root
      rw [hnext, ← List.mem_singleton.mp hmem]
      exact List.mem_cons_self
    exact hg root (.single hloop)
  obtain ⟨below, rest, seen, hsearch⟩ :
      ∃ below rest seen, g.search [root] (c :: d :: more) = (.first c below rest, seen) :=
    ⟨_, _, _, search_cons_of_not_mem g hne _⟩
  obtain ⟨after, centers, columns, hspread⟩ : ∃ after centers columns,
      spread .binary64 g (.first c below rest) 0 {} =
        (after, middle .binary64 0 (w c) :: centers, columns) := by
    have hwidth : (Columns.width {} g c).1 = w c :=
      (Columns.width_eq hg hw (by rintro _ ⟨⟩ _ _ ⟨⟩) c).1
    rw [spread]
    simp only [hwidth]
    exact ⟨_, _, _, rfl⟩
  -- the other centers are not known, but none of them is negative
  have hcenters : ∀ q ∈ middle .binary64 0 (w c) :: centers, 0 ≤ q := by
    have hsettled := spread_settled (g := g) (s := {}) (k := 0)
      (keepsSign_binary64.confines (0 + extent (g.plainWidth []) (.first c below rest)))
      (.first c below rest) (le_refl (0 : Rat)) (Nat.le_succ _) (.empty g _)
    rw [hspread] at hsettled
    exact hsettled.2.1
  refine ⟨_, get?_columnsOf_root .binary64 names hnext hsearch hspread, ?_⟩
  have hmiddle : (2 : Rat) ^ (n + 1) ≤ middle .binary64 0 (w c) :=
    two_pow_le_middle (by rw [pow_succ, pow_succ]; omega)
  exact two_pow_le_between 0 hcenters hmiddle

/-- **Main statement.** A ladder of several arrows from each name to the next one has a column
beyond the range of numbers when it is high enough. -/
theorem columnsInRange_ladder {k : Nat} {a b : String} {rest : List String}
    (hnodup : (a :: b :: rest).Nodup) (hheight : 4 * 2 ^ 1023 < (k + 2) ^ rest.length)
    {nodes : List Node} (hnodes : (nodes.map Node.id).Nodup)
    (hids : ∀ n, n ∈ nodes.map Node.id ↔ n ∈ a :: b :: rest) (direction : Term Direction) :
    columnsInRange .binary64 nodes (ladder (k + 2) (a :: b :: rest)) direction = false := by
  set g := ladder (k + 2) (a :: b :: rest)
  have hwithin : g.within (nodes.map Node.id) = g :=
    within_ladder (k + 2) fun n hn => (hids n).mpr hn
  have hacyclic : g.IsAcyclic := (rises_ladder (k + 2) hnodup).isAcyclic
  have hroots : g.roots (nodes.map Node.id) = [a] :=
    roots_ladder (Nat.succ_ne_zero _) hnodup hnodes hids
  -- each arrow leads to a higher level, so none is left out of the tree
  have htree : treeOf g (g.levels (nodes.map Node.id) [a]) = g := by
    have hknown : (g.within (nodes.map Node.id)).IsAcyclic := hwithin.symm ▸ hacyclic
    have hrises := rises_levels_within hknown
    rw [hwithin, hroots] at hrises
    exact treeOf_eq hrises
  obtain ⟨w, hw⟩ := hacyclic.exists_isWidth
  have hchain := (List.isChain_cons_cons.mp (isChain_rungs (k + 2) [] (a :: b :: rest))).2
  obtain ⟨more, hnext⟩ := next_ladder k a b rest
  obtain ⟨q, hq, hle⟩ := two_pow_le_column (n := 1023) hacyclic hw hnext
    (hheight.trans_le (hw.pow_le hchain)) (nodes.map Node.id)
  obtain ⟨n, hn, hid⟩ := List.mem_map.mp ((hids a).mpr List.mem_cons_self)
  rw [columnsInRange, List.all_eq_false]
  refine ⟨n, hn, ?_⟩
  have hcolumn : (ranks .binary64 (nodes.map Node.id) g).columns.getD n.id 0 = q := by
    simp only [ranks, hwithin, hroots, htree, hid, Table.getD, hq, Option.getD_some]
  have hgap : (2 : Rat) ≤ (Orientation.of direction).columnGap := by
    unfold Orientation.columnGap
    split <;> norm_num [horizontalGap, verticalGap]
  have hfar : (2 : Rat) ^ 1024 ≤
      Arithmetic.binary64.mul q (Orientation.of direction).columnGap := by
    apply two_pow_le_toBinary64
    calc (2 : Rat) ^ 1024
        = 2 ^ 1023 * 2 := pow_succ 2 1023
      _ ≤ q * (Orientation.of direction).columnGap :=
          mul_le_mul hle hgap (by norm_num) (le_trans (by positivity) hle)
  rw [hcolumn]
  exact not_inRange_binary64 hfar

end Layout

end Diagrams
