import Diagrams.Proofs.Graph.Memory
import Diagrams.Proofs.Layout.Overlap
import Diagrams.Proofs.Number.Binary64
import Mathlib.Algebra.Order.Archimedean.Basic
import Mathlib.Order.Interval.Set.Defs

/-!
# Every node has a place, and all places lie between bounds

**Main statements** (`exists_columnsOf`, `exists_ranks`, `KeepsBounds.point_mem`): whatever the edges
of a flowchart are, every node has a level and a column. No column lies before the first one, and
none lies behind the columns that the search from the roots takes together with one column for each
name that the search does not meet. So no box lies before the place where the first column begins.

With cycles the columns reserved for two names may meet, so `Spaced` says too much. What is left of
it is that columns stay within bounds: `Columns.IsWithin` holds of the columns given so far. How many
columns the placing of a forest takes at most is its `extent`, a recursion on the forest in which a
name takes its width, counted without a memory, or what the names below it take if that is more. Each
step of the placing keeps to the bounds as long as the extent of what is left fits into them.

What the placing needs of rounded arithmetic is put together in `Confines`. It is kept when no number
is rounded past a half of a whole number, up to a limit (`KeepsBounds.confines`), and without a limit
when only the lower bound is of interest (`KeepsSign.confines`).
-/

namespace Diagrams.Layout

open Number Diagrams.Digraph Set

variable {A : Arithmetic} {limit last k : Nat} {g : Digraph} {start : Rat}
  {upTo : Nat → Rat → Prop} {P : Rat → Prop}

/-! ### Columns within bounds -/

/-- All columns are of a kind. -/
def Within (P : Rat → Prop) (columns : Table Rat) : Prop := ∀ n c, columns.get? n = some c → P c

/-- A column of the kind may be added. -/
theorem Within.insert {columns : Table Rat} (h : Within P columns) (name : String) {c : Rat}
    (hc : P c) : Within P (columns.insert name c) := by
  intro n d hd
  rw [Table.get?_insert] at hd
  split at hd
  · cases hd
    exact hc
  · exact h n d hd

/-- The columns given so far are of a kind, and the widths found are neither zero nor too large. -/
structure Columns.IsWithin (g : Digraph) (P : Rat → Prop) (s : Columns) : Prop where
  /-- The columns given so far. -/
  column : Within P s.column
  /-- No width is zero. -/
  positive : IsPositive (some s.widths)
  /-- No width is too large. -/
  below : g.IsBelow s.widths

namespace Columns.IsWithin

variable {s : Columns}

/-- Before anything is placed all columns are of the kind. -/
theorem empty (g : Digraph) (P : Rat → Prop) : Columns.IsWithin g P {} where
  column := nofun
  positive := by
    intro t ht n v hv
    obtain rfl : ([] : Table Nat) = t := Option.some.inj ht
    exact nomatch hv
  below := g.isBelow_nil

/-- A column of the kind may be set. -/
theorem set (h : s.IsWithin g P) (name : String) {c : Rat} (hc : P c) :
    (s.set name c).IsWithin g P :=
  ⟨h.column.insert name hc, h.positive, h.below⟩

/-- The width that is looked up is neither zero nor too large. -/
theorem width (h : s.IsWithin g P) (name : String) :
    1 ≤ (s.width g name).1 ∧ (s.width g name).1 ≤ g.plainWidth [] name ∧
      (s.width g name).2.IsWithin g P := by
  obtain ⟨hpos, hpositive⟩ := g.one_le_width [] h.positive name
  obtain ⟨hle, hbelow⟩ := h.below.width_le name
  have hkept := Columns.widths_width (P := fun memory => ∀ t ∈ memory, g.IsBelow t) (s := s)
    (fun t ht => Option.some.inj ht ▸ h.below) hbelow
  exact ⟨hpos, hle, h.column, Columns.widths_width h.positive hpositive, hkept _ rfl⟩

end Columns.IsWithin

/-- What has come of placing some names: all columns are of the kind, and the names have columns like
those that had them before. -/
structure Settled (g : Digraph) (P : Rat → Prop) (before after : Columns) (names : List String) :
    Prop where
  /-- The columns are of the kind. -/
  within : after.IsWithin g P
  /-- No column is lost. -/
  kept : before.column.names ⊆ after.column.names
  /-- The names have columns. -/
  placed : names ⊆ after.column.names

namespace Settled

variable {s s₁ s₂ : Columns} {names names' : List String} {name : String} {c : Rat}

/-- Placing no name settles nothing. -/
theorem refl (h : s.IsWithin g P) : Settled g P s s [] :=
  ⟨h, List.Subset.refl _, List.nil_subset _⟩

/-- Names may be settled one after the other. -/
theorem append (h : Settled g P s s₁ names) (h' : Settled g P s₁ s₂ names') :
    Settled g P s s₂ (names ++ names') :=
  ⟨h'.within, List.Subset.trans h.kept h'.kept,
    List.append_subset.mpr ⟨List.Subset.trans h.placed h'.kept, h'.placed⟩⟩

/-- A name that is placed before others. -/
theorem cons (hs : s₁.column = s.column.insert name c) (h : Settled g P s₁ s₂ names) :
    Settled g P s s₂ (name :: names) where
  within := h.within
  kept := by
    refine List.Subset.trans ?_ h.kept
    rw [hs]
    exact Table.names_subset_insert _ _ _
  placed := by
    refine List.cons_subset.mpr ⟨h.kept ?_, h.placed⟩
    rw [hs]
    exact Table.mem_names_insert _ _ _

/-- A name that is placed after others. -/
theorem set (h : Settled g P s s₁ names) (hc : P c) :
    Settled g P s (s₁.set name c) (name :: names) where
  within := h.within.set name hc
  kept := List.Subset.trans h.kept (Table.names_subset_insert _ _ _)
  placed := List.cons_subset.mpr ⟨Table.mem_names_insert _ _ _,
    List.Subset.trans h.placed (Table.names_subset_insert _ _ _)⟩

end Settled

/-! ### Extents -/

/-- How many columns the placing of a forest takes at most. -/
def extent (w : String → Nat) : Forest → Nat
  | .nil => 0
  | .again _ rest => extent w rest
  | .first name below rest => max (w name) (extent w below) + extent w rest

/-! ### Placing -/

/-- Placing keeps to bounds: `upTo m` holds of the columns up to the one after `m` columns. -/
structure Confines (A : Arithmetic) (last : Nat) (upTo : Nat → Rat → Prop) : Prop where
  /-- Placing begins with the first column. -/
  zero : upTo 0 0
  /-- More columns leave more room. -/
  mono : ∀ {k m : Nat} {q : Rat}, k ≤ m → upTo k q → upTo m q
  /-- The middle of columns lies among them. -/
  middle : ∀ {k width : Nat} {start : Rat}, upTo k start → 1 ≤ width → k + width ≤ last + 1 →
    upTo last (middle A start width)
  /-- The column after some columns comes after no more than these. -/
  past : ∀ {k width : Nat} {start : Rat} (size : Nat), upTo k start → width ≤ size →
    k + size ≤ last + 1 → upTo (k + size) (past A start width)
  /-- The middle between columns lies within bounds like these. -/
  between : ∀ {centers : List Rat} {start : Rat}, upTo last start → (∀ c ∈ centers, upTo last c) →
    upTo last (between A centers start)

section Placing

variable (h : Confines A last upTo)
include h

/-- Below a name, all names get columns within the bounds. -/
theorem placeBelow_settled (f : Forest) {s : Columns} (hstart : upTo k start)
    (hroom : k + extent (g.plainWidth []) f ≤ last + 1) (hs : s.IsWithin g (upTo last)) :
    Settled g (upTo last) s (placeBelow A g f start s) f.names := by
  induction f generalizing start k s with
  | nil => exact .refl hs
  | again name rest ih => exact ih hstart hroom hs
  | first name below rest ihBelow ihRest =>
    obtain ⟨hpos, hle, hs'⟩ := hs.width name
    rw [extent] at hroom
    have hmiddle := h.middle hstart hpos (by omega)
    have hbelow := ihBelow hstart (by omega) (hs'.set name hmiddle)
    have hnext := h.past (max (g.plainWidth [] name) (extent (g.plainWidth []) below))
      hstart (hle.trans (Nat.le_max_left _ _)) (by omega)
    have hrest := ihRest hnext (by omega) hbelow.within
    exact (hbelow.cons rfl).append hrest

/-- The branches of a name get columns within the bounds, and so do the columns over which it is
centred. -/
theorem spread_settled (f : Forest) {s : Columns} (hstart : upTo k start)
    (hroom : k + extent (g.plainWidth []) f ≤ last + 1) (hs : s.IsWithin g (upTo last)) :
    let r := spread A g f start s
    upTo (k + extent (g.plainWidth []) f) r.1 ∧
      (∀ c ∈ r.2.1, upTo last c) ∧ Settled g (upTo last) s r.2.2 f.names := by
  induction f generalizing start k s with
  | nil => exact ⟨hstart, fun _ hc => absurd hc List.not_mem_nil, .refl hs⟩
  | again name rest ih =>
    obtain ⟨hafter, hcenters, hrest⟩ := ih hstart hroom hs
    refine ⟨hafter, fun c hc => ?_, hrest⟩
    rcases List.mem_append.mp hc with hc | hc
    · exact hs.column name c (by simpa using hc)
    · exact hcenters c hc
  | first name below rest _ ihRest =>
    obtain ⟨hpos, hle, hs'⟩ := hs.width name
    rw [extent] at hroom ⊢
    have hmiddle := h.middle hstart hpos (by omega)
    have hbelow := placeBelow_settled h below hstart (by omega) (hs'.set name hmiddle)
    have hnext := h.past (max (g.plainWidth [] name) (extent (g.plainWidth []) below))
      hstart (hle.trans (Nat.le_max_left _ _)) (by omega)
    obtain ⟨hafter, hcenters, hrest⟩ := ihRest hnext (by omega) hbelow.within
    rw [Nat.add_assoc] at hafter
    refine ⟨hafter, fun c hc => ?_, (hbelow.cons rfl).append hrest⟩
    rcases List.mem_cons.mp hc with rfl | hc
    · exact hmiddle
    · exact hcenters c hc

/-- A single tree takes no more columns than its extent, and each of its names gets one of them. -/
theorem placeTree_settled (f : Forest) (hf : f.heads.length ≤ 1) {s : Columns}
    (hstart : upTo k start) (hroom : k + extent (g.plainWidth []) f ≤ last + 1)
    (hs : s.IsWithin g (upTo last)) :
    let r := placeTree A g f start s
    upTo (k + extent (g.plainWidth []) f) r.1 ∧ Settled g (upTo last) s r.2 f.names := by
  induction f generalizing start k s with
  | nil => exact ⟨hstart, .refl hs⟩
  | again name rest _ =>
    obtain rfl : rest = .nil :=
      Forest.eq_nil_of_heads (List.eq_nil_of_length_eq_zero (by simpa [Forest.heads] using hf))
    exact ⟨hstart, .refl hs⟩
  | first name below rest ihBelow _ =>
    obtain rfl : rest = .nil :=
      Forest.eq_nil_of_heads (List.eq_nil_of_length_eq_zero (by simpa [Forest.heads] using hf))
    have hwidth := g.one_le_plainWidth [] name
    simp only [extent, Nat.add_zero] at hroom ⊢
    have hfirst : upTo last start := h.mono (by omega) hstart
    have hwiden : k + extent (g.plainWidth []) below ≤
        k + max (g.plainWidth [] name) (extent (g.plainWidth []) below) :=
      Nat.add_le_add_left (Nat.le_max_right _ _) k
    rw [Forest.names, Forest.names, List.append_nil, placeTree]
    split
    · -- a name that leads nowhere stands in the first column
      rename_i hheads
      obtain rfl := Forest.eq_nil_of_heads hheads
      exact ⟨h.past _ hstart (hwidth.trans (Nat.le_max_left _ _)) (by omega),
        Settled.set (.refl hs) hfirst⟩
    · rename_i head hheads
      obtain ⟨hafter, hbelow⟩ := ihBelow (by rw [hheads]; rfl) hstart (by omega) hs
      refine ⟨h.mono hwiden hafter, hbelow.set ?_⟩
      rw [Table.getD]
      cases hc : (placeTree A g below start s).2.column.get? head with
      | none => exact hfirst
      | some c => exact hbelow.within.column head c hc
    · obtain ⟨hafter, hcenters, hbelow⟩ := spread_settled h below hstart (by omega) hs
      exact ⟨h.mono hwiden hafter, hbelow.set (h.between hfirst hcenters)⟩

/-! ### All names -/

/-- Roots that are placed one after the other take no more columns than the search from them. -/
theorem places_settled (roots : List String) {p : Rat × Assignment}
    (hp : upTo k p.1) (hs : p.2.columns.IsWithin g (upTo last))
    (hroom : k + extent (g.plainWidth []) (g.search p.2.seen roots).1 ≤ last + 1) :
    let r := roots.foldl (fun p root => p.2.place A g root p.1) p
    upTo (k + extent (g.plainWidth []) (g.search p.2.seen roots).1) r.1 ∧
      Settled g (upTo last) p.2.columns r.2.columns (g.search p.2.seen roots).1.names := by
  induction roots generalizing k p with
  | nil =>
    rw [search_nil]
    exact ⟨hp, .refl hs⟩
  | cons root rest ih =>
    rw [List.foldl_cons]
    by_cases hroot : root ∈ p.2.seen
    · have hplace : p.2.place A g root p.1 = p := by
        rw [Assignment.place, search_cons_of_mem g hroot, search_nil]
        rfl
      rw [search_cons_of_mem g hroot] at hroom ⊢
      rw [hplace]
      exact ih hp hs hroom
    · rw [search_cons_of_not_mem g hroot] at hroom ⊢
      set below := g.search (root :: p.2.seen) (g.next root)
      have htree := placeTree_settled h (g := g) (s := p.2.columns)
        (.first root below.1 .nil) le_rfl hp
      set placed := placeTree A g (.first root below.1 .nil) p.1 p.2.columns
      have hplace : p.2.place A g root p.1 = (placed.1, ⟨placed.2, below.2⟩) := by
        rw [Assignment.place, search_cons_of_not_mem g hroot, search_nil]
      simp only [extent, Nat.add_zero, Forest.names, List.append_nil] at htree
      rw [extent] at hroom ⊢
      obtain ⟨hafter, htree⟩ := htree (by omega) hs
      have hrest := ih (p := (placed.1, ⟨placed.2, below.2⟩)) hafter htree.within
        (by rw [Nat.add_assoc]; exact hroom)
      rw [Nat.add_assoc] at hrest
      rw [hplace]
      exact ⟨hrest.1, htree.append hrest.2⟩

/-- The names that are left get columns after the others. -/
theorem exists_leftovers (names : List String) {p : Rat × Table Rat} (hp : upTo k p.1)
    (hcolumns : Within (upTo last) p.2)
    (hroom : k + (names.filter fun n => !p.2.contains n).length ≤ last + 1) {n : String}
    (hn : n ∈ p.2.names ∨ n ∈ names) :
    ∃ c, (names.foldl (fun (p : Rat × Table Rat) name =>
      if p.2.contains name then p else (past A p.1 1, p.2.insert name p.1)) p).2.get? n = some c
        ∧ upTo last c := by
  induction names generalizing k p with
  | nil =>
    obtain ⟨c, hc⟩ := Table.exists_get?_iff.mpr (hn.resolve_right List.not_mem_nil)
    exact ⟨c, hc, hcolumns n c hc⟩
  | cons name rest ih =>
    rw [List.foldl_cons]
    rw [List.filter_cons] at hroom
    split
    · rename_i hname
      rw [if_neg (by simp [hname])] at hroom
      apply ih hp hcolumns hroom
      rcases hn with hn | hn
      · exact .inl hn
      · rcases List.mem_cons.mp hn with rfl | hn
        · exact .inl (Table.contains_iff.mp hname)
        · exact .inr hn
    · rename_i hname
      rw [if_pos (by simpa using hname), List.length_cons] at hroom
      have hfirst : upTo last p.1 := h.mono (by omega) hp
      have hfewer : (rest.filter fun n => !(p.2.insert name p.1).contains n).length ≤
          (rest.filter fun n => !p.2.contains n).length := by
        rw [← List.countP_eq_length_filter, ← List.countP_eq_length_filter]
        apply List.countP_mono_left
        intro n _ hnot
        rw [Bool.not_eq_true', ← Bool.not_eq_true, Table.contains_iff] at hnot ⊢
        exact fun hm => hnot (Table.names_subset_insert _ _ _ hm)
      apply ih (h.past 1 hp (Nat.le_refl 1) (by omega)) (hcolumns.insert name hfirst)
        (le_trans (Nat.add_le_add_left hfewer (k + 1)) (by omega))
      have hnames := Table.names_insert p.2 name p.1
      grind

/-- Whatever the arrows are, every name gets a column within bounds, if the extent of the search and
the names that it does not meet fit into them. -/
theorem exists_columnsOf (names roots : List String)
    (hroom : extent (g.plainWidth []) (g.search [] roots).1 +
      (names.filter fun n => n ∉ (g.search [] roots).1.names).length ≤ last + 1) {n : String}
    (hn : n ∈ names) :
    ∃ c, (columnsOf A g names roots).get? n = some c ∧ upTo last c := by
  obtain ⟨hnext, hsettled⟩ := places_settled h roots (p := (0, {})) h.zero
    (.empty g (upTo last)) (by rw [Nat.zero_add]; exact (Nat.le_add_right _ _).trans hroom)
  rw [Nat.zero_add] at hnext
  refine exists_leftovers h names hnext hsettled.within.column ?_ (.inr hn)
  refine le_trans (Nat.add_le_add_left ?_ _) hroom
  rw [← List.countP_eq_length_filter, ← List.countP_eq_length_filter]
  apply List.countP_mono_left
  intro n _ hnot
  rw [Bool.not_eq_true', ← Bool.not_eq_true, Table.contains_iff] at hnot
  exact decide_eq_true fun hm => hnot (hsettled.placed hm)

end Placing

/-! ### Rounding within bounds -/

/-- A number between halves of whole numbers up to the limit is rounded to one between them, and
lies in the range of numbers. -/
structure KeepsBounds (A : Arithmetic) (limit : Nat) : Prop where
  /-- The rounding of results. -/
  round : ∀ {l m : Nat} {q : Rat}, m ≤ limit → q ∈ Icc ((l : Rat) / 2) (m / 2) →
    A.round q ∈ Icc ((l : Rat) / 2) (m / 2)
  /-- The range of numbers. -/
  inRange : ∀ {m : Nat} {q : Rat}, m ≤ limit → q ∈ Icc 0 ((m : Rat) / 2) → A.inRange q = true

/-- Exact arithmetic rounds nothing. -/
theorem keepsBounds_exact (limit : Nat) : KeepsBounds .exact limit := ⟨fun _ h => h, fun _ _ => rfl⟩

/-- With 53 bits halves below `2 ^ 52` are represented without loss. -/
theorem keepsBounds_binary64 : KeepsBounds .binary64 (2 ^ 53 - 1) where
  round := fun hm h => toBinary64_mem_halves (by omega) h.1 h.2
  inRange := by
    intro m q hm h
    refine inRange_binary64 (k := 53) (by norm_num) ?_
    have hbound : (m : Rat) ≤ 2 ^ 53 := by exact_mod_cast (by omega : m ≤ 2 ^ 53)
    rw [abs_of_nonneg h.1]
    linarith [h.2]

namespace KeepsBounds

variable {l m : Nat} {q : Rat}

/-- Twice a number in halves is the number. -/
theorem two_mul_div_two (n : Nat) : ((2 * n : Nat) : Rat) / 2 = n := by
  push_cast
  ring

/-- A number between whole numbers is rounded to one between them. -/
theorem round_whole (h : KeepsBounds A limit) (hm : 2 * m ≤ limit) (hq : q ∈ Icc (l : Rat) m) :
    A.round q ∈ Icc (l : Rat) m := by
  have hround := h.round (l := 2 * l) (q := q) hm
  rw [two_mul_div_two, two_mul_div_two] at hround
  exact hround hq

/-- A number that is not negative stays so. -/
theorem round_mem (h : KeepsBounds A limit) (hm : 2 * m ≤ limit) (hq : q ∈ Icc (0 : Rat) m) :
    A.round q ∈ Icc (0 : Rat) m := by
  have hround := h.round_whole (l := 0) (q := q) hm
  rw [Nat.cast_zero] at hround
  exact hround hq

variable (h : KeepsBounds A limit) (hlimit : 4 * (last + 1) ≤ limit)
include h hlimit

/-- The middle of columns lies among them. -/
theorem middle_mem {width : Nat} (hstart : start ∈ Icc (0 : Rat) k) (hwidth : 1 ≤ width)
    (hroom : k + width ≤ last + 1) : middle A start width ∈ Icc (0 : Rat) last := by
  obtain ⟨v, rfl⟩ := Nat.exists_eq_add_of_le' hwidth
  have hround := h.round_mem (by omega) hstart
  have hhalf : A.div (((v + 1 : Nat) : Rat) - 1) 2 ∈ Icc (0 : Rat) v := by
    apply h.round_mem (by omega)
    have hv : (0 : Rat) ≤ v := Nat.cast_nonneg v
    rw [Nat.cast_add_one, add_sub_cancel_right]
    constructor <;> linarith
  apply h.round_mem (by omega)
  have hlast : (k : Rat) + v ≤ last := by exact_mod_cast (by omega : k + v ≤ last)
  exact ⟨add_nonneg hround.1 hhalf.1, (add_le_add hround.2 hhalf.2).trans hlast⟩

/-- The column after some columns comes after no more than these. -/
theorem past_mem {width : Nat} (size : Nat) (hstart : start ∈ Icc (0 : Rat) k)
    (hwidth : width ≤ size) (hroom : k + size ≤ last + 1) :
    past A start width ∈ Icc (0 : Rat) (k + size : Nat) := by
  have hsize : A.ofInt width ∈ Icc (0 : Rat) size := by
    apply h.round_mem (by omega)
    have hpos : 0 ≤ (width : Rat) := Nat.cast_nonneg width
    exact ⟨by exact_mod_cast hpos, by exact_mod_cast hwidth⟩
  apply h.round_mem (by omega)
  rw [Nat.cast_add]
  exact ⟨add_nonneg hstart.1 hsize.1, add_le_add hstart.2 hsize.2⟩

/-- The middle between columns lies within bounds like these. -/
theorem between_mem {centers : List Rat} (hstart : start ∈ Icc (0 : Rat) last)
    (hcenters : ∀ c ∈ centers, c ∈ Icc (0 : Rat) last) :
    between A centers start ∈ Icc (0 : Rat) last := by
  cases centers with
  | nil => exact hstart
  | cons q qs =>
    have hl := hcenters _ (least_mem q qs)
    have hg := hcenters _ (greatest_mem q qs)
    have hsum : A.add (least q qs) (greatest q qs) ∈ Icc (0 : Rat) (2 * last : Nat) := by
      apply h.round_mem (by omega)
      rw [Nat.cast_mul, Nat.cast_two, two_mul]
      exact ⟨add_nonneg hl.1 hg.1, add_le_add hl.2 hg.2⟩
    apply h.round_mem (by omega)
    rw [Nat.cast_mul, Nat.cast_two] at hsum
    constructor <;> linarith [hsum.1, hsum.2]

/-- Rounding within bounds keeps columns within bounds. -/
theorem confines : Confines A last fun m q => q ∈ Icc (0 : Rat) m where
  zero := by simp
  mono := fun hle hq => ⟨hq.1, hq.2.trans (by exact_mod_cast hle)⟩
  middle := h.middle_mem hlimit
  past := h.past_mem hlimit
  between := h.between_mem hlimit

end KeepsBounds

/-- No number is rounded below zero. -/
structure KeepsSign (A : Arithmetic) : Prop where
  /-- The rounding of results. -/
  round : ∀ {q : Rat}, 0 ≤ q → 0 ≤ A.round q

/-- Exact arithmetic rounds nothing. -/
theorem keepsSign_exact : KeepsSign .exact := ⟨id⟩

/-- Rounding to 53 bits keeps zero, and what is above it does not come below it. -/
theorem keepsSign_binary64 : KeepsSign .binary64 := ⟨toBinary64_nonneg⟩

/-- Then no column lies before the first one, wherever the last one is. -/
theorem KeepsSign.confines (h : KeepsSign A) (last : Nat) : Confines A last fun _ q => 0 ≤ q where
  zero := le_rfl
  mono := fun _ hq => hq
  middle := by
    intro k width start hstart hwidth _
    have hone : (1 : Rat) ≤ width := by exact_mod_cast hwidth
    exact h.round (add_nonneg (h.round hstart) (h.round (by linarith)))
  past := fun {_ width _} _ hstart _ _ => by
    have hwidth : 0 ≤ A.ofInt width := h.round (by exact_mod_cast Nat.zero_le width)
    exact h.round (add_nonneg hstart hwidth)
  between := by
    intro centers start hstart hcenters
    cases centers with
    | nil => exact hstart
    | cons q qs =>
      have hsum := h.round (add_nonneg (hcenters _ (least_mem q qs)) (hcenters _ (greatest_mem q qs)))
      exact h.round (div_nonneg hsum (by norm_num))

/-- Every name has a level and a column, and no column lies before the first one. -/
theorem exists_ranks (h : KeepsSign A) (names : List String) (edges : Digraph) {n : String}
    (hn : n ∈ names) :
    (∃ l, (ranks A names edges).levels.get? n = some l) ∧
      ∃ c, (ranks A names edges).columns.get? n = some c ∧ 0 ≤ c :=
  ⟨exists_levels _ names _ hn, exists_columnsOf (h.confines _) names _ (Nat.le_succ _) hn⟩

/-! ### Boxes -/

/-- What lies between grid lines does so on the grid. -/
theorem KeepsBounds.snap_mem (h : KeepsBounds A limit) {l m : Nat} (hm : 2 * m + 1 ≤ limit) {q : Rat}
    (hq : q ∈ Icc (10 * l : Rat) (10 * m)) : 10 * l ≤ snap A q ∧ snap A q ≤ 10 * m := by
  have htenth : A.div q grid ∈ Icc (l : Rat) m := by
    have hgrid : ((grid : Int) : Rat) = 10 := rfl
    apply h.round_whole (by omega)
    rw [hgrid]
    constructor <;> linarith [hq.1, hq.2]
  have hhalf : A.add (A.div q grid) (1 / 2) ∈
      Icc (((2 * l + 1 : Nat) : Rat) / 2) ((2 * m + 1 : Nat) / 2) := by
    apply h.round hm
    push_cast
    constructor <;> linarith [htenth.1, htenth.2]
  push_cast at hhalf
  have hlow : (l : Int) ≤ A.nearest (A.div q grid) := by
    apply Rat.le_floor_iff.mpr
    push_cast
    linarith [hhalf.1]
  have hhigh : A.nearest (A.div q grid) < (m : Int) + 1 := by
    apply Rat.floor_lt_iff.mpr
    push_cast
    linarith [hhalf.2]
  have hsnap : snap A q = A.nearest (A.div q grid) * 10 := rfl
  omega

/-- A column within bounds is not further from the first column than the last one. -/
theorem KeepsBounds.mul_gap_mem (h : KeepsBounds A limit) (gap : Nat)
    (hlimit : 20 * (last * gap) ≤ limit) {column : Rat} (hcolumn : column ∈ Icc (0 : Rat) last) :
    A.mul column ((10 * gap : Nat) : Int) ∈ Icc (0 : Rat) (10 * (last * gap) : Nat) := by
  have hgap : (0 : Rat) ≤ (10 * gap : Nat) := Nat.cast_nonneg _
  have hlow := mul_nonneg hcolumn.1 hgap
  have hhigh := mul_le_mul_of_nonneg_right hcolumn.2 hgap
  apply h.round_mem (by omega)
  push_cast at hlow hhigh ⊢
  constructor <;> linarith

/-- So it lies in the range of numbers. -/
theorem KeepsBounds.inRange_mul_gap (h : KeepsBounds A limit) (hlimit : 400 * (last + 1) ≤ limit)
    (o : Orientation) {column : Rat} (hcolumn : column ∈ Icc (0 : Rat) last) :
    A.inRange (A.mul column o.columnGap) = true := by
  have hin : ∀ gap : Nat, gap ≤ 20 → A.inRange (A.mul column ((10 * gap : Nat) : Int)) = true := by
    intro gap hgap
    have hle := Nat.mul_le_mul_left last hgap
    refine h.inRange (m := 20 * (last * gap)) (by omega) ?_
    have hmem := h.mul_gap_mem gap (by omega) hcolumn
    push_cast at hmem ⊢
    exact ⟨hmem.1, hmem.2.trans_eq (by ring)⟩
  unfold Orientation.columnGap
  split
  · exact hin 9 (by norm_num)
  · exact hin 20 (by norm_num)

/-- A column within bounds lies between the edge and the last column. -/
theorem KeepsBounds.snap_across_mem (h : KeepsBounds A limit) (edge gap : Nat)
    (hlimit : 20 * (edge + last * gap) + 1 ≤ limit) {column : Rat}
    (hcolumn : column ∈ Icc (0 : Rat) last) :
    10 * edge ≤ snap A (across A (10 * edge : Nat) (10 * gap : Nat) column) ∧
      snap A (across A (10 * edge : Nat) (10 * gap : Nat) column) ≤
        10 * (edge + last * gap : Nat) := by
  have hdistance := h.mul_gap_mem gap (by omega) hcolumn
  have hplace := h.round_whole (l := 10 * edge) (m := 10 * (edge + last * gap))
    (q := ((10 * edge : Nat) : Int) + A.mul column ((10 * gap : Nat) : Int)) (by omega) (by
      push_cast at hdistance ⊢
      constructor <;> linarith [hdistance.1, hdistance.2])
  rw [Nat.cast_mul, Nat.cast_mul] at hplace
  exact h.snap_mem (by omega) hplace

/-- A place in a column within bounds lies within bounds across the direction. -/
theorem KeepsBounds.point_mem (h : KeepsBounds A limit) (hlimit : 400 * (last + 1) ≤ limit)
    (o : Orientation) (level : Nat) {column : Rat} (hcolumn : column ∈ Icc (0 : Rat) last) :
    if o.horizontal then
      40 ≤ (o.point A level column).2 ∧ (o.point A level column).2 ≤ 40 + 90 * last
    else 100 ≤ (o.point A level column).1 ∧ (o.point A level column).1 ≤ 100 + 200 * last := by
  unfold Orientation.point
  split
  · obtain ⟨hlow, hhigh⟩ := h.snap_across_mem 4 9 (by omega) hcolumn
    push_cast at hhigh
    exact ⟨hlow, hhigh.trans (by omega)⟩
  · obtain ⟨hlow, hhigh⟩ := h.snap_across_mem 10 20 (by omega) hcolumn
    push_cast at hhigh
    exact ⟨hlow, hhigh.trans (by omega)⟩

/-- A place in a column that is not before the first one does not lie before the origin. -/
theorem point_after_origin (o : Orientation) (level : Nat) {column : Rat} (h : 0 ≤ column) :
    if o.horizontal then 40 ≤ (o.point .exact level column).2
    else 100 ≤ (o.point .exact level column).1 := by
  obtain ⟨last, hlast⟩ := exists_nat_ge column
  have hpoint := (keepsBounds_exact _).point_mem le_rfl o level ⟨h, hlast⟩
  split <;> rename_i horizontal
  · rw [if_pos horizontal] at hpoint
    exact hpoint.1
  · rw [if_neg horizontal] at hpoint
    exact hpoint.1

end Diagrams.Layout
