import Diagrams.Layout.Columns
import Diagrams.Proofs.Graph.Search
import Diagrams.Proofs.Graph.Widths
import Mathlib.Algebra.Order.Field.Rat
import Mathlib.Tactic.Linarith

/-!
# Columns of an acyclic graph

**Main statement** (`columnsOf_spaced`): in an acyclic graph in which no two roots reach a common
name, two names of the same rank get columns that are at least one apart. A rank is any number that
grows along arrows; levels are one.

The columns reserved for a name hold the columns of all names met below it, and the columns reserved
for two names side by side do not meet. `Spaced` says this of the names of a forest together with
the stretch of columns that they take; what stands in stretches side by side is put together by
`Spaced.append`, and a name is put over the names below it, which have higher ranks, by
`Spaced.cons`. Names that are met again need care only where a name is centred over them: they must
have been placed in the same stretch (`spread_placed`).
-/

namespace Diagrams.Layout

open Number Diagrams.Digraph

variable {g : Digraph} {rank w : String → Nat}

/-! ### Stretches of columns -/

/-- The names have columns in a stretch, and those of the same rank are one column apart. -/
structure Spaced (rank : String → Nat) (columns : Table Rat) (lo hi : Rat) (names : List String) :
    Prop where
  /-- Every name has a column in the stretch. -/
  within : ∀ n ∈ names, ∃ c, columns.get? n = some c ∧ lo ≤ c ∧ c + 1 ≤ hi
  /-- Names of the same rank are one column apart. -/
  apart : ∀ m ∈ names, ∀ n ∈ names, m ≠ n → rank m = rank n →
    ∀ c d, columns.get? m = some c → columns.get? n = some d → c + 1 ≤ d ∨ d + 1 ≤ c

namespace Spaced

variable {columns columns' : Table Rat} {lo mid hi lo' hi' c : Rat} {name : String}
  {names names' : List String}

/-- Without names there is nothing to space. -/
theorem nil (rank : String → Nat) (columns : Table Rat) (lo hi : Rat) :
    Spaced rank columns lo hi [] where
  within := fun _ h => absurd h List.not_mem_nil
  apart := fun _ h => absurd h List.not_mem_nil

/-- Names that are spaced in a stretch are so in a wider one. -/
theorem mono (h : Spaced rank columns lo hi names) (hlo : lo' ≤ lo) (hhi : hi ≤ hi') :
    Spaced rank columns lo' hi' names where
  within := by
    intro n hn
    obtain ⟨c, hc, hl, hh⟩ := h.within n hn
    exact ⟨c, hc, hlo.trans hl, hh.trans hhi⟩
  apart := h.apart

/-- Some of the names are spaced like all of them. -/
theorem subset (h : Spaced rank columns lo hi names) (hs : names' ⊆ names) :
    Spaced rank columns lo hi names' where
  within := fun n hn => h.within n (hs hn)
  apart := fun m hm n hn => h.apart m (hs hm) n (hs hn)

/-- Only the columns of the names matter. -/
theorem congr (h : Spaced rank columns lo hi names)
    (hc : ∀ n ∈ names, columns'.get? n = columns.get? n) : Spaced rank columns' lo hi names where
  within := by
    intro n hn
    rw [hc n hn]
    exact h.within n hn
  apart := by
    intro m hm n hn
    rw [hc m hm, hc n hn]
    exact h.apart m hm n hn

/-- Stretches side by side. -/
theorem append (h : Spaced rank columns lo mid names) (h' : Spaced rank columns mid hi names')
    (hlo : lo ≤ mid) (hhi : mid ≤ hi) : Spaced rank columns lo hi (names ++ names') where
  within := by
    intro n hn
    rcases List.mem_append.mp hn with hn | hn
    · exact (h.mono le_rfl hhi).within n hn
    · exact (h'.mono hlo le_rfl).within n hn
  apart := by
    have hcross : ∀ m ∈ names, ∀ n ∈ names', ∀ c d,
        columns.get? m = some c → columns.get? n = some d → c + 1 ≤ d := by
      intro m hm n hn c d hc hd
      obtain ⟨c', hc', _, hmid⟩ := h.within m hm
      obtain ⟨d', hd', hmid', _⟩ := h'.within n hn
      rw [hc] at hc'
      rw [hd] at hd'
      cases hc'
      cases hd'
      exact hmid.trans hmid'
    intro m hm n hn hmn hr c d hc hd
    rcases List.mem_append.mp hm with hm | hm <;> rcases List.mem_append.mp hn with hn | hn
    · exact h.apart m hm n hn hmn hr c d hc hd
    · exact .inl (hcross m hm n hn c d hc hd)
    · exact .inr (hcross n hn m hm d c hd hc)
    · exact h'.apart m hm n hn hmn hr c d hc hd

/-- A name over names of higher rank. -/
theorem cons (h : Spaced rank columns lo hi names) (hc : columns.get? name = some c)
    (hlo : lo ≤ c) (hhi : c + 1 ≤ hi) (hr : ∀ n ∈ names, rank name < rank n) :
    Spaced rank columns lo hi (name :: names) where
  within := by
    intro n hn
    rcases List.mem_cons.mp hn with rfl | hn
    · exact ⟨c, hc, hlo, hhi⟩
    · exact h.within n hn
  apart := by
    intro m hm n hn hmn hmr
    rcases List.mem_cons.mp hm with rfl | hm' <;> rcases List.mem_cons.mp hn with rfl | hn'
    · exact absurd rfl hmn
    · exact absurd hmr (hr n hn').ne
    · exact absurd hmr (hr m hm').ne'
    · exact h.apart m hm' n hn' hmn hmr

/-- A name with a column of its own after the stretch. -/
theorem insert (h : Spaced rank columns lo hi names) (hlo : lo ≤ hi) (hn : name ∉ names) :
    Spaced rank (columns.insert name hi) lo (hi + 1) (names ++ [name]) := by
  refine append (h.congr fun n hm => ?_) ⟨fun n hm => ?_, fun m hm n hm' hmn => ?_⟩ hlo (by linarith)
  · rw [Table.get?_insert, if_neg fun hc : name = n => hn (hc ▸ hm)]
  · rw [List.mem_singleton.mp hm, Table.get?_insert, if_pos rfl]
    exact ⟨hi, rfl, le_rfl, le_rfl⟩
  · exact absurd ((List.mem_singleton.mp hm).trans (List.mem_singleton.mp hm').symm) hmn

end Spaced

/-! ### Placing below a name -/

/-- What has come of placing names in a stretch: they are spaced, the other names have kept their
columns, and the widths in memory are right. -/
structure Placed (rank w : String → Nat) (before after : Columns) (lo hi : Rat)
    (names : List String) : Prop where
  /-- The names are spaced. -/
  spaced : Spaced rank after.column lo hi names
  /-- The other columns are as before. -/
  kept : ∀ n, n ∉ names → after.column.get? n = before.column.get? n
  /-- The memory holds widths. -/
  remembers : Remembers w (some after.widths)

/-- What holds of the memory after a look-up holds of the widths that are kept. -/
theorem Columns.widths_width {P : Option (Table Nat) → Prop} {s : Columns} {name : String}
    (hs : P (some s.widths)) (h : P (g.width [] (some s.widths) name).2) :
    P (some (s.width g name).2.widths) := by
  unfold Columns.width
  cases hm : (g.width [] (some s.widths) name).2 with
  | none => simpa [hm] using hs
  | some t => simpa [hm] using hm ▸ h

/-- The width that is looked up is the right one, and looking it up moves no column. -/
theorem Columns.width_eq (hg : g.IsAcyclic) (hw : g.IsWidth w) {s : Columns}
    (hs : Remembers w (some s.widths)) (name : String) :
    (s.width g name).1 = w name ∧ (s.width g name).2.column = s.column ∧
      Remembers w (some (s.width g name).2.widths) := by
  obtain ⟨hwidth, hmemory⟩ := hg.width_eq hw hs name
  exact ⟨hwidth, rfl, Columns.widths_width hs hmemory⟩

/-- A column that is set is found among the columns. -/
@[simp] theorem Columns.column_set (s : Columns) (name : String) (c : Rat) :
    (s.set name c).column = s.column.insert name c := rfl

/-- Setting a column leaves the widths as they are. -/
@[simp] theorem Columns.widths_set (s : Columns) (name : String) (c : Rat) :
    (s.set name c).widths = s.widths := rfl

namespace Placed

variable {s s₁ s₂ : Columns} {lo mid hi hi' c : Rat} {name : String} {names names' : List String}

/-- Names that are placed one stretch after the other. -/
theorem append (h : Placed rank w s s₁ lo mid names) (h' : Placed rank w s₁ s₂ mid hi names')
    (hlo : lo ≤ mid) (hhi : mid ≤ hi) (hdisjoint : ∀ n ∈ names, n ∉ names') :
    Placed rank w s s₂ lo hi (names ++ names') where
  spaced := (h.spaced.congr fun n hn => h'.kept n (hdisjoint n hn)).append h'.spaced hlo hhi
  kept := by
    intro n hn
    rw [List.mem_append, not_or] at hn
    rw [h'.kept n hn.2, h.kept n hn.1]
  remembers := h'.remembers

/-- A name that is placed before the names below it. -/
theorem cons (hs : s₁.column = s.column.insert name c) (h : Placed rank w s₁ s₂ lo hi names)
    (hlo : lo ≤ c) (hhi : c + 1 ≤ hi') (hhi' : hi ≤ hi') (hn : name ∉ names)
    (hr : ∀ n ∈ names, rank name < rank n) : Placed rank w s s₂ lo hi' (name :: names) where
  spaced := by
    have hc : s₂.column.get? name = some c := by
      rw [h.kept name hn, hs, Table.get?_insert, if_pos rfl]
    exact (h.spaced.mono le_rfl hhi').cons hc hlo hhi hr
  kept := by
    intro n hm
    rw [List.mem_cons, not_or] at hm
    rw [h.kept n hm.2, hs, Table.get?_insert, if_neg (Ne.symm hm.1)]
  remembers := h.remembers

/-- A name that is placed after the names below it. -/
theorem set (h : Placed rank w s s₁ lo hi names) (hlo : lo ≤ c) (hhi : c + 1 ≤ hi)
    (hn : name ∉ names) (hr : ∀ n ∈ names, rank name < rank n) :
    Placed rank w s (s₁.set name c) lo hi (name :: names) where
  spaced := by
    refine (h.spaced.congr fun n hm => ?_).cons ?_ hlo hhi hr
    · rw [Columns.column_set, Table.get?_insert, if_neg fun hc : name = n => hn (hc ▸ hm)]
    · rw [Columns.column_set, Table.get?_insert, if_pos rfl]
  kept := by
    intro n hm
    rw [List.mem_cons, not_or] at hm
    rw [Columns.column_set, Table.get?_insert, if_neg (Ne.symm hm.1), h.kept n hm.2]
  remembers := h.remembers

end Placed

/-- Without rounding, the middle of some columns. -/
theorem middle_exact (start : Rat) (width : Nat) :
    middle .exact start width = start + ((width : Rat) - 1) / 2 := rfl

/-- Without rounding, the column after some columns. -/
theorem past_exact (start : Rat) (width : Nat) : past .exact start width = start + width := rfl

/-- The names below a new name are placed in its stretch, and it is placed over their middle. -/
theorem first_placed (hg : g.IsAcyclic) (hrank : g.Rises rank) (hw : g.IsWidth w)
    {seen seen₁ : List String} {b : String} {below : Forest}
    (hbelow : g.Meets (b :: seen) (g.next b) below seen₁) (start : Rat) {s s₂ : Columns}
    (hs : Remembers w (some s.widths))
    (h : Placed rank w ((s.width g b).2.set b (middle .exact start (w b))) s₂ start
      (start + ((g.next b).map w).sum) below.names) :
    Placed rank w s s₂ start (start + w b) (b :: below.names) := by
  obtain ⟨_, hcolumn, _⟩ := Columns.width_eq hg hw hs b
  have hpos : (1 : Rat) ≤ w b := by exact_mod_cast hw.pos b
  have hsum : (((g.next b).map w).sum : Rat) ≤ w b := by exact_mod_cast hw.sum_next_le b
  refine Placed.cons (by rw [Columns.column_set, hcolumn]) h ?_ ?_ (by linarith) ?_ ?_
  · rw [middle_exact]
    linarith
  · rw [middle_exact]
    linarith
  · exact fun hm => hbelow.not_mem_of_mem_names hm List.mem_cons_self
  · exact fun n hn => hbelow.lt_of_mem_names hrank (fun c hc => hrank hc) hn

/-- Below a name, every new name is placed in the stretch that is as wide as the targets. -/
theorem placeBelow_placed (hg : g.IsAcyclic) (hrank : g.Rises rank) (hw : g.IsWidth w)
    {seen seen' targets : List String} {f : Forest} (h : g.Meets seen targets f seen')
    (start : Rat) (s : Columns) (hs : Remembers w (some s.widths)) :
    Placed rank w s (placeBelow .exact g f start s) start (start + (targets.map w).sum) f.names := by
  induction h generalizing start s with
  | nil =>
    exact ⟨Spaced.nil _ _ _ _, fun _ _ => rfl, hs⟩
  | @again seen seen' b rest f hb hrest ih =>
    have hplaced := ih start s hs
    have hpos : (0 : Rat) ≤ w b := by exact_mod_cast Nat.zero_le _
    rw [placeBelow, Forest.names]
    refine ⟨hplaced.spaced.mono le_rfl ?_, hplaced.kept, hplaced.remembers⟩
    rw [List.map_cons, List.sum_cons, Nat.cast_add]
    linarith
  | @first seen seen₁ seen' b rest below f hb hbelow hrest ihBelow ihRest =>
    obtain ⟨hwidth, _, hmemory⟩ := Columns.width_eq hg hw hs b
    have hbelow' := first_placed hg hrank hw hbelow start hs (ihBelow start _ hmemory)
    have hrest' := ihRest (start + w b) _ hbelow'.remembers
    have hsum : (0 : Rat) ≤ (rest.map w).sum := by exact_mod_cast Nat.zero_le _
    have hpos : (0 : Rat) ≤ w b := by exact_mod_cast Nat.zero_le _
    simp only [placeBelow, hwidth, past_exact, Forest.names]
    rw [List.map_cons, List.sum_cons, Nat.cast_add, ← add_assoc]
    refine hbelow'.append hrest' (by linarith) (by linarith) ?_
    intro n hn hn'
    refine hrest.not_mem_of_mem_names hn' (hbelow.mem_seen_iff.mpr ?_)
    rcases List.mem_cons.mp hn with rfl | hn
    · exact .inl List.mem_cons_self
    · exact .inr hn

/-! ### Placing a root -/

/-- Numbers of which one is chosen step by step contain the one that is chosen. -/
theorem foldl_ite_mem (prefers : Rat → Rat → Prop) [DecidableRel prefers] (q : Rat)
    (qs : List Rat) : qs.foldl (fun m r => if prefers r m then r else m) q ∈ q :: qs := by
  refine List.foldlRecOn (motive := fun m : Rat => m ∈ q :: qs) qs _ List.mem_cons_self ?_
  intro m hm r hr
  split
  · exact List.mem_cons_of_mem q hr
  · exact hm

/-- The least of some numbers is one of them. -/
theorem least_mem (q : Rat) (qs : List Rat) : least q qs ∈ q :: qs := foldl_ite_mem (· < ·) q qs

/-- The greatest of some numbers is one of them. -/
theorem greatest_mem (q : Rat) (qs : List Rat) : greatest q qs ∈ q :: qs :=
  foldl_ite_mem (· > ·) q qs

/-- The middle between columns lies in every stretch in which they lie. -/
theorem between_bounds {centers : List Rat} {start lo hi : Rat} (hlo : lo ≤ start)
    (hhi : start ≤ hi) (h : ∀ c ∈ centers, lo ≤ c ∧ c ≤ hi) :
    lo ≤ between .exact centers start ∧ between .exact centers start ≤ hi := by
  cases centers with
  | nil => exact ⟨hlo, hhi⟩
  | cons q qs =>
    have hl := h _ (least_mem q qs)
    have hg := h _ (greatest_mem q qs)
    show lo ≤ (least q qs + greatest q qs) / 2 ∧ (least q qs + greatest q qs) / 2 ≤ hi
    constructor <;> linarith

/-- What is known of the names that a search may meet again: unless another root has reached them,
they have no column yet or one in the stretch. -/
def Recent (old : List String) (columns : Table Rat) (lo hi : Rat) (seen : List String) : Prop :=
  ∀ n ∈ seen, n ∉ old → ∀ c, columns.get? n = some c → lo ≤ c ∧ c + 1 ≤ hi

/-- The branches of a name are placed side by side, and the columns over which the name is centred
lie in the stretch that they take. -/
theorem spread_placed (hg : g.IsAcyclic) (hrank : g.Rises rank) (hw : g.IsWidth w)
    (old : List String) {seen seen' targets : List String} {f : Forest}
    (h : g.Meets seen targets f seen') {lo : Rat} (start : Rat) (s : Columns)
    (hs : Remembers w (some s.widths)) (hlo : lo ≤ start)
    (hseen : Recent old s.column lo start seen) (htargets : ∀ b ∈ targets, b ∉ old) :
    let r := spread .exact g f start s
    Placed rank w s r.2.2 start r.1 f.names ∧ start ≤ r.1 ∧
      ∀ c ∈ r.2.1, lo ≤ c ∧ c + 1 ≤ r.1 := by
  induction h generalizing start s with
  | nil =>
    exact ⟨⟨Spaced.nil _ _ _ _, fun _ _ => rfl, hs⟩, le_rfl, fun _ hc => absurd hc List.not_mem_nil⟩
  | @again seen seen' b rest f hb hrest ih =>
    obtain ⟨hplaced, hle, hcenters⟩ :=
      ih start s hs hlo hseen fun c hc => htargets c (List.mem_cons_of_mem b hc)
    simp only [spread, Forest.names]
    refine ⟨hplaced, hle, fun c hc => ?_⟩
    rcases List.mem_append.mp hc with hc | hc
    · have hbc : s.column.get? b = some c := by simpa using hc
      obtain ⟨hl, hh⟩ := hseen b hb (htargets b List.mem_cons_self) c hbc
      exact ⟨hl, hh.trans hle⟩
    · exact hcenters c hc
  | @first seen seen₁ seen' b rest below f hb hbelow hrest ihBelow ihRest =>
    clear ihBelow
    obtain ⟨hwidth, _, hmemory⟩ := Columns.width_eq hg hw hs b
    have hpos : (0 : Rat) ≤ w b := by exact_mod_cast Nat.zero_le _
    have hplaced := first_placed hg hrank hw hbelow start hs
      (placeBelow_placed hg hrank hw hbelow start _ hmemory)
    -- what has been placed just now is recent as well
    have hrecent : Recent old (placeBelow .exact g below start
        ((s.width g b).2.set b (middle .exact start (w b)))).column lo (start + w b) seen₁ := by
      intro n hn hold c hc
      by_cases hm : n ∈ b :: below.names
      · obtain ⟨c', hc', hl, hh⟩ := hplaced.spaced.within n hm
        rw [hc] at hc'
        cases hc'
        exact ⟨hlo.trans hl, hh⟩
      · have hns : n ∈ seen := by
          rcases hbelow.mem_seen_iff.mp hn with hn | hn
          · rcases List.mem_cons.mp hn with rfl | hn
            · exact absurd List.mem_cons_self hm
            · exact hn
          · exact absurd (List.mem_cons_of_mem b hn) hm
        rw [hplaced.kept n hm] at hc
        obtain ⟨hl, hh⟩ := hseen n hns hold c hc
        exact ⟨hl, by linarith⟩
    obtain ⟨hrest', hle, hcenters⟩ := ihRest (start + w b) _ hplaced.remembers (by linarith) hrecent
      fun c hc => htargets c (List.mem_cons_of_mem b hc)
    simp only [spread, hwidth, past_exact, Forest.names]
    refine ⟨hplaced.append hrest' (by linarith) hle ?_, by linarith, ?_⟩
    · intro n hn hn'
      refine hrest.not_mem_of_mem_names hn' (hbelow.mem_seen_iff.mpr ?_)
      rcases List.mem_cons.mp hn with rfl | hn
      · exact .inl List.mem_cons_self
      · exact .inr hn
    · intro c hc
      rcases List.mem_cons.mp hc with rfl | hc
      · have hone : (1 : Rat) ≤ w b := by exact_mod_cast hw.pos b
        obtain ⟨hl, hh⟩ : start ≤ middle .exact start (w b) ∧
            middle .exact start (w b) + 1 ≤ start + w b := by
          rw [middle_exact]
          constructor <;> linarith
        exact ⟨hlo.trans hl, hh.trans hle⟩
      · exact hcenters c hc

/-- A name that leads nowhere takes the first column of its stretch. -/
theorem leaf_placed (b : String) {s : Columns} (hs : Remembers w (some s.widths)) {start hi : Rat}
    (hhi : start + 1 ≤ hi) : Placed rank w s (s.set b start) start hi [b] := by
  refine ⟨?_, fun n hn => ?_, hs⟩
  · refine (Spaced.nil rank _ _ _).cons (c := start) ?_ le_rfl hhi
      fun _ hn => absurd hn List.not_mem_nil
    rw [Columns.column_set, Table.get?_insert, if_pos rfl]
  · rw [Columns.column_set, Table.get?_insert,
      if_neg fun hbn : b = n => hn (hbn ▸ List.mem_singleton_self b)]

/-- A root and everything below it are placed in a stretch of at least one column. Of the names seen
before, `old` are those that other roots have reached; the others are on the way to the root. -/
theorem placeTree_placed (hg : g.IsAcyclic) (hrank : g.Rises rank) (hw : g.IsWidth w)
    (old : List String) (f : Forest) {seen seen' : List String} {b : String}
    (h : g.Meets seen [b] f seen') (hb : b ∉ seen) (hold : ∀ n, g.Reaches b n → n ∉ old)
    (hseen : ∀ n ∈ seen, n ∉ old → rank n < rank b) (start : Rat) (s : Columns)
    (hs : Remembers w (some s.widths)) (hfree : ∀ n, n ∉ old → s.column.get? n = none) :
    let r := placeTree .exact g f start s
    Placed rank w s r.2 start r.1 f.names ∧ start + 1 ≤ r.1 := by
  induction f generalizing seen seen' b with
  | nil => cases h
  | again name rest ihRest =>
    cases h with
    | again hname _ => exact absurd hname hb
  | first name below rest ihBelow ihRest =>
    obtain ⟨below', hf, hbelow⟩ := h.singleton hb
    obtain ⟨hname, rfl, rfl⟩ := Forest.first.inj hf
    obtain rfl := hname.symm
    have hheads : below.heads = g.next b := hbelow.heads_eq
    have hnot : b ∉ below.names := fun hm => hbelow.not_mem_of_mem_names hm List.mem_cons_self
    have hrise : ∀ n ∈ below.names, rank b < rank n := fun n hn =>
      hbelow.lt_of_mem_names hrank (fun c hc => hrank hc) hn
    -- a name that `b` leads to is new, so it is met for the first time below `b`
    have hnew : ∀ c ∈ g.next b, c ∉ b :: seen := by
      intro c hc hm
      have hlt : rank b < rank c := hrank hc
      rcases List.mem_cons.mp hm with rfl | hm
      · exact hlt.false
      · exact (hseen c hm (hold c (.single hc))).not_gt hlt
    have hseen' : ∀ c ∈ g.next b, ∀ n ∈ b :: seen, n ∉ old → rank n < rank c := by
      intro c hc n hn hno
      have hlt : rank b < rank c := hrank hc
      rcases List.mem_cons.mp hn with rfl | hn
      · exact hlt
      · exact (hseen n hn hno).trans hlt
    have hheld : ∀ c ∈ g.next b, ∀ n, g.Reaches c n → n ∉ old := fun c hc n hn =>
      hold n (.head hc hn)
    simp only [Forest.names, List.append_nil]
    rcases hnext : g.next b with _ | ⟨c, _ | ⟨d, more⟩⟩
    · -- the name leads nowhere
      rw [hnext] at hbelow hheads
      cases hbelow
      simp only [placeTree, Forest.heads, Forest.names, past_exact]
      exact ⟨leaf_placed b hs (by norm_num), by norm_num⟩
    · -- the name leads to one other and takes its column
      have hc : c ∈ g.next b := by simp [hnext]
      rw [hnext] at hbelow hheads
      obtain ⟨hplaced, hle⟩ :=
        ihBelow hbelow (hnew c hc) (hheld c hc) (hseen' c hc)
      simp only [placeTree, hheads]
      have hmem : c ∈ below.names :=
        hbelow.mem_names_of_mem_targets List.mem_cons_self (hnew c hc)
      obtain ⟨col, hcol, hl, hh⟩ := hplaced.spaced.within c hmem
      have hgetD : (placeTree .exact g below start s).2.column.getD c start = col := by
        rw [Table.getD, hcol, Option.getD_some]
      rw [hgetD]
      exact ⟨hplaced.set hl hh hnot hrise, hle⟩
    · -- the name stands over the middle of its branches
      have hc : c ∈ g.next b := by simp [hnext]
      obtain ⟨hplaced, hle, hcenters⟩ := spread_placed hg hrank hw old hbelow start s hs
        (le_refl start)
        (fun n _ hno col hcol => by rw [hfree n hno] at hcol; cases hcol)
        (fun e he => hold e (.single he))
      rw [hnext] at hbelow hheads
      simp only [placeTree, hheads]
      have hmem : c ∈ below.names :=
        hbelow.mem_names_of_mem_targets List.mem_cons_self (hnew c hc)
      obtain ⟨col, _, hl, hh⟩ := hplaced.spaced.within c hmem
      have hbounds : ∀ e ∈ (spread .exact g below start s).2.1,
          start ≤ e ∧ e ≤ (spread .exact g below start s).1 - 1 := fun e he =>
        ⟨(hcenters e he).1, by linarith [(hcenters e he).2]⟩
      have hmiddle := between_bounds (le_refl start) (by linarith) hbounds
      refine ⟨hplaced.set hmiddle.1 ?_ hnot hrise, by linarith⟩
      linarith [hmiddle.2]

/-! ### All roots -/

/-- What holds after some roots have been placed, and which column comes next. -/
structure Rooted (g : Digraph) (rank w : String → Nat) (roots : List String)
    (p : Rat × Assignment) : Prop where
  /-- The names seen are spaced. -/
  spaced : Spaced rank p.2.columns.column 0 p.1 p.2.seen
  /-- No other name has a column. -/
  free : ∀ n, n ∉ p.2.seen → p.2.columns.column.get? n = none
  /-- The memory holds widths. -/
  remembers : Remembers w (some p.2.columns.widths)
  /-- The names seen are reached from the roots. -/
  reached : ∀ n ∈ p.2.seen, ∃ r ∈ roots, g.Reaches r n
  /-- No column is negative. -/
  nonneg : 0 ≤ p.1

/-- Before any root is placed, nothing has to be spaced. -/
theorem Rooted.nil (g : Digraph) (rank w : String → Nat) : Rooted g rank w [] (0, {}) where
  spaced := Spaced.nil _ _ _ _
  free := fun _ _ => rfl
  remembers := by
    intro t ht n v hv
    obtain rfl : ([] : Table Nat) = t := Option.some.inj ht
    exact nomatch hv
  reached := fun _ hn => absurd hn List.not_mem_nil
  nonneg := le_rfl

/-- A root that reaches none of the names seen is placed beside them. -/
theorem Rooted.place (hg : g.IsAcyclic) (hrank : g.Rises rank) (hw : g.IsWidth w)
    {roots : List String} {p : Rat × Assignment} (h : Rooted g rank w roots p) {root : String}
    (hroot : ∀ n, g.Reaches root n → n ∉ p.2.seen) :
    Rooted g rank w (roots ++ [root]) (p.2.place .exact g root p.1) := by
  have hmeets := meets_search g p.2.seen [root]
  obtain ⟨hplaced, hle⟩ := placeTree_placed hg hrank hw p.2.seen _ hmeets
    (hroot root .refl) hroot (fun n hn hno => absurd hn hno) p.1 p.2.columns h.remembers h.free
  unfold Assignment.place
  refine ⟨?_, fun n hn => ?_, hplaced.remembers, fun n hn => ?_, ?_⟩
  · have hkept := h.spaced.congr fun n hn =>
      hplaced.kept n fun hm => hmeets.not_mem_of_mem_names hm hn
    refine (hkept.append hplaced.spaced h.nonneg (by linarith)).subset fun n hn => ?_
    exact List.mem_append.mpr (hmeets.mem_seen_iff.mp hn)
  · have hn' := mt hmeets.mem_seen_iff.mpr hn
    rw [not_or] at hn'
    rw [hplaced.kept n hn'.2]
    exact h.free n hn'.1
  · rcases hmeets.mem_seen_iff.mp hn with hn | hn
    · obtain ⟨r, hr, hrn⟩ := h.reached n hn
      exact ⟨r, List.mem_append_left _ hr, hrn⟩
    · obtain ⟨b, hb, hbn⟩ := hmeets.reaches hn
      rw [List.mem_singleton] at hb
      exact ⟨root, List.mem_append_right _ List.mem_cons_self, hb ▸ hbn⟩
  · exact h.nonneg.trans (by linarith)

/-- Roots that reach no common name are placed side by side. -/
theorem Rooted.places (hg : g.IsAcyclic) (hrank : g.Rises rank) (hw : g.IsWidth w)
    {done : List String} (roots : List String) {p : Rat × Assignment} (h : Rooted g rank w done p)
    (hroots : (done ++ roots).Pairwise fun r r' => ∀ n, g.Reaches r n → ¬g.Reaches r' n) :
    Rooted g rank w (done ++ roots)
      (roots.foldl (fun p root => p.2.place .exact g root p.1) p) := by
  induction roots generalizing done p with
  | nil => simpa using h
  | cons root rest ih =>
    have hroot : ∀ n, g.Reaches root n → n ∉ p.2.seen := by
      intro n hn hm
      obtain ⟨r, hr, hrn⟩ := h.reached n hm
      exact (List.pairwise_append.mp hroots).2.2 r hr root List.mem_cons_self n hrn hn
    rw [List.append_cons] at hroots ⊢
    exact ih (h.place hg hrank hw hroot) hroots

/-- The names that are left get a column each, after the others. -/
theorem spaced_leftovers (names : List String) {done : List String} {p : Rat × Table Rat}
    (h : Spaced rank p.2 0 p.1 done) (hfree : ∀ n, n ∉ done → p.2.get? n = none) (hp : 0 ≤ p.1) :
    ∃ hi, Spaced rank (names.foldl (fun (p : Rat × Table Rat) name =>
      if p.2.contains name then p else (past .exact p.1 1, p.2.insert name p.1)) p).2 0 hi
      (done ++ names) := by
  induction names generalizing done p with
  | nil => exact ⟨p.1, by simpa using h⟩
  | cons name rest ih =>
    rw [List.foldl_cons, List.append_cons]
    by_cases hname : name ∈ done
    · obtain ⟨c, hc, _, _⟩ := h.within name hname
      rw [if_pos (by rw [Table.contains, hc]; rfl)]
      refine ih (h.subset ?_) (fun n hn => hfree n fun hd => hn ?_) hp
      · intro n hn
        rcases List.mem_append.mp hn with hn | hn
        · exact hn
        · exact List.mem_singleton.mp hn ▸ hname
      · exact List.mem_append_left _ hd
    · have hnone := hfree name hname
      rw [if_neg (by rw [Table.contains, hnone]; exact Bool.false_ne_true)]
      refine ih ?_ (fun n hn => ?_) ?_
      · simpa [past_exact] using h.insert hp hname
      · rw [List.mem_append, not_or, List.mem_singleton] at hn
        rw [Table.get?_insert, if_neg (Ne.symm hn.2)]
        exact hfree n hn.1
      · rw [past_exact]
        exact hp.trans (by norm_num)

/-- In an acyclic graph whose roots reach no common name, two names of the same rank are at least
one column apart. -/
theorem columnsOf_spaced (hg : g.IsAcyclic) (hrank : g.Rises rank) (names : List String)
    {roots : List String}
    (hroots : roots.Pairwise fun r r' => ∀ n, g.Reaches r n → ¬g.Reaches r' n) :
    ∃ hi, Spaced rank (columnsOf .exact g names roots) 0 hi names := by
  obtain ⟨w, hw⟩ := hg.exists_isWidth
  have hplaced := (Rooted.nil g rank w).places hg hrank hw roots hroots
  unfold columnsOf
  generalize roots.foldl (fun (p : Rat × Assignment) root => p.2.place .exact g root p.1) (0, {}) = p
    at hplaced ⊢
  obtain ⟨hi, h⟩ := spaced_leftovers names (p := (p.1, p.2.columns.column)) hplaced.spaced
    hplaced.free hplaced.nonneg
  exact ⟨hi, h.subset (List.subset_append_right _ _)⟩

end Diagrams.Layout
