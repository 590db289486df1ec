import Diagrams.Table
import Mathlib.Algebra.Ring.Nat
import Mathlib.Data.List.Induction
import Mathlib.Data.List.Nodup
import Mathlib.Data.List.Perm.Basic

/-!
# Tables of what is mentioned

The scans collect what is said about names in tables that keep the names in the order of their first
mention.

* `eraseDups_concat`, `nodup_eraseDups` — the names of a list, each once, when one more comes last.
* `perm_flatMap_filter`, `sum_countP` — the items of a list, grouped by what they mention.
* `Table.adjust_adjust`, `Table.adjust_eq_self`, `Table.get?_adjust` — changes of one value.
* `Table.tabulate` — the table of values that are given by their names. When something more is said
  of a name, the names are those of one more mention, and at most the value of that name is another
  one: `insert_mentioned`, `insertNew_mentioned`, `adjust_mentioned`.
-/

namespace Diagrams

/-! ### Names in the order of their first mention -/

section Mentions

variable {α : Type} [BEq α] [LawfulBEq α]

/-- A new name comes last. -/
theorem eraseDups_concat (l : List α) (name : α) :
    (l ++ [name]).eraseDups =
      if name ∈ l.eraseDups then l.eraseDups else l.eraseDups ++ [name] := by
  rw [List.eraseDups_append]
  by_cases hm : name ∈ l
  · simp [List.removeAll, hm]
  · simp [List.removeAll, hm, List.eraseDups_cons]

/-- Without doubles every item stands once. -/
theorem nodup_eraseDups (l : List α) : l.eraseDups.Nodup := by
  induction l using List.reverseRecOn with
  | nil => exact List.nodup_nil
  | append_singleton l name ih =>
    rw [eraseDups_concat]
    split
    · exact ih
    · rename_i hname
      rw [List.nodup_append]
      refine ⟨ih, List.nodup_singleton name, ?_⟩
      rintro a ha b hb rfl
      exact hname (List.mem_singleton.mp hb ▸ ha)

/-! ### Items in the order of what they mention -/

variable {β : Type}

/-- Each item of a list stands once in the group of its key, and in no other group. -/
theorem perm_flatMap_filter (key : β → α) {keys : List α} (hnodup : keys.Nodup) {xs : List β}
    (h : ∀ x ∈ xs, key x ∈ keys) :
    (keys.flatMap fun k => xs.filter fun x => key x == k).Perm xs := by
  induction keys generalizing xs with
  | nil =>
    rw [List.eq_nil_iff_forall_not_mem.mpr fun x hx => List.not_mem_nil (h x hx)]
    rfl
  | cons k keys ih =>
    obtain ⟨hk, hkeys⟩ := List.nodup_cons.mp hnodup
    -- the other groups are those of the items with another key
    have hothers : (keys.flatMap fun k' => xs.filter fun x => key x == k') =
        keys.flatMap fun k' => (xs.filter fun x => !(key x == k)).filter fun x => key x == k' := by
      apply List.flatMap_congr
      intro k' hk'
      rw [List.filter_filter]
      apply List.filter_congr
      intro x _
      by_cases hx : key x = k'
      · have hne : k' ≠ k := fun heq => hk (heq ▸ hk')
        simp [hx, hne]
      · simp [hx]
    have hrest : ∀ x ∈ xs.filter fun x => !(key x == k), key x ∈ keys := by
      intro x hx
      obtain ⟨hx, hne⟩ := List.mem_filter.mp hx
      simpa [show key x ≠ k by simpa using hne] using h x hx
    rw [List.flatMap_cons, hothers]
    exact ((ih hkeys hrest).append_left _).trans (List.filter_append_perm _ xs)

/-- How many items there are in the groups makes up how many there are. -/
theorem sum_countP (key : β → α) {keys : List α} (hnodup : keys.Nodup) {xs : List β}
    (h : ∀ x ∈ xs, key x ∈ keys) :
    (keys.map fun k => xs.countP fun x => key x == k).sum = xs.length := by
  rw [← (perm_flatMap_filter key hnodup h).length_eq, List.length_flatMap]
  simp only [List.countP_eq_length_filter]

end Mentions

namespace Table

variable {α : Type} {l : List String}

/-! ### Changes of one value -/

/-- Two changes of a value are one. -/
theorem adjust_adjust (t : Table α) (name : String) (f g : α → α) :
    (t.adjust name f).adjust name g = t.adjust name fun value => g (f value) := by
  induction t with
  | nil => rfl
  | cons e t ih =>
    by_cases hn : e.1 = name
    · simp [adjust, hn]
    · simp [adjust, hn, ih]

/-- A value that stays the same is not changed. -/
theorem adjust_eq_self (t : Table α) (name : String) {f : α → α} (h : ∀ value, f value = value) :
    t.adjust name f = t := by
  induction t with
  | nil => rfl
  | cons e t ih =>
    obtain ⟨n, value⟩ := e
    by_cases hn : n = name
    · simp [adjust, hn, h]
    · simp [adjust, hn, ih]

/-- The value of the name is changed, if there is one, and no other value. -/
theorem get?_adjust (t : Table α) (name : String) (f : α → α) (other : String) :
    (t.adjust name f).get? other =
      if name = other then (t.get? other).map f else t.get? other := by
  induction t with
  | nil => simp [adjust, get?]
  | cons e t ih =>
    by_cases hn : e.1 = name
    · by_cases ho : name = other <;> simp [adjust, get?, hn, ho]
    · by_cases ho : e.1 = other
      · have hne : name ≠ other := fun heq => hn (ho.trans heq.symm)
        simp [adjust, get?, ho, hne, hne.symm]
      · simp [adjust, get?, hn, ho, ih]

/-! ### Values given by their names -/

/-- The table of values that are given by their names. -/
def tabulate (l : List String) (f : String → α) : Table α := l.map fun n => (n, f n)

/-- The names of the table are those of the list. -/
theorem names_tabulate (l : List String) (f : String → α) : (tabulate l f).names = l := by
  simp [tabulate, names, Function.comp_def]

/-- The values of the table are those of the function. -/
theorem values_tabulate (l : List String) (f : String → α) : (tabulate l f).values = l.map f := by
  simp [tabulate, values, Function.comp_def]

/-- Only the values at the names matter. -/
theorem tabulate_congr {f g : String → α} (h : ∀ n ∈ l, f n = g n) :
    tabulate l f = tabulate l g :=
  List.map_congr_left fun n hn => by rw [h n hn]

/-- Another name is not affected. -/
theorem tabulate_of_notMem {name : String} (h : name ∉ l) (f : String → α) (value : α) :
    (tabulate l fun n => if n = name then value else f n) = tabulate l f := by
  apply tabulate_congr
  intro n hn
  rw [if_neg]
  rintro rfl
  exact h hn

/-- Writing a value. -/
theorem insert_tabulate (h : l.Nodup) (f : String → α) (name : String) (value : α) :
    (tabulate l f).insert name value =
      tabulate (if name ∈ l then l else l ++ [name]) fun n => if n = name then value else f n := by
  induction l with
  | nil => simp [tabulate, insert]
  | cons n l ih =>
    rw [List.nodup_cons] at h
    have hinsert := ih h.2
    by_cases hn : n = name
    · subst hn
      have hrest := tabulate_of_notMem h.1 f value
      simp only [tabulate] at hrest
      simp [tabulate, insert, hrest]
    · simp only [tabulate] at hinsert
      by_cases hmem : name ∈ l <;>
        simp [tabulate, insert, hn, Ne.symm hn, hinsert, hmem]

/-- Changing a value. -/
theorem adjust_tabulate (h : l.Nodup) (f : String → α) (name : String) (change : α → α) :
    (tabulate l f).adjust name change =
      tabulate l fun n => if n = name then change (f n) else f n := by
  induction l with
  | nil => rfl
  | cons n l ih =>
    rw [List.nodup_cons] at h
    have hadjust := ih h.2
    simp only [tabulate] at hadjust
    by_cases hn : n = name
    · subst hn
      have hrest : (l.map fun m => (m, if m = n then change (f m) else f m)) =
          l.map fun m => (m, f m) := by
        apply List.map_congr_left
        intro m hm
        rw [if_neg]
        rintro rfl
        exact h.1 hm
      simp [tabulate, adjust, hrest]
    · simp [tabulate, adjust, hn, hadjust]

/-! ### Values of mentioned names -/

/-- A mentioned name gets a value. -/
theorem insert_mentioned (l : List String) (f : String → α) (name : String) (value : α) :
    (tabulate l.eraseDups f).insert name value =
      tabulate (l ++ [name]).eraseDups fun n => if n = name then value else f n := by
  rw [insert_tabulate (nodup_eraseDups l), eraseDups_concat]

/-- A mentioned name gets a value unless it has one. -/
theorem insertNew_mentioned {f : String → α} {name : String} {value : α}
    (h : name ∉ l → f name = value) :
    (tabulate l.eraseDups f).insertNew name value = tabulate (l ++ [name]).eraseDups f := by
  have hcontains : (tabulate l.eraseDups f).contains name = true ↔ name ∈ l.eraseDups := by
    rw [contains_iff, names_tabulate]
  rw [insertNew]
  by_cases hname : name ∈ l.eraseDups
  · rw [if_pos (hcontains.mpr hname), eraseDups_concat, if_pos hname]
  · rw [if_neg (mt hcontains.mp hname), insert_mentioned]
    apply tabulate_congr
    intro n _
    split
    · rename_i hn
      rw [hn, h (mt List.mem_eraseDups.mpr hname)]
    · rfl

/-- The value of a mentioned name is changed. -/
theorem adjust_mentioned (l : List String) (f : String → α) (name : String) (change : α → α) :
    (tabulate l.eraseDups f).adjust name change =
      tabulate l.eraseDups fun n => if n = name then change (f n) else f n :=
  adjust_tabulate (nodup_eraseDups l) f name change

end Table

end Diagrams
