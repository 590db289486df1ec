/-!
# Ordered tables

A table maps names to values and keeps the names in the order in which they were first written.

* `get?`, `contains`, `names`, `values` — the views.
* `insert` — a known name keeps its place and changes its value; a new name comes last.
* `get?_insert`, `names_insert` say what `insert` does to the views.
* `Keyed` — every value knows its own name; the three ways of writing keep this.
-/

namespace Diagrams

/-- Names with their values, in the order in which the names were first written. -/
abbrev Table (α : Type) := List (String × α)

namespace Table

variable {α : Type}

/-- The value of a name. -/
def get? : Table α → String → Option α
  | [], _ => none
  | (n, v) :: t, name => if n = name then some v else get? t name

/-- The value of a name, or a default. -/
def getD (t : Table α) (name : String) (default : α) : α := (t.get? name).getD default

/-- Whether the name is in the table. -/
def contains (t : Table α) (name : String) : Bool := (t.get? name).isSome

/-- The names in their order. -/
def names (t : Table α) : List String := t.map (·.1)

/-- The values in the order of their names. -/
def values (t : Table α) : List α := t.map (·.2)

/-- The table with the value of a name set. -/
def insert : Table α → String → α → Table α
  | [], name, value => [(name, value)]
  | (n, v) :: t, name, value =>
    if n = name then (n, value) :: t else (n, v) :: insert t name value

/-- The table with the name added, unless it is known already. -/
def insertNew (t : Table α) (name : String) (value : α) : Table α :=
  if t.contains name then t else t.insert name value

/-- The table with the value of a known name changed. -/
def adjust : Table α → String → (α → α) → Table α
  | [], _, _ => []
  | (n, v) :: t, name, f => if n = name then (n, f v) :: t else (n, v) :: adjust t name f

/-- The table of a list of entries, later ones winning. -/
def ofList (entries : List (String × α)) : Table α :=
  entries.foldl (fun t e => t.insert e.1 e.2) []

/-- A name is contained in a table when it is among its names. -/
theorem contains_iff {t : Table α} {name : String} : t.contains name = true ↔ name ∈ t.names := by
  induction t with
  | nil => simp [contains, get?, names]
  | cons e t ih =>
    simp only [contains, names] at ih
    by_cases h : e.1 = name
    · simp [contains, get?, names, h]
    · simp [contains, get?, names, h, Ne.symm h, ih]

/-- A new name comes last; a known one keeps its place. -/
theorem names_insert (t : Table α) (name : String) (value : α) :
    (t.insert name value).names = if name ∈ t.names then t.names else t.names ++ [name] := by
  induction t with
  | nil => simp [insert, names]
  | cons e t ih =>
    simp only [names] at ih
    by_cases h : e.1 = name
    · simp [insert, names, h]
    · by_cases hm : name ∈ t.map (·.1) <;>
        simp [insert, names, h, Ne.symm h, ih, hm]

/-- Writing into a table forgets none of its names. -/
theorem names_subset_insert (t : Table α) (name : String) (value : α) :
    t.names ⊆ (t.insert name value).names := by
  rw [names_insert]
  split
  · exact fun _ hn => hn
  · exact List.subset_append_left _ _

/-- The name just written is in the table. -/
theorem mem_names_insert (t : Table α) (name : String) (value : α) :
    name ∈ (t.insert name value).names := by
  rw [names_insert]
  split
  · assumption
  · simp

/-- In the table are afterwards the names that were there and the one just written. -/
theorem mem_names_insert_iff {t : Table α} {name : String} {value : α} {other : String} :
    other ∈ (t.insert name value).names ↔ other = name ∨ other ∈ t.names := by
  rw [names_insert]
  split
  · rename_i hn
    exact ⟨.inr, fun h => h.elim (fun heq => heq ▸ hn) id⟩
  · rw [List.mem_append, List.mem_singleton, or_comm]

/-- The value just written is found, and the values of other names are kept. -/
theorem get?_insert (t : Table α) (name : String) (value : α) (other : String) :
    (t.insert name value).get? other = if name = other then some value else t.get? other := by
  induction t with
  | nil => simp [insert, get?]
  | cons e t ih =>
    by_cases h : e.1 = name
    · by_cases ho : name = other <;> simp [insert, get?, h, ho]
    · by_cases heo : e.1 = other
      · have : ¬ name = other := fun hc => h (heo.trans hc.symm)
        simp [insert, get?, heo, this, Ne.symm this]
      · simp [insert, get?, h, heo, ih]

/-- A value is written only where there was none. -/
theorem get?_insertNew (t : Table α) (name : String) (value : α) (other : String) :
    (t.insertNew name value).get? other =
      (t.get? other).or (if name = other then some value else none) := by
  unfold insertNew contains
  by_cases h : name = other
  · subst h
    cases hv : t.get? name <;> simp [get?_insert, hv]
  · cases hv : t.get? name <;> simp [get?_insert, h]

/-- Names stay distinct. -/
theorem names_nodup_insert {t : Table α} (h : t.names.Nodup) (name : String) (value : α) :
    (t.insert name value).names.Nodup := by
  rw [names_insert]
  split
  · exact h
  · rename_i hn
    exact List.nodup_append.2 ⟨h, by simp, fun a ha b hb hab => hn (by simp_all)⟩

/-- A name that is known already is not written again. -/
theorem names_insertNew (t : Table α) (name : String) (value : α) :
    (t.insertNew name value).names = if name ∈ t.names then t.names else t.names ++ [name] := by
  unfold insertNew
  by_cases h : t.contains name = true
  · rw [if_pos h, if_pos (contains_iff.mp h)]
  · rw [if_neg h, names_insert]

/-- Names stay distinct. -/
theorem names_nodup_insertNew {t : Table α} (h : t.names.Nodup) (name : String) (value : α) :
    (t.insertNew name value).names.Nodup := by
  unfold insertNew
  split
  · exact h
  · exact names_nodup_insert h name value

/-- A change of a value leaves the names alone. -/
theorem names_adjust (t : Table α) (name : String) (f : α → α) :
    (t.adjust name f).names = t.names := by
  induction t with
  | nil => rfl
  | cons e t ih =>
    simp only [names] at ih
    by_cases h : e.1 = name
    · simp [adjust, names, h]
    · simp [adjust, names, h, ih]

/-- What is in the table afterwards was there before or has just been written. -/
theorem mem_of_mem_insert {t : Table α} {name : String} {value : α} {e : String × α}
    (h : e ∈ t.insert name value) : e = (name, value) ∨ e ∈ t := by
  induction t with
  | nil => exact .inl (List.mem_singleton.mp h)
  | cons d t ih =>
    simp only [insert] at h
    split at h
    · rename_i hd
      rcases List.mem_cons.mp h with rfl | h
      · exact .inl (by rw [hd])
      · exact .inr (List.mem_cons_of_mem _ h)
    · rcases List.mem_cons.mp h with rfl | h
      · exact .inr List.mem_cons_self
      · exact (ih h).imp_right (List.mem_cons_of_mem _)

/-- An entry of a list whose names are distinct is found in the table of the list. -/
theorem get?_ofList {entries : List (String × α)} (h : (entries.map (·.1)).Nodup)
    {name : String} {value : α} (hm : (name, value) ∈ entries) :
    (ofList entries).get? name = some value := by
  have hkept : ∀ (rest : List (String × α)) (t : Table α), name ∉ rest.map (·.1) →
      t.get? name = some value →
      (rest.foldl (fun t e => t.insert e.1 e.2) t).get? name = some value := by
    intro rest
    induction rest with
    | nil => exact fun _ _ ht => ht
    | cons e rest ih =>
      intro t hn ht
      rw [List.map_cons, List.mem_cons, not_or] at hn
      exact ih _ hn.2 (by rw [get?_insert, if_neg (Ne.symm hn.1), ht])
  unfold ofList
  generalize ([] : Table α) = t
  induction entries generalizing t with
  | nil => exact absurd hm List.not_mem_nil
  | cons e rest ih =>
    rw [List.map_cons, List.nodup_cons] at h
    rcases List.mem_cons.mp hm with rfl | hm
    · exact hkept rest _ h.1 (by rw [get?_insert, if_pos rfl])
    · exact ih h.2 hm _

/-- What is found in the table of a list is an entry of the list. -/
theorem mem_of_get?_ofList {entries : List (String × α)} {name : String} {value : α}
    (h : (ofList entries).get? name = some value) : (name, value) ∈ entries := by
  have hfold : ∀ t : Table α,
      (entries.foldl (fun t e => t.insert e.1 e.2) t).get? name = some value →
        (name, value) ∈ entries ∨ t.get? name = some value := by
    clear h
    induction entries with
    | nil => exact fun _ => .inr
    | cons e rest ih =>
      intro t ht
      rcases ih _ ht with hm | hm
      · exact .inl (List.mem_cons_of_mem _ hm)
      · rw [get?_insert] at hm
        split at hm
        · rename_i hname
          obtain rfl := Option.some.inj hm
          exact .inl (hname ▸ List.mem_cons_self)
        · exact .inr hm
  exact (hfold [] h).resolve_right nofun

/-- What is in the table of a list is an entry of the list. -/
theorem mem_of_mem_ofList {entries : List (String × α)} {e : String × α} (h : e ∈ ofList entries) :
    e ∈ entries := by
  revert h
  refine List.foldlRecOn (motive := fun t : Table α => e ∈ t → e ∈ entries) entries _ nofun ?_
  intro t ht d hd he
  rcases mem_of_mem_insert he with rfl | he
  · exact hd
  · exact ht he

/-- An entry of a table whose names are distinct is found. -/
theorem get?_of_mem {t : Table α} (h : t.names.Nodup) {name : String} {value : α}
    (hm : (name, value) ∈ t) : t.get? name = some value := by
  induction t with
  | nil => exact absurd hm List.not_mem_nil
  | cons e t ih =>
    rw [names, List.map_cons, List.nodup_cons] at h
    rcases List.mem_cons.mp hm with rfl | hm
    · exact if_pos rfl
    · have hne : e.1 ≠ name := fun hc => h.1 (hc ▸ List.mem_map_of_mem hm)
      rw [get?, if_neg hne]
      exact ih h.2 hm

/-- What is found is an entry of the table. -/
theorem mem_of_get? {t : Table α} {name : String} {value : α} (h : t.get? name = some value) :
    (name, value) ∈ t := by
  induction t with
  | nil => exact nomatch h
  | cons e t ih =>
    rw [get?] at h
    split at h
    · rename_i hname
      rw [← hname, ← Option.some.inj h]
      exact List.mem_cons_self
    · exact List.mem_cons_of_mem _ (ih h)

/-- A new name comes last. -/
theorem insert_of_notMem {t : Table α} {name : String} (h : name ∉ t.names) (value : α) :
    t.insert name value = t ++ [(name, value)] := by
  induction t with
  | nil => rfl
  | cons e t ih =>
    rw [names, List.map_cons, List.mem_cons, not_or] at h
    rw [insert, if_neg (Ne.symm h.1), ih h.2, List.cons_append]

/-- The table of a list whose names are distinct is the list. -/
theorem ofList_eq_self {entries : List (String × α)} (h : (names entries).Nodup) :
    ofList entries = entries := by
  have hfold : ∀ (rest : List (String × α)) (t : Table α), (names (t ++ rest)).Nodup →
      rest.foldl (fun t e => t.insert e.1 e.2) t = t ++ rest := by
    intro rest
    induction rest with
    | nil => simp
    | cons e rest ih =>
      intro t ht
      rw [List.append_cons] at ht
      have hnew : e.1 ∉ t.names := by
        rw [names, List.map_append, List.nodup_append] at ht
        have hbefore := ht.1
        rw [List.map_append, List.nodup_append] at hbefore
        exact fun hm => hbefore.2.2 e.1 hm e.1 (by simp) rfl
      rw [List.foldl_cons, insert_of_notMem hnew, ih (t ++ [e]) ht, ← List.append_cons]
  exact hfold entries [] h

/-- A name in the table has a value. -/
theorem exists_get?_iff {t : Table α} {name : String} :
    (∃ value, t.get? name = some value) ↔ name ∈ t.names := by
  rw [← contains_iff, contains, Option.isSome_iff_exists]

/-- A name of a list has a value in the table of the list. -/
theorem exists_get?_ofList {entries : List (String × α)} {name : String}
    (hm : name ∈ names entries) : ∃ value, (ofList entries).get? name = some value := by
  have hfold : ∀ t : Table α, name ∈ t.names ∨ name ∈ names entries →
      name ∈ (entries.foldl (fun t e => t.insert e.1 e.2) t).names := by
    clear hm
    induction entries with
    | nil => exact fun t ht => ht.elim id nofun
    | cons e rest ih =>
      intro t ht
      apply ih
      rw [mem_names_insert_iff]
      rcases ht with ht | ht
      · exact .inl (.inr ht)
      · rcases List.mem_cons.mp ht with rfl | ht
        · exact .inl (.inl rfl)
        · exact .inr ht
  exact exists_get?_iff.mpr (hfold [] (.inr hm))

/-- Among distinct names, a name does not stand before its place. -/
theorem notMem_of_nodup_append {before after : Table α} {name : String} {value : α}
    (h : (names (before ++ (name, value) :: after)).Nodup) : name ∉ before.names := by
  rw [names, List.map_append, List.map_cons, List.nodup_append] at h
  exact fun hm => h.2.2 name hm name List.mem_cons_self rfl

/-- Writing what stands there already changes nothing. -/
theorem insert_of_get? {t : Table α} {name : String} {value : α} (h : t.get? name = some value) :
    t.insert name value = t := by
  induction t with
  | nil => exact nomatch h
  | cons e t ih =>
    rw [get?] at h
    rw [insert]
    split at h
    · rename_i he
      obtain rfl := Option.some.inj h
      obtain rfl := he
      exact if_pos rfl
    · rename_i he
      rw [if_neg he, ih h]

/-- The value that is written last counts. -/
theorem insert_insert (t : Table α) (name : String) (value value' : α) :
    (t.insert name value).insert name value' = t.insert name value' := by
  induction t with
  | nil => simp [insert]
  | cons e t ih =>
    by_cases h : e.1 = name
    · simp [insert, h]
    · simp [insert, h, ih]

/-- A value that is set takes the place of one that was set before if there was none. -/
theorem insert_insertNew (t : Table α) (name : String) (value value' : α) :
    (t.insertNew name value).insert name value' = t.insert name value' := by
  unfold insertNew
  split
  · rfl
  · exact insert_insert t name value value'

/-! ## What holds of all entries -/

section Entries

variable {P : String × α → Prop} {t : Table α}

/-- What holds of all entries holds of them when one more is set of which it holds. -/
theorem forall_insert (h : ∀ e ∈ t, P e) {name : String} {value : α} (hv : P (name, value)) :
    ∀ e ∈ t.insert name value, P e := by
  intro e he
  rcases mem_of_mem_insert he with rfl | he
  · exact hv
  · exact h e he

/-- The same of an entry that is set if there is none. -/
theorem forall_insertNew (h : ∀ e ∈ t, P e) {name : String} {value : α} (hv : P (name, value)) :
    ∀ e ∈ t.insertNew name value, P e := by
  unfold insertNew
  split
  · exact h
  · exact forall_insert h hv

/-- What holds of all entries holds of them after an adjustment that keeps it. -/
theorem forall_adjust (h : ∀ e ∈ t, P e) (name : String) {f : α → α}
    (hf : ∀ n a, P (n, a) → P (n, f a)) : ∀ e ∈ t.adjust name f, P e := by
  induction t with
  | nil => exact h
  | cons d t ih =>
    obtain ⟨hd, ht⟩ := List.forall_mem_cons.mp h
    rw [adjust]
    split
    · exact List.forall_mem_cons.mpr ⟨hf _ _ hd, ht⟩
    · exact List.forall_mem_cons.mpr ⟨hd, ih ht⟩

end Entries

/-! ## Values that know their names -/

/-- Every value stands under the name that `key` reads off it. -/
def Keyed (key : α → String) (t : Table α) : Prop := ∀ e ∈ t, key e.2 = e.1

variable {key : α → String} {t : Table α}

/-- The names can be read off the values. -/
theorem Keyed.map_values (h : t.Keyed key) : t.values.map key = t.names := by
  unfold values names
  rw [List.map_map]
  exact List.map_congr_left h

/-- A value that is set under its own key keeps a table keyed. -/
theorem Keyed.insert (h : t.Keyed key) {name : String} {value : α} (hv : key value = name) :
    (t.insert name value).Keyed key :=
  forall_insert h hv

/-- The same of a value that is set if there is none. -/
theorem Keyed.insertNew (h : t.Keyed key) {name : String} {value : α} (hv : key value = name) :
    (t.insertNew name value).Keyed key :=
  forall_insertNew h hv

/-- A change that keeps the names of values keeps every value under its name. -/
theorem Keyed.adjust (h : t.Keyed key) (name : String) {f : α → α}
    (hf : ∀ a, key (f a) = key a) : (t.adjust name f).Keyed key :=
  forall_adjust h name fun _ a ha => (hf a).trans ha

end Table

end Diagrams
