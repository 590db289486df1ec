import Diagrams.Drawio.CellIds
import Diagrams.Text.Numeral
import Mathlib.Data.List.Perm.Subperm
import Mathlib.Data.List.Nodup
import Mathlib.Data.List.Range
import Mathlib.Order.Bounds.Basic

/-!
# Names of cells are new

* `CellIds.exists_free_eq_numbered` — for a name that is given already the one with the least number
  that makes it new is found. There is such a number: the numbered names are distinct, and they are
  too many to be all among those given (`exists_numbered_not_mem`).
* `CellIds.free_not_mem` — so the name found is not given yet.
* `CellIds.Issues` — the names given between two states. `issueAll_issues` says this of several
  names at once, and `Issues.append` puts stretches together, so that a writer needs to say only in
  which order it asks for names.
-/

namespace Diagrams.Drawio.CellIds

variable {ids ids₁ ids₂ : CellIds} {names names' : List String}

/-- Different numbers make different names. -/
theorem numbered_inj {preferred : String} {j k : Nat}
    (h : numbered preferred j = numbered preferred k) : j = k :=
  Text.append_toString_inj h

/-- A number makes another name. -/
theorem ne_numbered (preferred : String) (k : Nat) : preferred ≠ numbered preferred k := by
  intro h
  have hlength := congrArg String.length h
  simp only [numbered, String.length_append] at hlength
  have hone : "_".length = 1 := rfl
  omega

/-- When the preferred name is given, fewer others are: one of as many numbers as there are given
names is free. -/
theorem exists_numbered_not_mem {given : List String} {preferred : String}
    (hgiven : preferred ∈ given) :
    ∃ k ∈ List.range' 1 given.length, numbered preferred k ∉ given := by
  by_contra! hall
  have hnodup : (preferred :: (List.range' 1 given.length).map (numbered preferred)).Nodup := by
    refine List.nodup_cons.mpr ⟨fun hm => ?_, ?_⟩
    · obtain ⟨k, _, hk⟩ := List.mem_map.mp hm
      exact ne_numbered preferred k hk.symm
    · exact (List.nodup_range' 1).map fun _ _ => numbered_inj
  have hsubset : preferred :: (List.range' 1 given.length).map (numbered preferred) ⊆ given := by
    intro n hn
    rcases List.mem_cons.mp hn with rfl | hn
    · exact hgiven
    · obtain ⟨k, hk, rfl⟩ := List.mem_map.mp hn
      exact hall k hk
  have hlength := (List.subperm_of_subset hnodup hsubset).length_le
  rw [List.length_cons, List.length_map, List.length_range'] at hlength
  omega

/-- A name that is not given yet is found as it is. -/
theorem free_of_not_mem {preferred : String} (h : preferred ∉ ids.issued) :
    ids.free preferred = preferred := if_neg h

/-- Otherwise the name found has the least number that makes it new. -/
theorem exists_free_eq_numbered {preferred : String} (h : preferred ∈ ids.issued) :
    ∃ k, IsLeast {k | 1 ≤ k ∧ numbered preferred k ∉ ids.issued} k ∧
      ids.free preferred = numbered preferred k := by
  obtain ⟨j, hj, hfree⟩ := exists_numbered_not_mem h
  have hsome : ((List.range' 1 ids.issued.length).find? fun k =>
      numbered preferred k ∉ ids.issued).isSome := by
    rw [List.find?_isSome]
    exact ⟨j, hj, decide_eq_true hfree⟩
  obtain ⟨k, hk⟩ := Option.isSome_iff_exists.mp hsome
  obtain ⟨hknew, hkrange, hkleast⟩ := List.find?_range'_eq_some.mp hk
  refine ⟨k, ⟨⟨(List.mem_range'_1.mp hkrange).1, of_decide_eq_true hknew⟩, ?_⟩, ?_⟩
  · rintro l ⟨hl, hlnew⟩
    by_contra! hlk
    simpa [hlnew] using hkleast l hl hlk
  · rw [free, if_pos h, hk, Option.getD_some]

/-- The name that is found is not given yet. -/
theorem free_not_mem (ids : CellIds) (preferred : String) : ids.free preferred ∉ ids.issued := by
  by_cases h : preferred ∈ ids.issued
  · obtain ⟨k, hk, hfree⟩ := exists_free_eq_numbered h
    rw [hfree]
    exact hk.1.2
  · rwa [free_of_not_mem h]

/-- The names are given between two states: they are distinct, none of them was given before, and
they are given afterwards. -/
structure Issues (ids : CellIds) (names : List String) (ids₁ : CellIds) : Prop where
  /-- The names are distinct. -/
  nodup : names.Nodup
  /-- None of them was given before. -/
  fresh : ∀ n ∈ names, n ∉ ids.issued
  /-- Nothing else is given afterwards. -/
  issued : ∀ n, n ∈ ids₁.issued ↔ n ∈ names ∨ n ∈ ids.issued

namespace Issues

/-- Without requests nothing is issued. -/
theorem nil (ids : CellIds) : Issues ids [] ids where
  nodup := List.nodup_nil
  fresh := fun _ h => absurd h List.not_mem_nil
  issued := fun _ => by simp

/-- Requests may be answered one after the other. -/
theorem append (h : Issues ids names ids₁) (h' : Issues ids₁ names' ids₂) :
    Issues ids (names ++ names') ids₂ where
  nodup := by
    refine List.nodup_append.mpr ⟨h.nodup, h'.nodup, ?_⟩
    rintro n hn m hm rfl
    exact h'.fresh n hm ((h.issued n).mpr (.inl hn))
  fresh := by
    intro n hn
    rcases List.mem_append.mp hn with hn | hn
    · exact h.fresh n hn
    · exact fun hi => h'.fresh n hn ((h.issued n).mpr (.inr hi))
  issued := by
    intro n
    rw [h'.issued, h.issued, List.mem_append, or_left_comm, ← or_assoc]

end Issues

/-- One request is answered with a new name. -/
theorem issue_issues (ids : CellIds) (preferred : String) :
    Issues ids [(ids.issue preferred).1] (ids.issue preferred).2 where
  nodup := by simp
  fresh := by
    intro n hn
    rw [List.mem_singleton.mp hn]
    exact ids.free_not_mem preferred
  issued := fun n => by simp [issue]

/-- Names given one after the other. -/
theorem issueAll_issues (ids : CellIds) (preferred : List String) :
    Issues ids (ids.issueAll preferred).1 (ids.issueAll preferred).2 := by
  induction preferred generalizing ids with
  | nil => exact Issues.nil ids
  | cons p ps ih =>
    rw [issueAll]
    exact (ids.issue_issues p).append (ih (ids.issue p).2)

/-- All requests are answered with new names, one for each. -/
theorem issues_of_issueAll {preferred : List String} (h : ids.issueAll preferred = (names, ids₁)) :
    Issues ids names ids₁ ∧ names.length = preferred.length := by
  have hissues := ids.issueAll_issues preferred
  have hlength := ids.length_issueAll preferred
  rw [h] at hissues hlength
  exact ⟨hissues, hlength⟩

end Diagrams.Drawio.CellIds
