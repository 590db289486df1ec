import Diagrams.Files.Tree

/-!
# What was written is read

**Main statement** (`Tree.read_of_write`): a text that was written to a path is read from it.

Writing a file leaves every folder where it was, so the way to the file leads to the same place
afterwards (`Tree.place_set`). What is read is never larger than a file can be
(`Tree.size_of_read`).
-/

namespace Diagrams.Files.Tree

variable {t t' : Tree} {p : Path} {text : String}

/-- A folder stays a folder when something else is changed. -/
theorem get?_set_of_folder {place other : Place} (e : Entry) (hplace : t.get? place ≠ some .folder)
    (hother : t.get? other = some .folder) : (t.set place e).get? other = some .folder := by
  cases hbase : other.isBase with
  | true => rw [get?, if_pos hbase]
  | false =>
    have hne : place ≠ other := by
      rintro rfl
      exact hplace hother
    rw [get?_set t place e other hbase, if_neg hne, hother]

/-- What is put at a place that holds no folder is found there. -/
theorem get?_set_self {place : Place} (e : Entry) (hplace : t.get? place ≠ some .folder) :
    (t.set place e).get? place = some e := by
  have hbase : place.isBase = false := by
    rw [Bool.eq_false_iff]
    exact fun hc => hplace (by rw [get?, if_pos hc])
  rw [get?_set t place e place hbase, if_pos rfl]

/-- A way through folders leads to the same place when something else is changed. -/
theorem walk_set {place start last : Place} {steps : List String} (e : Entry)
    (hplace : t.get? place ≠ some .folder) (h : t.walk start steps = .ok last) :
    (t.set place e).walk start steps = .ok last := by
  induction steps generalizing start with
  | nil => exact h
  | cons s rest ih =>
    rw [walk] at h
    split at h
    · rename_i hfolder
      rw [walk, get?_set_of_folder e hplace hfolder]
      split at h
      · cases h
      · rename_i hsize
        exact (if_neg hsize).trans (ih h)
    · cases h
    · cases h

/-- A path leads to the same place when something other than a folder is changed. -/
theorem place_set {place last : Place} (e : Entry) (hplace : t.get? place ≠ some .folder)
    (h : t.place p = .ok last) : (t.set place e).place p = .ok last := by
  unfold Tree.place at h ⊢
  split at h
  · cases h
  rename_i hnull
  split at h
  · cases h
  rename_i hempty
  split at h
  · cases h
  rename_i hsize
  rw [if_neg hnull, if_neg hempty, if_neg hsize]
  exact walk_set e hplace h

/-- Writing puts the text at the place of the path, where no folder was. -/
theorem eq_set_of_write (h : t.write p text = .ok t') :
    ∃ place, t.place p = .ok place ∧ t.get? place ≠ some .folder ∧
      text.utf8ByteSize ≤ maxFileSize ∧ t' = t.set place (.file text) := by
  unfold write at h
  split at h
  · cases h
  · rename_i place hplace
    split at h
    · cases h
    · rename_i hfolder
      split at h
      · cases h
      · rename_i hsize
        exact ⟨place, hplace, hfolder, Nat.not_lt.mp hsize, (Except.ok.inj h).symm⟩

/-- A text that was written is read. -/
theorem read_of_write (h : t.write p text = .ok t') : t'.read p = .ok text := by
  obtain ⟨place, hplace, hfolder, hsize, rfl⟩ := eq_set_of_write h
  rw [read, place_set (.file text) hfolder hplace]
  dsimp only
  rw [get?_set_self (.file text) hfolder]
  exact if_neg (Nat.not_lt.mpr hsize)

/-- What is read is in a file, and no larger than a file can be. -/
theorem exists_place_of_read (h : t.read p = .ok text) :
    ∃ place, t.place p = .ok place ∧ t.get? place = some (.file text) ∧
      text.utf8ByteSize ≤ maxFileSize := by
  unfold read at h
  split at h
  · cases h
  · rename_i place hplace
    split at h
    · rename_i hfile
      split at h
      · cases h
      · rename_i hsize
        cases h
        exact ⟨place, hplace, hfile, Nat.not_lt.mp hsize⟩
    · cases h
    · cases h

/-- Where a text is read there is a file. -/
theorem kind?_of_read (h : t.read p = .ok text) : t.kind? p = .ok (some .file) := by
  obtain ⟨place, hplace, hfile, -⟩ := exists_place_of_read h
  rw [kind?, hplace]
  dsimp only
  rw [hfile]
  rfl

/-- What is read is not larger than a file can be. -/
theorem size_of_read (h : t.read p = .ok text) : text.utf8ByteSize ≤ maxFileSize := by
  obtain ⟨-, -, -, hsize⟩ := exists_place_of_read h
  exact hsize

/-- A path to which a text can be written holds no null character. -/
theorem hasNull_of_write (h : t.write p text = .ok t') : p.hasNull = false := by
  obtain ⟨place, hplace, -⟩ := eq_set_of_write h
  unfold Tree.place at hplace
  split at hplace
  · cases hplace
  · rename_i hnull
    exact Bool.eq_false_iff.mpr hnull

end Diagrams.Files.Tree
