/-!
# Names of cells

No two cells of a document share a name.

* `CellIds` — the names given so far; the two cells that every document has come first.
* `CellIds.free` — a name that is not given yet: the preferred one, or the preferred one with the
  least number behind it that makes it new.
* `CellIds.issue`, `CellIds.issueAll` — names for one cell and for several.
-/

namespace Diagrams.Drawio

/-- The names given so far. -/
structure CellIds where
  /-- The names. -/
  issued : List String := ["0", "1"]
  deriving DecidableEq, Repr

namespace CellIds

/-- A preferred name with a number behind it. -/
def numbered (preferred : String) (k : Nat) : String := preferred ++ "_" ++ toString k

/-- A name that is not given yet. When the preferred one is given, fewer other names than there are
given ones can be in the way, so one of as many numbers is free. -/
def free (ids : CellIds) (preferred : String) : String :=
  if preferred ∈ ids.issued then
    numbered preferred <|
      ((List.range' 1 ids.issued.length).find? fun k => numbered preferred k ∉ ids.issued).getD 0
  else preferred

/-- A name for one cell, and the names given afterwards. -/
def issue (ids : CellIds) (preferred : String) : String × CellIds :=
  (ids.free preferred, ⟨ids.free preferred :: ids.issued⟩)

/-- Names for several cells, one after the other, and the names given afterwards. -/
def issueAll : CellIds → List String → List String × CellIds
  | ids, [] => ([], ids)
  | ids, preferred :: rest =>
    let first := ids.issue preferred
    let others := issueAll first.2 rest
    (first.1 :: others.1, others.2)

/-- As many names are given as are asked for. -/
theorem length_issueAll (ids : CellIds) (preferred : List String) :
    (ids.issueAll preferred).1.length = preferred.length := by
  induction preferred generalizing ids with
  | nil => rfl
  | cons p ps ih => simp [issueAll, ih]

end CellIds

end Diagrams.Drawio
