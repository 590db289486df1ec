import Diagrams.Proofs.Drawio.CellIds
import Mathlib.Data.Set.Insert

/-!
# Requests for names

A name for a cell is searched: the preferred name is tried first, then the preferred name with the
numbers behind it, one after the other, until a name is tried that is not given yet.

**Main statement** (`issueAll_answers`): whatever names are asked for in a document, one after the
other, each search ends. The names given are distinct and none of them is `0` or `1`. A name that is
not given yet is given as it is, and any other one with the least number that makes it new.

* `Search` — the search, try after try. It ends with at most one name (`Search.unique`), and
  `search_free` says that it ends with `CellIds.free`.
* `Answers` — what one request is answered with, after the names that are given already.
-/

namespace Diagrams.Drawio.CellIds

variable {given : Set String} {preferred candidate name name' : String} {k n : Nat}

/-! ### The search -/

/-- The search for a new name has come to a candidate, has the next number at hand and ends with a
name. -/
inductive Search (given : Set String) (preferred : String) : String → Nat → String → Prop where
  /-- The candidate is not given yet. -/
  | found {candidate : String} {k : Nat} (h : candidate ∉ given) :
      Search given preferred candidate k candidate
  /-- The candidate is given already: the search goes on with the next number. -/
  | next {candidate name : String} {k : Nat} (h : candidate ∈ given)
      (hnext : Search given preferred (numbered preferred k) (k + 1) name) :
      Search given preferred candidate k name

/-- A search finds one name. -/
theorem Search.unique (h : Search given preferred candidate k name)
    (h' : Search given preferred candidate k name') : name = name' := by
  induction h with
  | found hnew =>
    cases h' with
    | found => rfl
    | next hgiven => exact absurd hgiven hnew
  | next hgiven _ ih =>
    cases h' with
    | found hnew => exact absurd hgiven hnew
    | next _ hnext => exact ih hnext

/-- A search that has come to a number goes on to the first one that is free. -/
theorem search_numbered (hnew : numbered preferred n ∉ given) (hkn : k ≤ n)
    (hgiven : ∀ j, k ≤ j → j < n → numbered preferred j ∈ given) :
    Search given preferred (numbered preferred k) (k + 1) (numbered preferred n) := by
  induction hkn using Nat.decreasingInduction with
  | self => exact .found hnew
  | of_succ k hk ih =>
    exact .next (hgiven k le_rfl hk) (ih fun j hj => hgiven j (Nat.le_of_succ_le hj))

/-- The search ends, and the name found is the one that it ends with. -/
theorem search_free (ids : CellIds) (preferred : String) :
    Search {n | n ∈ ids.issued} preferred preferred 1 (ids.free preferred) := by
  by_cases h : preferred ∈ ids.issued
  · obtain ⟨k, ⟨⟨hk, hnew⟩, hleast⟩, hfree⟩ := exists_free_eq_numbered h
    rw [hfree]
    refine .next h (search_numbered hnew hk fun j hj hjk => ?_)
    by_contra hfree
    exact absurd (hleast ⟨hj, hfree⟩) (Nat.not_le_of_lt hjk)
  · rw [free_of_not_mem h]
    exact .found h

/-! ### Answers -/

/-- What a request is answered with when some names are given already. -/
structure Answers (given : Set String) (request name : String) : Prop where
  /-- The search ends, with this name and no other. -/
  search : ∀ found, Search given request request 1 found ↔ found = name
  /-- A name that is not given yet is given as it is. -/
  unchanged : request ∉ given → name = request
  /-- Otherwise the least number that makes it new is put behind it. -/
  least : request ∈ given →
    ∃ k, IsLeast {k | 1 ≤ k ∧ numbered request k ∉ given} k ∧ name = numbered request k

/-- The name that is free answers the request. -/
theorem answers_free (ids : CellIds) (request : String) :
    Answers {n | n ∈ ids.issued} request (ids.free request) where
  search found := by
    constructor
    · exact fun h => h.unique (ids.search_free request)
    · rintro rfl
      exact ids.search_free request
  unchanged h := free_of_not_mem h
  least h := exists_free_eq_numbered h

/-- **Run.** Each request is answered after the names that were given before it. -/
theorem exists_answers_issueAll (ids : CellIds) (requests : List String) (i : Fin requests.length) :
    ∃ name, (ids.issueAll requests).1[(i : Nat)]? = some name ∧
      Answers ({n | n ∈ ids.issued} ∪ {n | n ∈ (ids.issueAll requests).1.take i})
        requests[i] name := by
  induction requests generalizing ids with
  | nil => exact i.elim0
  | cons p rest ih =>
    cases i using Fin.cases with
    | zero =>
      refine ⟨ids.free p, rfl, ?_⟩
      simpa using ids.answers_free p
    | succ i =>
      obtain ⟨name, hname, hanswers⟩ := ih (ids.issue p).2 i
      -- the name for the first request counts among the given ones for the later requests
      have hgiven : {n | n ∈ ids.issued} ∪ {n | n ∈ (ids.issueAll (p :: rest)).1.take i.succ} =
          {n | n ∈ (ids.issue p).2.issued} ∪
            {n | n ∈ ((ids.issue p).2.issueAll rest).1.take i} := by
        ext n
        simp [issueAll, issue, or_assoc, or_left_comm]
      refine ⟨name, hname, ?_⟩
      rw [hgiven]
      exact hanswers

/-- **Main statement.** Names are asked for in a new document, one after the other. As many are given;
they are distinct and none of them is `0` or `1`, and each request is answered after these two and
the names that were given before it. -/
theorem issueAll_answers (requests : List String) :
    let names := (({} : CellIds).issueAll requests).1
    names.length = requests.length ∧ names.Nodup ∧ "0" ∉ names ∧ "1" ∉ names ∧
      ∀ i : Fin requests.length, ∃ name, names[(i : Nat)]? = some name ∧
        Answers ({"0", "1"} ∪ {n | n ∈ names.take i}) requests[i] name := by
  intro names
  have hissues := ({} : CellIds).issueAll_issues requests
  have hreserved : {n | n ∈ ({} : CellIds).issued} = ({"0", "1"} : Set String) := by
    ext n
    simp
  refine ⟨length_issueAll {} requests, hissues.nodup, fun h => ?_, fun h => ?_, fun i => ?_⟩
  · exact hissues.fresh "0" h (by decide)
  · exact hissues.fresh "1" h (by decide)
  · rw [← hreserved]
    exact exists_answers_issueAll {} requests i

/-- A name that looks like a numbered one is asked for before the number is needed. -/
example : (({} : CellIds).issueAll ["A", "A_1", "A", "1"]).1 = ["A", "A_1", "A_2", "1_1"] := by
  decide

end Diagrams.Drawio.CellIds
