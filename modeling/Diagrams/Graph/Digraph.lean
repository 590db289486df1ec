/-!
# Directed graphs

A graph is a list of arrows between names; the order of the arrows is the order in which they are
followed, and an arrow may occur more than once.

* `Digraph.next` — where the arrows from a name lead.
* `Digraph.within` — the arrows between names of a list.
* `Digraph.unseen` — how many arrows start outside of a list. Walks through a graph keep a list of
  names that they do not enter again, and end because this number falls (`unseen_lex`).
-/

namespace Diagrams

/-- A list of arrows, each from a name to a name. -/
structure Digraph where
  /-- The arrows. -/
  arrows : List (String × String)
  deriving DecidableEq, Repr

namespace Digraph

/-- Where the arrows from a name lead, in the order of the arrows. -/
def next (g : Digraph) (a : String) : List String :=
  (g.arrows.filter fun r => r.1 == a).map (·.2)

/-- Whether an arrow leads to the name. -/
def isTarget (g : Digraph) (b : String) : Bool := g.arrows.any fun r => r.2 == b

/-- The arrows between names of the list. -/
def within (g : Digraph) (names : List String) : Digraph :=
  ⟨g.arrows.filter fun r => names.contains r.1 && names.contains r.2⟩

/-- How many arrows start at names that are not in the list. -/
def unseen (g : Digraph) (seen : List String) : Nat :=
  (g.arrows.filter fun r => !seen.contains r.1).length

/-- A longer list leaves no more arrows. -/
theorem unseen_le (g : Digraph) {seen seen' : List String} (h : seen ⊆ seen') :
    g.unseen seen' ≤ g.unseen seen := by
  unfold unseen
  rw [← List.countP_eq_length_filter, ← List.countP_eq_length_filter]
  apply List.countP_mono_left
  intro r _ hr
  simp only [Bool.not_eq_true', List.contains_eq_mem, decide_eq_false_iff_not] at hr ⊢
  exact fun hc => hr (h hc)

/-- A name from which an arrow starts leaves fewer arrows. -/
theorem unseen_lt (g : Digraph) {seen : List String} {a : String} (ha : a ∉ seen)
    (hn : g.next a ≠ []) : g.unseen (a :: seen) < g.unseen seen := by
  obtain ⟨r, hr⟩ : ∃ r, r ∈ g.arrows.filter fun r => r.1 == a := by
    apply List.exists_mem_of_ne_nil
    intro h
    exact hn (by simp [next, h])
  have hr := List.mem_filter.1 hr
  have hra : r.1 = a := by simpa using hr.2
  have : (g.arrows.filter fun r => !(a :: seen).contains r.1)
      = (g.arrows.filter fun r => !seen.contains r.1).filter fun r => r.1 != a := by
    rw [List.filter_filter]
    apply List.filter_congr
    intro r _
    by_cases h : r.1 = a <;> simp [h]
  unfold unseen
  rw [this]
  rw [List.length_filter_lt_length_iff_exists]
  exact ⟨r, List.mem_filter.2 ⟨hr.1, by simpa [hra] using ha⟩, by simp [hra]⟩

/-- Entering a name that is not seen leaves fewer arrows, or the name leads nowhere. -/
theorem unseen_lex (g : Digraph) {seen : List String} {a : String} (ha : a ∉ seen)
    (rest : List String) :
    Prod.Lex (· < ·) (· < ·) (g.unseen (a :: seen), (g.next a).length)
      (g.unseen seen, (a :: rest).length) := by
  by_cases hn : g.next a = []
  · have := g.unseen_le (List.subset_cons_self a seen)
    rw [hn]
    exact Prod.Lex.right' _ this (by simp)
  · exact Prod.Lex.left _ _ (g.unseen_lt ha hn)

end Digraph

end Diagrams
