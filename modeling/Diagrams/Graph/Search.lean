import Diagrams.Graph.Digraph

/-!
# Depth-first search

* `Forest` — the names that a search meets, in the order in which it meets them: for the first time
  with the names below, or again.
* `Digraph.search` — the search from some names, given the names already seen.
* `search_cons_of_mem`, `search_cons_of_not_mem` — how the search goes on at a name.

Layouts and outlines are computed from the forest by recursion on it; only the search has to deal
with cycles.
-/

namespace Diagrams

/-- What a search meets. -/
inductive Forest where
  /-- Nothing more. -/
  | nil
  /-- A name that was seen before. -/
  | again (name : String) (rest : Forest)
  /-- A name that was not seen before, with what is met below it. -/
  | first (name : String) (below rest : Forest)
  deriving DecidableEq, Repr

namespace Forest

/-- How many names are met side by side. -/
def degree : Forest → Nat
  | nil => 0
  | again _ rest => degree rest + 1
  | first _ _ rest => degree rest + 1

/-- The names met side by side. -/
def heads : Forest → List String
  | nil => []
  | again name rest => name :: heads rest
  | first name _ rest => name :: heads rest

/-- The names met for the first time, each before the names below it. -/
def names : Forest → List String
  | nil => []
  | again _ rest => names rest
  | first name below rest => name :: names below ++ names rest

/-- The names met for the first time, with how deep they are below the heads. -/
def outline (depth : Nat) : Forest → List (Nat × String)
  | nil => []
  | again _ rest => outline depth rest
  | first name below rest => (depth, name) :: outline (depth + 1) below ++ outline depth rest

end Forest

namespace Digraph

/-- The search from the targets: what it meets, and the names seen afterwards, among them all that
were seen before. -/
def explore (g : Digraph) (seen : List String) (targets : List String) :
    { r : Forest × List String // seen ⊆ r.2 } :=
  match targets with
  | [] => ⟨(.nil, seen), fun _ => id⟩
  | b :: rest =>
    if _h : b ∈ seen then
      let after := explore g seen rest
      ⟨(.again b after.1.1, after.1.2), after.2⟩
    else
      let below := explore g (b :: seen) (g.next b)
      have hs : seen ⊆ below.1.2 := fun _ hx => below.2 (List.mem_cons_of_mem b hx)
      let after := explore g below.1.2 rest
      ⟨(.first b below.1.1 after.1.1, after.1.2), fun _ hx => after.2 (hs hx)⟩
termination_by (g.unseen seen, targets.length)
decreasing_by
  · exact Prod.Lex.right _ (by simp)
  · exact g.unseen_lex _h rest
  · exact Prod.Lex.right' _ (g.unseen_le hs) (by simp)

/-- What a search from the targets meets, and the names seen afterwards. -/
def search (g : Digraph) (seen targets : List String) : Forest × List String :=
  (g.explore seen targets).1

/-- Without targets nothing is met. -/
@[simp] theorem search_nil (g : Digraph) (seen : List String) :
    g.search seen [] = (.nil, seen) := by
  simp [search, explore]

/-- A name seen before is passed over. -/
theorem search_cons_of_mem (g : Digraph) {seen : List String} {b : String} (h : b ∈ seen)
    (rest : List String) :
    g.search seen (b :: rest) =
      (.again b (g.search seen rest).1, (g.search seen rest).2) := by
  rw [search, explore]
  simp [h, search]

/-- Below a new name the search goes on where the name's arrows lead, and then beside it. -/
theorem search_cons_of_not_mem (g : Digraph) {seen : List String} {b : String} (h : b ∉ seen)
    (rest : List String) :
    g.search seen (b :: rest) =
      (.first b (g.search (b :: seen) (g.next b)).1
          (g.search (g.search (b :: seen) (g.next b)).2 rest).1,
        (g.search (g.search (b :: seen) (g.next b)).2 rest).2) := by
  rw [search, explore]
  simp [h, search]

end Digraph

end Diagrams
