import Diagrams.Graph.Digraph
import Diagrams.Table

/-!
# Widths

The width of a name is the number of columns that the names below it take: one when it leads
nowhere, otherwise the widths of all names it leads to, taken together. A name on the path from
where the counting began counts as one.

* `Digraph.widths` — the widths of several names taken together, with a memory of widths found.
* `Digraph.width` — the width of one name.

Without a memory every path is followed. With one, a name's width is counted once, so the work grows
with the number of arrows.
-/

namespace Diagrams.Digraph

/-- The widths of the targets taken together, and the memory afterwards. -/
def widths (g : Digraph) (path : List String) (memory : Option (Table Nat))
    (targets : List String) : Nat × Option (Table Nat) :=
  match targets with
  | [] => (0, memory)
  | b :: rest =>
    if _h : b ∈ path then
      let (w, memory) := widths g path memory rest
      (1 + w, memory)
    else
      match memory.bind (·.get? b) with
      | some v =>
        let (w, memory) := widths g path memory rest
        (v + w, memory)
      | none =>
        let (below, memory) := widths g (b :: path) memory (g.next b)
        let v := max 1 below
        let (w, memory) := widths g path (memory.map (·.insert b v)) rest
        (v + w, memory)
termination_by (g.unseen path, targets.length)
decreasing_by
  · exact Prod.Lex.right _ (by simp)
  · exact Prod.Lex.right _ (by simp)
  · exact g.unseen_lex _h rest
  · exact Prod.Lex.right _ (by simp)

/-- The width of a name, counted from the end of a path, and the memory afterwards. -/
def width (g : Digraph) (path : List String) (memory : Option (Table Nat)) (name : String) :
    Nat × Option (Table Nat) :=
  g.widths path memory [name]

end Diagrams.Digraph
