import Diagrams.Graph.Digraph
import Diagrams.Table

/-!
# Levels

A name's level is the length of the longest path that a walk from the roots finds to it.

* `Digraph.roots` — the names to which no arrow leads; the first name when arrows lead to all.
* `Digraph.levelsFrom` — the walk. It does not enter a name on its own path, and enters a name once
  more only on a longer path than before.
* `Digraph.levels` — the level of every name, zero for those that the walk does not reach.
-/

namespace Diagrams.Digraph

/-- The names to which no arrow leads, or the first name when there is none. -/
def roots (g : Digraph) (names : List String) : List String :=
  match names.filter fun n => !g.isTarget n with
  | [] => names.take 1
  | rs => rs

/-- Whether a level is new for a name, or higher than the one it has. -/
def raises (levels : Table Nat) (name : String) (level : Nat) : Bool :=
  match levels.get? name with
  | some l => l < level
  | none => true

/-- What a walk leaves behind. -/
structure Walk where
  /-- The levels. -/
  levels : Table Nat
  /-- The names that were entered with the levels they got, one after the other. -/
  entered : List (String × Nat)

/-- One name is entered. -/
def Walk.enter (levels : Table Nat) (name : String) (level : Nat) : Walk :=
  ⟨levels.insert name level, [(name, level)]⟩

/-- One walk and another one, which finds the levels that the first one leaves. -/
def Walk.followedBy (w : Walk) (next : Table Nat → Walk) : Walk :=
  let after := next w.levels
  ⟨after.levels, w.entered ++ after.entered⟩

/-- The walk to the targets, which follow the path and would get the given level. -/
def walk (g : Digraph) (path : List String) (level : Nat) (targets : List String)
    (levels : Table Nat) : Walk :=
  match targets with
  | [] => ⟨levels, []⟩
  | b :: rest =>
    if _h : b ∈ path then walk g path level rest levels
    else if raises levels b level then
      ((Walk.enter levels b level).followedBy
        (walk g (b :: path) (level + 1) (g.next b))).followedBy (walk g path level rest)
    else walk g path level rest levels
termination_by (g.unseen path, targets.length)
decreasing_by
  · exact Prod.Lex.right _ (by simp)
  · exact g.unseen_lex _h rest
  · exact Prod.Lex.right _ (by simp)
  · exact Prod.Lex.right _ (by simp)

/-- The levels of the names that a walk from the roots reaches. -/
def levelsFrom (g : Digraph) (roots : List String) : Table Nat := (g.walk [] 0 roots []).levels

/-- The level of every name. -/
def levels (g : Digraph) (names roots : List String) : Table Nat :=
  names.foldl (fun t n => t.insertNew n 0) (g.levelsFrom roots)

end Diagrams.Digraph
