import Diagrams.Proofs.Text.Sublists

/-!
# How deep the topics of a text can be

**Main statement** (`isShallow_of_parse`): no node of a diagram that was read from text has a level
that is greater than the length of the text.

Only topics of mindmaps have levels, and the level of a topic is at most the length of its line
(`Mindmap.depth_le`). A line is a part of the text and so not longer
(`Source.sublist_of_headerAndBody?`).
-/

namespace Diagrams

/-! ### Levels -/

/-- The level of the node, if it has one, is within a bound. -/
def Element.IsShallow (bound : Nat) : Element → Prop
  | node n => ∀ level ∈ n.level, level.natAbs ≤ bound
  | _ => True

/-- A node without a level is shallow. -/
theorem Element.isShallow_of_level {n : Node} (h : n.level = none) (bound : Nat) :
    (Element.node n).IsShallow bound := by
  intro level hlevel
  rw [h] at hlevel
  cases hlevel

/-- A line is not deeper than it is long. -/
theorem Mindmap.depth_le (line : List Char) : depth line ≤ line.length :=
  Nat.le_trans (Nat.div_le_self _ _) (Nat.sub_le _ _)

/-- Topics are at most as deep as the lines are long. -/
theorem Mindmap.isShallow_read {bound : Nat} {lines : List (List Char)}
    (h : ∀ line ∈ lines, line.length ≤ bound) :
    ∀ n ∈ (Mindmap.read lines).nodes, n.IsShallow bound := by
  have hrun := List.foldlRecOn (lines.filter fun l => Source.isContent l && !isIcon l) Scan.feed
    (motive := fun s : Scan => ∀ n ∈ s.nodes, (Element.node n).IsShallow bound)
    (b := {}) (fun _ hn => absurd hn List.not_mem_nil) <| by
    intro s hs line hline n hn
    rcases List.mem_append.mp hn with hn | hn
    · exact hs n hn
    · rw [List.mem_singleton.mp hn]
      intro level hlevel
      cases hlevel
      exact Nat.le_trans (depth_le line) (h line (List.mem_filter.mp hline).1)
  intro n hn
  obtain ⟨m, hm, rfl⟩ := List.mem_map.mp hn
  exact hrun m hm

/-- The nodes of a flowchart have no levels, whatever its lines say. -/
theorem Flowchart.level_of_mem {lines : List (List Char)} :
    ∀ e ∈ (lines.foldl Scan.feed {}).nodes, e.2.level = none := by
  have hdeclare (s : Scan) (t : Target) (hs : ∀ e ∈ s.nodes, e.2.level = none) :
      ∀ e ∈ (s.declare t).nodes, e.2.level = none := by
    unfold Scan.declare
    split
    · exact Table.forall_insert hs rfl
    · exact Table.forall_insertNew hs rfl
  refine List.foldlRecOn (motive := fun s : Scan => ∀ e ∈ s.nodes, e.2.level = none) _ Scan.feed
    (fun _ he => absurd he List.not_mem_nil) ?_
  intro s hs line _
  unfold Scan.feed
  cases Line.ofText line with
  | groupStart id label => exact hs
  | groupEnd =>
    simp only [Scan.step]
    split <;> exact hs
  | connection source arrow label target => exact hdeclare _ target (hdeclare s source hs)
  | declaration id fragment => exact hdeclare s ⟨id, some fragment⟩ hs
  | ignored => exact hs

/-- Nodes of a flowchart are on no level. -/
theorem Flowchart.isShallow_read (bound : Nat) (direction : Direction) (lines : List (List Char)) :
    ∀ n ∈ (Flowchart.read direction lines).nodes, n.IsShallow bound := by
  intro n hn
  obtain ⟨m, hm, rfl⟩ := List.mem_map.mp hn
  obtain ⟨e, he, rfl⟩ := List.mem_map.mp hm
  exact Element.isShallow_of_level (level_of_mem e he) bound

/-- No level is greater than the longest of the lines. -/
theorem Source.isShallow_readBody {bound : Nat} (header : List Char) {body : List (List Char)}
    (h : ∀ line ∈ body, line.length ≤ bound) :
    ∀ n ∈ (Source.readBody header body).nodes, n.IsShallow bound := by
  unfold Source.readBody
  split
  · intro n hn
    obtain ⟨_, _, rfl⟩ := List.mem_map.mp hn
    trivial
  · intro n hn
    obtain ⟨_, _, rfl⟩ := List.mem_map.mp hn
    trivial
  · exact Mindmap.isShallow_read h
  · exact Flowchart.isShallow_read bound _ body
  · exact Flowchart.isShallow_read bound .td body
  · exact Flowchart.isShallow_read bound .td body

/-- No level of a diagram that was read from text is greater than the length of the text. -/
theorem isShallow_of_parse {code : String} {d : Diagram} (h : Diagram.parse code = .ok d) :
    ∀ n ∈ d.nodes, n.IsShallow code.toList.length := by
  obtain ⟨header, body, hbody, rfl⟩ := Diagram.eq_readBody_of_parse h
  exact Source.isShallow_readBody header fun line hline =>
    (Source.sublist_of_headerAndBody? hbody line hline).length_le

end Diagrams
