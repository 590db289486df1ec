import Diagrams.Parse
import Diagrams.Proofs.Text.Pieces

/-!
# Outlines read as mindmaps

An outline is an ordered forest of topics. It is written with one line for each topic, each topic
before those below it, indented by two blanks for each level.

**Main statement** (`parse_text`): the text of an outline is read as its diagram, where the topics
are numbered in the order of their lines, each topic has its depth as its level, and an edge leads
from each topic to each one right below it.

A scan looks for the parent of a topic among the last topics of each depth, which it never forgets.
The lines of an outline at some depth write no place above that depth (`foldl_outline`), so the
parent of the outline's first topic is still in its place when the topics beside it come.
-/

namespace Diagrams.Mindmap

open Text

/-! ### Outlines -/

/-- The text of a topic. -/
structure Title extends Phrase where
  /-- It is no comment. -/
  not_comment : startsWith ['%', '%'] chars = false
  /-- It gives no picture. -/
  not_icon : startsWith "::icon(".toList chars = false

/-- An ordered forest of topics. -/
inductive Outline where
  /-- No topics. -/
  | nil
  /-- A topic with those below it and those after it. -/
  | topic (title : Title) (below rest : Outline)

namespace Outline

/-- How many topics there are. -/
def size : Outline → Nat
  | nil => 0
  | topic _ below rest => below.size + rest.size + 1

/-- The topics with their depths, each before those below it. -/
def topics (depth : Nat) : Outline → List (Nat × Title)
  | nil => []
  | topic title below rest => (depth, title) :: (below.topics (depth + 1) ++ rest.topics depth)

/-- The links from topics to those right below them, when the topics are numbered from `n`. The
outermost topics hang on the parent, if there is one. -/
def links (parent : Option Nat) (n : Nat) : Outline → List (Nat × Nat)
  | nil => []
  | topic _ below rest =>
    (parent.map fun p => (p, n)).toList ++
      (below.links (some n) (n + 1) ++ rest.links parent (n + 1 + below.size))

/-- There are as many topics as the outline is large. -/
theorem length_topics (o : Outline) (depth : Nat) : (o.topics depth).length = o.size := by
  induction o generalizing depth with
  | nil => rfl
  | topic title below rest ihBelow ihRest => simp [topics, size, ihBelow, ihRest]

/-! ### What an outline looks like -/

/-- The line of a topic. -/
def line (x : Nat × Title) : List Char := List.replicate (2 * x.1) ' ' ++ x.2.chars

/-- The text of an outline. -/
def text (o : Outline) : String :=
  String.ofList (unlines ("mindmap".toList :: (o.topics 0).map line))

/-! ### What an outline means -/

/-- The name of a topic. -/
def nodeName (n : Nat) : String := "node" ++ toString n

/-- The topic with a number and a depth. -/
def node (n depth : Nat) (title : Title) : Node :=
  let t := Topic.ofText title.chars
  { id := nodeName n, label := t.label, shape := t.shape, style := t.shape.look.style
    fill := some (levelColors depth).1, stroke := some (levelColors depth).2, level := some depth }

/-- The topics in their order. -/
def nodes (ts : List (Nat × Title)) : List Node := ts.zipIdx.map fun x => node x.2 x.1.1 x.1.2

/-- The edge of a link with `n` links before it. -/
def edge (n : Nat) (l : Nat × Nat) : Edge :=
  { id := "e" ++ toString (n + 1), source := nodeName l.1, target := nodeName l.2 }

/-- The edges in their order. -/
def edges (ls : List (Nat × Nat)) : List Edge := ls.zipIdx.map fun x => edge x.2 x.1

/-- The diagram of an outline. -/
def diagram (o : Outline) : Diagram :=
  { kind := Dialect.mindmap, direction := some Direction.lr
    nodes := (nodes (o.topics 0)).map .node, edges := (edges (o.links none 0)).map .edge }

/-- One more topic is one more node. -/
theorem nodes_concat (ts : List (Nat × Title)) (x : Nat × Title) :
    nodes (ts ++ [x]) = nodes ts ++ [node ts.length x.1 x.2] := by
  simp [nodes, List.zipIdx_append]

/-- One more link is one more edge. -/
theorem edges_concat (ls : List (Nat × Nat)) (l : Nat × Nat) :
    edges (ls ++ [l]) = edges ls ++ [edge ls.length l] := by
  simp [edges, List.zipIdx_append]

/-- There is a node for each topic. -/
theorem length_nodes (ts : List (Nat × Title)) : (nodes ts).length = ts.length := by
  simp [nodes]

/-- There is an edge for each link. -/
theorem length_edges (ls : List (Nat × Nat)) : (edges ls).length = ls.length := by
  simp [edges]

/-! ### Lines -/

/-- Spaces are white space. -/
theorem allBlank_replicate (n : Nat) : AllBlank (List.replicate n ' ') := by
  intro c hc
  rw [List.eq_of_mem_replicate hc]
  decide

/-- A line without its indentation is the title. -/
theorem trim_line (x : Nat × Title) : trim (line x) = x.2.chars := by
  rw [line, trim_append_left (allBlank_replicate _), x.2.trim_eq]

/-- A topic is as deep as it is indented. -/
theorem depth_line (x : Nat × Title) : depth (line x) = x.1 := by
  have hleft : trimLeft (line x) = x.2.chars := by
    rw [line, trimLeft_append (allBlank_replicate _)]
    simpa using x.2.trimLeft_append []
  rw [depth, hleft, line, List.length_append, List.length_replicate]
  omega

/-- The line of a topic counts. -/
theorem isContent_line (x : Nat × Title) :
    (Source.isContent (line x) && !isIcon (line x)) = true := by
  rw [Source.isContent, Source.isComment, isIcon, trim_line, x.2.not_comment, x.2.not_icon]
  simp [x.2.ne_nil]

/-- A title stands on one line. -/
theorem newline_notMem_line (x : Nat × Title) : '\n' ∉ line x := by
  simp [line, x.2.newline_notMem]

/-- A line ends with its topic. -/
theorem isBlank_getLast?_line (x : Nat × Title) (front : List Char) :
    ∀ c ∈ (front ++ line x).getLast?, isBlank c = false := by
  rw [line, ← List.append_assoc]
  exact x.2.isBlank_getLast? _

/-! ### The scan of an outline -/

/-- A scan has found some topics and some links. -/
structure Holds (s : Scan) (ts : List (Nat × Title)) (ls : List (Nat × Nat)) : Prop where
  /-- The topics. -/
  nodes : s.nodes = Outline.nodes ts
  /-- The links. -/
  edges : s.edges = Outline.edges ls

variable {s : Scan} {ts : List (Nat × Title)} {ls : List (Nat × Nat)} {parent : Option Nat}

/-- **Step.** A line adds its topic and the link to its parent. -/
theorem Holds.feed (h : Holds s ts ls) (x : Nat × Title)
    (hparent : s.parent? x.1 = parent.map nodeName) :
    Holds (s.feed (line x)) (ts ++ [x]) (ls ++ (parent.map fun p => (p, ts.length)).toList) := by
  rw [Scan.feed, depth_line, trim_line, Scan.add, hparent, h.nodes, h.edges, length_nodes,
    length_edges]
  constructor
  · rw [nodes_concat]
    rfl
  · cases parent with
    | none => simp
    | some p =>
      simp only [Option.map_some, Option.toList_some]
      rw [edges_concat]
      rfl

/-- A line takes its place among the last topics, and no other. -/
theorem Holds.last_feed (h : Holds s ts ls) (x : Nat × Title) (d : Nat) :
    (s.feed (line x)).last d = if d = x.1 then some (nodeName ts.length) else s.last d := by
  rw [Scan.feed, depth_line, trim_line, Scan.add, h.nodes, length_nodes]
  rfl

/-- **Run.** The lines of an outline add its topics and its links, and nothing that is less deep is
forgotten. -/
theorem foldl_outline (o : Outline) {d : Nat} (h : Holds s ts ls)
    (hparent : s.parent? d = parent.map nodeName) :
    Holds (((o.topics d).map line).foldl Scan.feed s) (ts ++ o.topics d)
        (ls ++ o.links parent ts.length) ∧
      ∀ d' < d, (((o.topics d).map line).foldl Scan.feed s).last d' = s.last d' := by
  induction o generalizing s ts ls parent d with
  | nil => exact ⟨by simpa [topics, links] using h, fun _ _ => rfl⟩
  | topic title below rest ihBelow ihRest =>
    have htopic := h.feed (d, title) hparent
    have hlast := h.last_feed (d, title)
    have hown : (s.feed (line (d, title))).parent? (d + 1) = (some ts.length).map nodeName := by
      rw [Scan.parent?, hlast, if_pos rfl, Option.map_some]
    obtain ⟨hbelow, hkept⟩ := ihBelow htopic hown
    -- the topics below have not written over the parent, nor has the topic itself
    have hparent' : (((below.topics (d + 1)).map line).foldl Scan.feed
        (s.feed (line (d, title)))).parent? d = parent.map nodeName := by
      rw [← hparent]
      cases d with
      | zero => rfl
      | succ d => rw [Scan.parent?, Scan.parent?, hkept d (by omega), hlast, if_neg (by simp)]
    obtain ⟨hrest, hkept'⟩ := ihRest hbelow hparent'
    simp only [topics, links, List.map_cons, List.map_append, List.foldl_cons, List.foldl_append]
    constructor
    · simpa [length_topics, Nat.add_assoc, Nat.add_comm, Nat.add_left_comm] using hrest
    · intro d' hd'
      rw [hkept' d' hd', hkept d' (by omega), hlast, if_neg (Nat.ne_of_lt hd')]

/-! ### Reading -/

/-- The lines of an outline are read as its diagram. -/
theorem read_lines (o : Outline) : Mindmap.read ((o.topics 0).map line) = o.diagram := by
  have hall : ((o.topics 0).map line).filter (fun l => Source.isContent l && !isIcon l) =
      (o.topics 0).map line := by
    rw [List.filter_eq_self]
    intro l hl
    obtain ⟨x, -, rfl⟩ := List.mem_map.mp hl
    exact isContent_line x
  have hstart : Holds {} [] [] := ⟨rfl, rfl⟩
  have hparent : ({} : Scan).parent? 0 = (none : Option Nat).map nodeName := rfl
  obtain ⟨⟨hnodes, hedges⟩, -⟩ := foldl_outline o hstart hparent
  rw [Mindmap.read, hall, hnodes, hedges, diagram]
  rfl

/-- The header stands at the start of the text. -/
theorem exists_unlines_eq (ls : List (List Char)) :
    ∃ rest, unlines ("mindmap".toList :: ls) = "mindmap".toList ++ rest := by
  cases ls with
  | nil => exact ⟨[], rfl⟩
  | cons l ls => exact ⟨'\n' :: unlines (l :: ls), rfl⟩

/-- No white space stands at the end of the text. -/
theorem isBlank_getLast?_unlines (xs : List (Nat × Title)) :
    ∀ c ∈ (unlines ("mindmap".toList :: xs.map line)).getLast?, isBlank c = false := by
  rcases List.eq_nil_or_concat xs with rfl | ⟨front, x, rfl⟩
  · exact isBlank_getLast?_concat (c := 'p') (by decide) "mindma".toList
  · obtain ⟨start, hstart⟩ := exists_join_concat '\n' ("mindmap".toList :: front.map line) (line x)
    have htext : unlines ("mindmap".toList :: (front ++ [x]).map line) = start ++ line x := by
      rw [← hstart, unlines, List.map_append, List.cons_append, List.map_singleton]
    rw [List.concat_eq_append, htext]
    exact isBlank_getLast?_line x start

/-- There is nothing to strip off the text of an outline. -/
theorem stripFences_text (o : Outline) :
    Source.stripFences o.text.toList = unlines ("mindmap".toList :: (o.topics 0).map line) := by
  obtain ⟨rest, hrest⟩ := exists_unlines_eq ((o.topics 0).map line)
  have hhead : ∀ c ∈ (unlines ("mindmap".toList :: (o.topics 0).map line)).head?,
      isBlank c = false := by
    rw [hrest]
    intro c hc
    obtain rfl := Option.some.inj hc
    decide
  rw [text, String.toList_ofList, Source.stripFences,
    trim_eq_self hhead (isBlank_getLast?_unlines (o.topics 0)), hrest]
  rfl

/-- **Main statement.** The text of an outline is read as its diagram. -/
theorem parse_text (o : Outline) : Diagram.parse o.text = .ok o.diagram := by
  have hlines : lines (unlines ("mindmap".toList :: (o.topics 0).map line)) =
      "mindmap".toList :: (o.topics 0).map line := by
    apply split_join (List.cons_ne_nil _ _)
    intro l hl
    rcases List.mem_cons.mp hl with rfl | hl
    · decide
    · obtain ⟨x, -, rfl⟩ := List.mem_map.mp hl
      exact newline_notMem_line x
  have hbody : Source.headerAndBody? ("mindmap".toList :: (o.topics 0).map line) =
      some ("mindmap".toList, (o.topics 0).map line) := rfl
  have hheader : Source.Declared.ofLine? "mindmap".toList = some .mindmap := by decide
  rw [Diagram.parse, stripFences_text, hlines, hbody]
  simp only [Source.readBody, hheader, read_lines]

end Outline

end Diagrams.Mindmap
