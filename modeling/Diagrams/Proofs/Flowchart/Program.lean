import Diagrams.Proofs.Flowchart.Statement
import Diagrams.Proofs.Reading.Mentions

/-!
# What a flowchart means

**Main statement** (`read_program`): the lines of a program are read as its meaning.

`meaning` tells what a list of statements means without running through it: the nodes are the names
in the order of their first mention, each with the last shape written for it; the edges are the
connections in their order; and every `end` before which a group is open makes a group of the names
mentioned since its start.

`known` is the state of the scan that goes with these notions. One statement leads from what is
known of the statements before it to what is known of them together (`step_known`), so a run does
(`foldl_known`), by induction on the last statement.
-/

namespace Diagrams.Flowchart

open Text

/-! ### Meaning -/

namespace Statement

/-- The nodes that a statement mentions. -/
def mentions : Statement → List Mention
  | connection c => [c.source, c.target]
  | declaration name _ shape => [⟨name, some shape⟩]
  | _ => []

/-- The connection, when the statement is one. -/
def connection? : Statement → Option Connection
  | connection c => some c
  | _ => none

/-- Whether a group starts. -/
def isOpener : Statement → Bool
  | opener _ => true
  | _ => false

/-- Whether a group ends. -/
def isCloser : Statement → Bool
  | closer => true
  | _ => false

/-- Whether a group starts or ends. -/
def isBoundary (s : Statement) : Bool := s.isOpener || s.isCloser

end Statement

/-- The mentions of a program in their order. -/
def mentions (p : List Statement) : List Mention := p.flatMap Statement.mentions

/-- The names that are mentioned, each once, in the order of the first mentions. -/
def names (ms : List Mention) : List String := (ms.map fun m => m.name.text).eraseDups

/-- The last shape that is written for a name. -/
def lastShape? (ms : List Mention) (id : String) : Option WrittenShape :=
  ms.reverse.findSome? fun m => if m.name.text = id then m.shape else none

/-- The node of a name: what its last shape says, or a rectangle labelled by the name. -/
def nodeOf (ms : List Mention) (id : String) : Node :=
  match lastShape? ms id with
  | some w => .shaped id w.label
  | none => .plain id

/-- The edge of a connection with `n` connections before it. -/
def Connection.edge (c : Connection) (n : Nat) : Edge :=
  { id := "e" ++ toString (n + 1), source := c.source.name.text, target := c.target.name.text,
    label := String.ofList (trim c.labelText), arrow := some c.arrow.style }

/-- The edges of a program. -/
def edges (p : List Statement) : List Edge :=
  (p.filterMap Statement.connection?).zipIdx.map fun x => x.1.edge x.2

/-- The group that is open after a program: the last start or end of a group is a start. Its members
are the names mentioned since then. -/
def openGroup? (p : List Statement) : Option Group :=
  match p.reverse.find? Statement.isBoundary with
  | some (.opener o) =>
    some ⟨o.name.text, String.ofList o.labelText,
      names (mentions (p.reverse.takeWhile fun s => !s.isBoundary).reverse)⟩
  | _ => none

/-- The groups of a program: each `end` makes one when a group is open before it. -/
def groups (p : List Statement) : List Group :=
  p.zipIdx.filterMap fun x => if x.1.isCloser then openGroup? (p.take x.2) else none

/-- What a program means. -/
def meaning (direction : Direction) (p : List Statement) : Diagram :=
  { kind := Dialect.flowchart, direction := some direction
    nodes := (names (mentions p)).map fun id => .node (nodeOf (mentions p) id)
    edges := (edges p).map .edge, groups := groups p }

/-! ### One more statement -/

variable {p : List Statement} {s : Statement} {ms : List Mention}

/-- The names are those of the mentions. -/
theorem mem_names {id : String} : id ∈ names ms ↔ ∃ m ∈ ms, m.name.text = id := by
  simp [names]

/-- A new name comes last. -/
theorem names_concat (ms : List Mention) (m : Mention) :
    names (ms ++ [m]) =
      if m.name.text ∈ names ms then names ms else names ms ++ [m.name.text] := by
  rw [names, List.map_append, List.map_singleton, eraseDups_concat, ← names]

/-- A name without a mention has no shape. -/
theorem lastShape?_of_notMem {id : String} (h : id ∉ names ms) : lastShape? ms id = none := by
  rw [lastShape?, List.findSome?_eq_none_iff]
  intro m hm
  rw [if_neg]
  intro hid
  exact h (mem_names.mpr ⟨m, List.mem_reverse.mp hm, hid⟩)

/-- A shape that is written replaces the shape of the name, and no other. -/
theorem nodeOf_concat (ms : List Mention) (m : Mention) (id : String) :
    nodeOf (ms ++ [m]) id =
      if id = m.name.text then
        match m.shape with
        | some w => .shaped id w.label
        | none => nodeOf ms id
      else nodeOf ms id := by
  by_cases hid : id = m.name.text
  · cases hshape : m.shape <;> simp [nodeOf, lastShape?, hid, hshape]
  · simp [nodeOf, lastShape?, hid, Ne.symm hid]

/-- The nodes by their names. -/
def nodeTable (ms : List Mention) : Table Node := (names ms).map fun id => (id, nodeOf ms id)

/-- What is known after some statements. -/
def known (p : List Statement) : Scan :=
  { nodes := nodeTable (mentions p), edges := edges p, groups := groups p,
    current := openGroup? p }

/-- A mention is noted among the nodes. -/
theorem declare_mention (scan : Scan) (h : scan.nodes = nodeTable ms) (m : Mention) :
    scan.declare m.target = { scan with nodes := nodeTable (ms ++ [m]) } := by
  have hnames : names (ms ++ [m]) = (ms.map (fun m => m.name.text) ++ [m.name.text]).eraseDups := by
    rw [names, List.map_append, List.map_singleton]
  have hinsert : ∀ w, m.shape = some w →
      Table.insert (nodeTable ms) m.name.text (.shaped m.name.text w.label) =
        nodeTable (ms ++ [m]) := by
    intro w hw
    refine (Table.insert_mentioned _ (nodeOf ms) _ _).trans ?_
    rw [← hnames]
    apply Table.tabulate_congr
    intro id _
    rw [nodeOf_concat, hw]
    split
    · rename_i hid
      rw [hid]
    · rfl
  have hinsertNew : m.shape = none →
      Table.insertNew (nodeTable ms) m.name.text (.plain m.name.text) = nodeTable (ms ++ [m]) := by
    intro hnone
    refine (Table.insertNew_mentioned (f := nodeOf ms) ?_).trans ?_
    · intro hm
      rw [nodeOf, lastShape?_of_notMem (mt List.mem_eraseDups.mp hm)]
    · rw [← hnames]
      apply Table.tabulate_congr
      intro id _
      rw [nodeOf_concat, hnone]
      split <;> rfl
  cases hshape : m.shape with
  | some w =>
    simp [Scan.declare, Mention.target, hshape, h, ofFragment_fragment, hinsert w hshape]
  | none => simp [Scan.declare, Mention.target, hshape, h, hinsertNew hshape]

/-- A mention is noted in a group. -/
theorem add_mention (id label : String) (ms : List Mention) (m : Mention) :
    Group.add ⟨id, label, names ms⟩ m.name.text = ⟨id, label, names (ms ++ [m])⟩ := by
  rw [Group.add, names_concat]
  split <;> rfl

/-- Other statements leave a group open and add to it. -/
theorem openGroup?_concat (h : s.isBoundary = false) :
    openGroup? (p ++ [s]) =
      (openGroup? p).map fun g => s.mentions.foldl (fun g m => g.add m.name.text) g := by
  have hadd : ∀ (id label : String) (ms ms' : List Mention),
      ms'.foldl (fun g m => g.add m.name.text) (⟨id, label, names ms⟩ : Group) =
        ⟨id, label, names (ms ++ ms')⟩ := by
    intro id label ms ms'
    induction ms' generalizing ms with
    | nil => simp
    | cons m ms' ih => simp [add_mention, ih]
  have hmentions : mentions ((p ++ [s]).reverse.takeWhile fun s => !s.isBoundary).reverse =
      mentions (p.reverse.takeWhile fun s => !s.isBoundary).reverse ++ s.mentions := by
    simp [mentions, h]
  have hfind : (p ++ [s]).reverse.find? Statement.isBoundary =
      p.reverse.find? Statement.isBoundary := by
    simp [h]
  rw [openGroup?, openGroup?, hfind, hmentions]
  split
  · simp [hadd]
  · rfl

/-- An `end` may make one more group. -/
theorem groups_concat (p : List Statement) (s : Statement) :
    groups (p ++ [s]) = groups p ++ if s.isCloser then (openGroup? p).toList else [] := by
  have hbefore : ∀ x ∈ p.zipIdx,
      (if x.1.isCloser then openGroup? ((p ++ [s]).take x.2) else none) =
        if x.1.isCloser then openGroup? (p.take x.2) else none := by
    rintro ⟨t, n⟩ hx
    have hn : n < p.length := by
      simpa using (List.mem_zipIdx hx).2.1
    rw [List.take_append_of_le_length hn.le]
  have hlast : (p ++ [s]).take (0 + p.length) = p := by
    simp
  rw [groups, List.zipIdx_append, List.filterMap_append, List.filterMap_congr hbefore, groups]
  congr 1
  rw [List.zipIdx_singleton, List.filterMap_cons, hlast]
  cases s.isCloser with
  | true => cases openGroup? p <;> simp
  | false => simp

/-- The connections are numbered in their order. -/
theorem edges_concat (p : List Statement) (s : Statement) :
    edges (p ++ [s]) =
      edges p ++ (s.connection?.toList.map fun c => c.edge (edges p).length) := by
  cases h : s.connection? <;> simp [edges, h, List.zipIdx_append]

/-- One more statement is mentioned after the others. -/
theorem mentions_concat (p : List Statement) (s : Statement) :
    mentions (p ++ [s]) = mentions p ++ s.mentions := by
  simp [mentions]

/-- A group that starts takes the place of one that is open. -/
theorem openGroup?_opener (p : List Statement) (o : Opener) :
    openGroup? (p ++ [.opener o]) = some ⟨o.name.text, String.ofList o.labelText, []⟩ := by
  simp [openGroup?, Statement.isBoundary, Statement.isOpener, mentions, names]

/-- After an `end` no group is open. -/
theorem openGroup?_closer (p : List Statement) : openGroup? (p ++ [.closer]) = none := by
  simp [openGroup?, Statement.isBoundary, Statement.isCloser]

/-- **Step.** One more statement is noted. -/
theorem step_known (p : List Statement) (s : Statement) :
    (known p).step s.line = known (p ++ [s]) := by
  cases s with
  | connection c =>
    have hsource := declare_mention (known p) rfl c.source
    have htarget := declare_mention ((known p).declare c.source.target)
      (by rw [hsource]) c.target
    have hgroup := openGroup?_concat (p := p) (s := .connection c) rfl
    rw [Statement.line, Scan.step, htarget, hsource]
    simp [Scan.join, known, mentions_concat, edges_concat, groups_concat, hgroup,
      Statement.mentions, Statement.connection?, Statement.isCloser, Connection.edge,
      Mention.target, Function.comp_def]
  | declaration name hne w =>
    have hdeclare := declare_mention (known p) rfl ⟨name, some w⟩
    have hgroup := openGroup?_concat (p := p) (s := .declaration name hne w) rfl
    simp only [Mention.target, Option.map_some] at hdeclare
    rw [Statement.line, Scan.step, hdeclare]
    simp [Scan.join, known, mentions_concat, edges_concat, groups_concat, hgroup,
      Statement.mentions, Statement.connection?, Statement.isCloser]
  | opener o =>
    simp [Statement.line, Scan.step, known, mentions_concat, edges_concat, groups_concat,
      openGroup?_opener, Statement.mentions, Statement.connection?, Statement.isCloser]
  | closer =>
    rw [Statement.line, Scan.step]
    cases hopen : openGroup? p <;>
      simp [known, mentions_concat, edges_concat, groups_concat, openGroup?_closer, hopen,
        Statement.mentions, Statement.connection?, Statement.isCloser]
  | blank =>
    have hgroup := openGroup?_concat (p := p) (s := .blank) rfl
    simp [Statement.line, Scan.step, known, mentions_concat, edges_concat, groups_concat, hgroup,
      Statement.mentions, Statement.connection?, Statement.isCloser]
  | comment text =>
    have hgroup := openGroup?_concat (p := p) (s := .comment text) rfl
    simp [Statement.line, Scan.step, known, mentions_concat, edges_concat, groups_concat, hgroup,
      Statement.mentions, Statement.connection?, Statement.isCloser]

/-- **Run.** All statements are noted. -/
theorem foldl_known (p : List Statement) :
    (p.map Statement.line).foldl Scan.step {} = known p := by
  induction p using List.reverseRecOn with
  | nil => rfl
  | append_singleton p s ih =>
    rw [List.map_append, List.foldl_append, ih]
    exact step_known p s

/-! ### Programs -/

/-- A line of a program: a statement with white space at the ends. -/
structure WrittenLine where
  /-- White space before the statement. -/
  before : Space
  /-- The statement. -/
  statement : Statement
  /-- White space after the statement. -/
  after : Space

/-- The characters of the line. -/
def WrittenLine.chars (l : WrittenLine) : List Char :=
  l.before.chars ++ (l.statement.chars ++ l.after.chars)

/-- Every line has the effect of its statement. -/
theorem foldl_feed (program : List WrittenLine) (scan : Scan) :
    (((program.map WrittenLine.chars).filter Source.isContent).map trim).foldl Scan.feed scan =
      (program.map fun l => l.statement.line).foldl Scan.step scan := by
  induction program generalizing scan with
  | nil => rfl
  | cons l program ih =>
    have hcontent : Source.isContent l.chars = l.statement.hasContent :=
      l.statement.isContent_line l.before l.after
    cases h : l.statement.hasContent with
    | true =>
      have hfeed : scan.feed (trim l.chars) = scan.step l.statement.line := by
        rw [Scan.feed, WrittenLine.chars, Statement.trim_line h, Statement.ofText_chars h]
      simp [hcontent, h, hfeed, ih]
    | false =>
      have hstep : scan.step l.statement.line = scan := by
        rcases Statement.eq_of_not_hasContent h with heq | ⟨text, heq⟩ <;> rw [heq] <;> rfl
      simp [hcontent, h, hstep, ih]

/-- After the lines of a program its statements are known. -/
theorem foldl_program (program : List WrittenLine) :
    (((program.map WrittenLine.chars).filter Source.isContent).map trim).foldl Scan.feed {} =
      known (program.map WrittenLine.statement) := by
  have hrun := foldl_known (program.map WrittenLine.statement)
  rw [List.map_map] at hrun
  exact (foldl_feed program {}).trans hrun

/-- **Main statement.** The lines of a program are read as its meaning, whatever white space stands
at their ends, before an arrow and before a target. -/
theorem read_program (direction : Direction) (program : List WrittenLine) :
    read direction (program.map WrittenLine.chars) =
      meaning direction (program.map WrittenLine.statement) := by
  rw [read, foldl_program, meaning]
  simp [known, nodeTable, Table.values, Function.comp_def]

/-- A connection with everything that may be written. -/
example :
    WrittenLine.chars
      { before := ⟨[' '], by decide⟩
        statement := .connection
          { source := ⟨⟨['A'], by decide, by decide⟩, some ⟨.stadium, ['x'], by decide, by decide⟩⟩
            source_ne := by decide
            beforeArrow := ⟨[' '], by decide⟩
            arrow := .solid
            label := some ⟨['y', 'e', 's'], by decide⟩
            beforeTarget := ⟨[' '], by decide⟩
            target := ⟨⟨['B'], by decide, by decide⟩, none⟩
            semicolons := 1 }
        after := ⟨['\r'], by decide⟩ } =
      " A([x]) -->|yes| B;\r".toList := by
  decide

end Diagrams.Flowchart
