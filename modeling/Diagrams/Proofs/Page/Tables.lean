import Diagrams.Page.Review
import Diagrams.Proofs.Conversion
import Diagrams.Proofs.Page.Cells
import Diagrams.Proofs.Reading.Words

/-!
# Tables of pages

**Main statement** (`hasTables_of_parse`): every row of a table, on the page of a diagram that was
read from text and on the page of a review, is one line of the page. It has as many cells as the
header of its table and one more for each bar that is escaped in the texts of the row: a bar gets a
backslash in front, and the backslashes that stand there already stay as they are
(`uneven_of_escapedBar`).

The tables of a page and the texts in them are told by `Diagram.tableTexts` and
`Review.tableTexts`. Names, words and numbers stand in cells as they are; they hold no bars, because
names that are read are words and terms have a meaning (`Diagram.IsWorded`). All other texts
go through `Page.cell`.
-/

namespace Diagrams

namespace Page

/-! ### The tables of a page -/

/-- The header and the rows of a table. -/
def asTable? : Block → Option (List String × List (List String))
  | .table header rows => some (header, rows)
  | _ => none

/-- The tables of a page. -/
def tables (page : Page) : List (List String × List (List String)) := page.filterMap asTable?

/-- A page without blocks has no tables. -/
@[simp] theorem tables_nil : tables [] = [] := rfl

/-- The tables of a page are its blocks that are tables. -/
@[simp] theorem tables_cons (b : Block) (page : Page) :
    tables (b :: page) = (asTable? b).toList ++ tables page := by
  cases h : asTable? b <;> simp [tables, h]

/-- The tables of two pages are those of the first and then those of the second. -/
@[simp] theorem tables_append (page page' : Page) :
    tables (page ++ page') = tables page ++ tables page' := List.filterMap_append

/-- A heading is no table. -/
@[simp] theorem tables_chapter (title : String) : tables (chapter title) = [] := rfl

/-- Source text is no table. -/
@[simp] theorem tables_source (title code : String) : tables (source title code) = [] := rfl

/-- A list of nodes is no table. -/
@[simp] theorem tables_points (title : String) (nodes : List Node) :
    tables (points title nodes) = [] := rfl

/-- The tables of several parts are those of each part. -/
theorem tables_flatMap {α : Type} (part : α → Page) (xs : List α) :
    tables (xs.flatMap part) = xs.flatMap fun x => tables (part x) := List.filterMap_flatMap

/-! ### Lines of a page -/

/-- The line stands in the text between two newlines. -/
def HasLine (text line : String) : Prop :=
  ∃ before after, text = before ++ "\n" ++ line ++ "\n" ++ after

/-- A line stands in the text that is put together from it and other lines. -/
theorem hasLine_intercalate {above below : List String} (habove : above ≠ []) (hbelow : below ≠ [])
    (line : String) : HasLine ("\n".intercalate (above ++ line :: below)) line := by
  refine ⟨"\n".intercalate above, "\n".intercalate below, ?_⟩
  rw [String.intercalate_append_of_ne_nil habove (List.cons_ne_nil _ _),
    String.intercalate_cons_of_ne_nil hbelow]
  simp only [String.append_assoc]

/-- A page that starts with a heading and ends with an empty line. -/
structure IsFramed (page : Page) : Prop where
  /-- The first block. -/
  first : ∃ level title, page.head? = some (.heading level title)
  /-- The last block. -/
  last : page.getLast? = some .blank

/-- A page that starts with a heading and ends with the source is framed. -/
theorem isFramed_source {page : Page} {level : Nat} {title : String}
    (h : page.head? = some (.heading level title)) (title' code : String) :
    IsFramed (page ++ source title' code) where
  first := ⟨level, title, by rw [List.head?_append, h, Option.some_or]⟩
  last := List.getLast?_append

/-- The lines of a table are lines of the page. -/
theorem IsFramed.hasLine {page : Page} (h : page.IsFramed) {header : List String}
    {rows : List (List String)} (ht : (header, rows) ∈ tables page) {line : String}
    (hline : line ∈ (Block.table header rows).lines) : HasLine page.text line := by
  obtain ⟨b, hb, hbt⟩ := List.mem_filterMap.mp ht
  have hblock : b = .table header rows := by
    cases b with
    | table => cases hbt; rfl
    | _ => cases hbt
  subst hblock
  obtain ⟨before, after, rfl⟩ := List.append_of_mem hb
  obtain ⟨above, below, hlines⟩ := List.append_of_mem hline
  obtain ⟨level, title, hfirst⟩ := h.first
  have habove : before.flatMap Block.lines ++ above ≠ [] := by
    cases before with
    | nil => cases hfirst
    | cons b before =>
      cases hfirst
      exact List.cons_ne_nil _ _
  have hblank : .blank ∈ after := by
    have hlast := h.last
    rw [List.getLast?_append, List.getLast?_cons, Option.some_or, Option.some.injEq] at hlast
    cases hafter : after.getLast? with
    | none =>
      rw [hafter] at hlast
      cases hlast
    | some b =>
      rw [hafter] at hlast
      exact List.mem_of_getLast? (hafter.trans (congrArg some hlast))
  have hbelow : below ++ after.flatMap Block.lines ≠ [] :=
    List.append_ne_nil_of_right_ne_nil _
      (List.ne_nil_of_mem (List.mem_flatMap.mpr ⟨.blank, hblank, List.mem_singleton_self _⟩))
  have hall : (before ++ Block.table header rows :: after).flatMap Block.lines =
      (before.flatMap Block.lines ++ above) ++ line :: (below ++ after.flatMap Block.lines) := by
    rw [List.flatMap_append, List.flatMap_cons, hlines]
    simp only [List.append_assoc, List.cons_append]
  rw [Page.text, hall]
  exact hasLine_intercalate habove hbelow line

/-! ### Cells that stand as they are -/

/-- A text of word characters, backticks and dashes is a cell. -/
theorem isCell_of_isWord {text : String}
    (h : ∀ c ∈ text.toList, Text.isWord c = true ∨ c = '\x60' ∨ c = '-') : IsCell text :=
  isCell_of_notMem (fun hbar => absurd (h _ hbar) (by decide))
    fun hnewline => absurd (h _ hnewline) (by decide)

/-- A number is a cell. -/
theorem isCell_natRepr (n : Nat) : IsCell (toString n) :=
  isCell_of_isWord fun c hc => .inl (Text.isRun_natRepr n c hc)

/-- A number with a sign is a cell. -/
theorem isCell_intRepr (n : Int) : IsCell (toString n) := by
  cases n with
  | ofNat n => exact isCell_natRepr n
  | negSucc n =>
    have hchars : (toString (Int.negSucc n)).toList = '-' :: (toString (n + 1)).toList :=
      String.toList_append
    refine isCell_of_isWord fun c hc => ?_
    rw [hchars, List.mem_cons] at hc
    rcases hc with rfl | hc
    · exact .inr (.inr rfl)
    · exact .inl (Text.isRun_natRepr (n + 1) c hc)

/-- A name in quotes is a cell. -/
theorem isCell_quoted {name : String} (h : Text.IsRun name) : IsCell (quoted name) := by
  have hchars : (quoted name).toList = '\x60' :: (name.toList ++ ['\x60']) := by
    simp [quoted]
  refine isCell_of_isWord fun c hc => ?_
  rw [hchars, List.mem_cons, List.mem_append, List.mem_singleton] at hc
  rcases hc with rfl | hc | rfl
  · exact .inr (.inl rfl)
  · exact .inl (h c hc)
  · exact .inr (.inl rfl)

/-- The title of a known shape is a cell. -/
theorem isCell_shapeTitle {shape : Term Shape} (h : shape.IsKnown) : IsCell (shapeTitle shape) := by
  obtain ⟨s, rfl⟩ := h
  cases s <;> decide

/-- The role of a node is a cell. -/
theorem isCell_role (n : Node) : IsCell n.role := by
  unfold Node.role
  split
  · split
    · decide
    · split <;> decide
  all_goals decide

/-- The name of a known pattern is a cell. -/
theorem isCell_pattern {p : Term LinePattern} (h : p.IsKnown) : IsCell p.name := by
  obtain ⟨p, rfl⟩ := h
  cases p <;> decide

/-- The title of a message is a cell. -/
theorem isCell_messageTitle (m : Message) : IsCell (messageTitle m) := by
  unfold messageTitle
  split <;> split <;> decide

/-- A character of a joined text is one of the mark or of the texts. -/
theorem notMem_intercalate {c : Char} {mark : String} (hmark : c ∉ mark.toList)
    {texts : List String} (h : ∀ t ∈ texts, c ∉ t.toList) : c ∉ (mark.intercalate texts).toList := by
  induction texts with
  | nil => simp
  | cons t rest ih =>
    have hrest := ih fun u hu => h u (List.mem_cons_of_mem t hu)
    have ht := h t List.mem_cons_self
    cases rest with
    | nil => simpa using ht
    | cons u rest =>
      rw [String.intercalate_cons_cons, String.toList_append, String.toList_append]
      simp only [List.mem_append, ht, hmark, hrest, or_self, not_false_eq_true]

/-- The names of known keys are a cell. -/
theorem isCell_keys {keys : List (Term Key)} (h : ∀ k ∈ keys, k.IsKnown) :
    IsCell (", ".intercalate (keys.map Term.name)) := by
  have hkey : ∀ c, c = '|' ∨ c = '\n' → ∀ t ∈ keys.map Term.name, c ∉ t.toList := by
    intro c hc t ht
    obtain ⟨k, hk, rfl⟩ := List.mem_map.mp ht
    obtain ⟨k, rfl⟩ := h k hk
    rcases hc with rfl | rfl <;> cases k <;> decide
  exact isCell_of_notMem (notMem_intercalate (by decide) (hkey _ (.inl rfl)))
    (notMem_intercalate (by decide) (hkey _ (.inr rfl)))

/-- A mark such as two bars is a cell, since its bars get a backslash and none stands in it. -/
theorem isCell_marks {m m' : Term Cardinality} (h : m.IsKnown) (h' : m'.IsKnown) :
    IsCell (cell m.name ++ " → " ++ cell m'.name) := by
  have hmark : ∀ m : Term Cardinality, m.IsKnown →
      backslashes m.name.toList = 0 ∧ escapedBars m.name = 0 := by
    rintro _ ⟨m, rfl⟩
    cases m <;> decide
  have hcell : ∀ m : Term Cardinality, m.IsKnown → bars false (cell m.name).toList = 0 :=
    fun m hm => (boundaries_cell m.name).trans (hmark m hm).2
  have hclosed : backslashes (cell m.name).toList = 0 := by
    rw [toList_cell, backslashes_cellChars, (hmark m h).1]
  constructor
  · rw [String.toList_append, String.toList_append]
    simp [newline_notMem_cell]
  · rw [boundaries, String.toList_append, String.toList_append, List.append_assoc,
      bars_append hclosed, hcell m h, bars_append (by decide), hcell m' h']
    decide

/-! ### Rows -/

/-- Rows that hold the texts of some parts form a table. -/
theorem IsTable.of_map {α : Type} {header : List String} (hne : header ≠ [])
    (hheader : ∀ c ∈ header, IsCell c) {xs : List α} {row texts : α → List String}
    (h : ∀ x ∈ xs, (row x).length = header.length ∧ IsRowOf (row x) (texts x)) :
    IsTable header (xs.map row) (xs.map texts) := by
  refine .of_rows hne hheader ?_
  rw [List.forall₂_map_left_iff, List.forall₂_map_right_iff, List.forall₂_same]
  exact h

/-- The same when the rows are numbered. -/
theorem IsTable.of_zipIdx {α : Type} {header : List String} (hne : header ≠ [])
    (hheader : ∀ c ∈ header, IsCell c) {xs : List α} {row : Nat → α → List String}
    {texts : α → List String}
    (h : ∀ x ∈ xs, ∀ i, (row i x).length = header.length ∧ IsRowOf (row i x) (texts x)) :
    IsTable header (xs.zipIdx.map fun p => row p.2 p.1) (xs.map texts) := by
  have htexts : xs.map texts = xs.zipIdx.map fun p => texts p.1 := by
    conv_lhs => rw [← List.zipIdx_map_fst 0 xs, List.map_map]
    rfl
  rw [htexts]
  exact .of_map hne hheader fun p hp => h p.1 (List.fst_mem_of_mem_zipIdx hp) p.2

/-- The table of nodes holds their labels. -/
theorem isTable_nodes {nodes : List Node} (h : ∀ n ∈ nodes, Text.IsRun n.id ∧ n.shape.IsKnown) :
    IsTable ["ID", "Label", "Shape", "Description"] (nodes.map nodeRow)
      (nodes.map fun n => [n.label]) := by
  refine .of_map (List.cons_ne_nil _ _) (by decide) fun n hn => ⟨Eq.refl 4, ?_⟩
  obtain ⟨hid, hshape⟩ := h n hn
  exact .plain (isCell_quoted hid) <| .text (holds_cell _) <| .plain (isCell_shapeTitle hshape) <|
    .plain (isCell_role n) .nil

/-- The table of edges holds their labels. -/
theorem isTable_edges {edges : List Edge}
    (hends : ∀ e ∈ edges, Text.IsRun e.source ∧ Text.IsRun e.target)
    (harrows : ∀ e ∈ edges, ∀ a ∈ e.arrow, a.line.IsKnown) :
    IsTable ["#", "From", "To", "Label", "Arrow Type"]
      (edges.zipIdx.map fun p => edgeRow p.2 p.1) (edges.map fun e => [e.label]) := by
  refine .of_zipIdx (List.cons_ne_nil _ _) (by decide) fun e he i => ⟨Eq.refl 5, ?_⟩
  obtain ⟨hsource, htarget⟩ := hends e he
  refine .plain (isCell_natRepr _) <| .plain (isCell_quoted hsource) <|
    .plain (isCell_quoted htarget) <| .text (holds_orDash _) <| .plain ?_ .nil
  split
  · rename_i a ha
    exact isCell_pattern (harrows e he a ha)
  · decide

/-- The table of participants holds their labels. -/
theorem isTable_participants {ps : List Element} (h : ∀ p ∈ ps, Text.IsRun p.id) :
    IsTable ["ID", "Name", "Type"] (ps.map participantRow) (ps.map fun p => [p.label]) := by
  refine .of_map (List.cons_ne_nil _ _) (by decide) fun p hp => ⟨Eq.refl 3, ?_⟩
  refine .plain (isCell_quoted (h p hp)) <| .text (holds_cell _) <| .plain ?_ .nil
  split <;> decide

/-- The table of messages holds their texts. -/
theorem isTable_messages {ms : List Message}
    (h : ∀ m ∈ ms, Text.IsRun m.source ∧ Text.IsRun m.target) :
    IsTable ["#", "From", "To", "Message", "Type"] (ms.zipIdx.map fun p => messageRow p.2 p.1)
      (ms.map fun m => [m.text]) := by
  refine .of_zipIdx (List.cons_ne_nil _ _) (by decide) fun m hm i => ⟨Eq.refl 5, ?_⟩
  obtain ⟨hsource, htarget⟩ := h m hm
  exact .plain (isCell_natRepr _) <| .plain (isCell_quoted hsource) <|
    .plain (isCell_quoted htarget) <| .text (holds_cell _) <| .plain (isCell_messageTitle m) .nil

/-- The table of what participants send and receive holds their labels. -/
theorem isTable_interactions (sent received : Table Nat) (ps : List Element) :
    IsTable ["Participant", "Messages Sent", "Messages Received"]
      (ps.map (interactionRow sent received)) (ps.map fun p => [p.label]) :=
  .of_map (List.cons_ne_nil _ _) (by decide) fun _ _ => ⟨Eq.refl 3,
    .text (holds_cell _) <| .plain (isCell_natRepr _) <| .plain (isCell_natRepr _) .nil⟩

/-- The table of attributes holds their types, names and comments. -/
theorem isTable_attributes {as : List Attribute} (h : ∀ a ∈ as, ∀ k ∈ a.keys, k.IsKnown) :
    IsTable ["Type", "Name", "Keys", "Comment"] (as.map attributeRow)
      (as.map fun a => [a.type, a.name, a.comment]) :=
  .of_map (List.cons_ne_nil _ _) (by decide) fun a ha => ⟨Eq.refl 4,
    .text (holds_cell _) <| .text (holds_cell _) <| .plain (isCell_keys (h a ha)) <|
      .text (holds_cell _) .nil⟩

/-- The table of relationships holds their labels. -/
theorem isTable_relationships {rs : List Relationship}
    (hends : ∀ r ∈ rs, Text.IsRun r.source ∧ Text.IsRun r.target)
    (hmarks : ∀ r ∈ rs, r.startMark.IsKnown ∧ r.endMark.IsKnown) :
    IsTable ["#", "Entity 1", "Cardinality", "Entity 2", "Description"]
      (rs.zipIdx.map fun p => relationshipRow p.2 p.1) (rs.map fun r => [r.label]) := by
  refine .of_zipIdx (List.cons_ne_nil _ _) (by decide) fun r hr i => ⟨Eq.refl 5, ?_⟩
  obtain ⟨hsource, htarget⟩ := hends r hr
  obtain ⟨hstart, hend⟩ := hmarks r hr
  exact .plain (isCell_natRepr _) <| .plain (isCell_quoted hsource) <|
    .plain (isCell_marks hstart hend) <| .plain (isCell_quoted htarget) <|
    .text (holds_orDash _) .nil

/-- A table of findings holds what is found and what is suggested. -/
theorem isTable_findings {column : String} (hcolumn : IsCell column) (findings : List Finding) :
    IsTable ["Line", column, "Suggestion"]
      (findings.map fun f => [toString f.line, cell f.issue, cell f.suggestion])
      (findings.map fun f => [f.issue, f.suggestion]) := by
  refine .of_map (List.cons_ne_nil _ _) ?_ fun f _ => ⟨Eq.refl 3,
    .plain (isCell_intRepr _) <| .text (holds_cell _) <| .text (holds_cell _) .nil⟩
  rw [List.forall_mem_cons, List.forall_mem_cons]
  exact ⟨by decide, hcolumn, by decide⟩

end Page

/-! ### Pages -/

/-- The texts in the tables of a diagram's page that are not names, words or numbers: table by table
and row by row, in the order of the cells. -/
def Diagram.tableTexts (d : Diagram) : List (List (List String)) :=
  match d.kind with
  | .known .sequence =>
    [d.participants.map fun p => [p.label]] ++
      (if d.messages = [] then [] else [d.messages.map fun m => [m.text]]) ++
      [d.participants.map fun p => [p.label]]
  | .known .entityRelationship =>
    (d.entities.flatMap fun e =>
      if e.attributes = [] then []
      else [e.attributes.map fun a => [a.type, a.name, a.comment]]) ++
      if d.relationships = [] then [] else [d.relationships.map fun r => [r.label]]
  | .known .mindmap => []
  | .known .flowchart | .other .. =>
    [d.nodes.map fun n => [n.label], d.edges.map fun e => [e.label]]

/-- The texts in the tables of a review's page, told in the same way. -/
def Review.tableTexts (r : Review) : List (List (List String)) :=
  (if r.issues = [] then [] else [r.issues.map fun f => [f.issue, f.suggestion]]) ++
    if r.warnings = [] then [] else [r.warnings.map fun f => [f.issue, f.suggestion]]

namespace Page

/-- The tables hold the texts, table by table and row by row. -/
def TablesHold (ts : List (List String × List (List String)))
    (texts : List (List (List String))) : Prop :=
  List.Forall₂ (fun t rows => IsTable t.1 t.2 rows) ts texts

/-- No tables hold nothing. -/
theorem tablesHold_nil : TablesHold [] [] := .nil

/-- A table holds its texts. -/
theorem IsTable.tablesHold {header : List String} {rows texts : List (List String)}
    (h : IsTable header rows texts) : TablesHold [(header, rows)] [texts] := .cons h .nil

/-- Tables hold the texts of the first ones and then those of the others. -/
theorem TablesHold.append {ts ts' : List (List String × List (List String))}
    {texts texts' : List (List (List String))} (h : TablesHold ts texts)
    (h' : TablesHold ts' texts') : TablesHold (ts ++ ts') (texts ++ texts') :=
  List.rel_append h h'

/-- The tables of several parts hold the texts of each part. -/
theorem TablesHold.flatMap {α : Type} {part : α → Page} {texts : α → List (List (List String))}
    {xs : List α} (h : ∀ x ∈ xs, TablesHold (tables (part x)) (texts x)) :
    TablesHold (tables (xs.flatMap part)) (xs.flatMap texts) := by
  induction xs with
  | nil => exact .nil
  | cons x rest ih =>
    rw [List.flatMap_cons, List.flatMap_cons, tables_append]
    exact (h x List.mem_cons_self).append (ih fun y hy => h y (List.mem_cons_of_mem x hy))

/-- The tables of a page hold the texts, and their rows are lines of the page. -/
structure HasTables (page : Page) (texts : List (List (List String))) : Prop where
  /-- The tables. -/
  tables : TablesHold page.tables texts
  /-- Their rows, the header's included. -/
  lines : ∀ t ∈ page.tables, ∀ cells ∈ t.1 :: t.2, HasLine page.text (Block.row cells)

/-- A page that is framed has its tables, if these hold their texts. -/
theorem IsFramed.hasTables {page : Page} (h : page.IsFramed) {texts : List (List (List String))}
    (ht : TablesHold page.tables texts) : page.HasTables texts := by
  refine ⟨ht, fun t hmem cells hcells => h.hasLine hmem ?_⟩
  rcases List.mem_cons.mp hcells with rfl | hcells
  · exact List.mem_cons_self
  · exact List.mem_cons_of_mem _ (List.mem_cons_of_mem _ (List.mem_map_of_mem hcells))

end Page

open Page

namespace Diagram

variable {d : Diagram} {page : Page} {code : String}

/-- Names are words wherever they stand. -/
theorem IsWorded.isRun (h : d.IsWorded) {name : String} (hname : name ∈ d.names) :
    Text.IsRun name := by
  obtain ⟨n, hn, rfl⟩ := List.mem_map.mp hname
  exact h.names n hn

/-- The page of a flowchart has a table of the nodes and one of the edges. -/
theorem hasTables_flowchartPage (hd : d.IsSound) (hwords : d.IsWorded)
    (h : d.flowchartPage code = .ok page) :
    page.HasTables [d.nodes.map fun n => [n.label], d.edges.map fun e => [e.label]] := by
  obtain ⟨nodes, hnodes, h⟩ := bind_eq_ok.mp h
  obtain ⟨edges, hedges, h⟩ := bind_eq_ok.mp h
  rw [nodesOrFail_eq_ok] at hnodes
  rw [edgesOrFail_eq_ok] at hedges
  cases h
  have hnode : ∀ n ∈ nodes, .node n ∈ d.nodes := fun n hn => hnodes ▸ List.mem_map_of_mem hn
  have hedge : ∀ e ∈ edges, .edge e ∈ d.edges := fun e he => hedges ▸ List.mem_map_of_mem he
  have hnodeTable := isTable_nodes fun n hn =>
    ⟨hwords.names _ (hnode n hn), hwords.shapes n (hnode n hn)⟩
  have hedgeTable := isTable_edges (fun e he =>
      ⟨hwords.isRun (hd.edge_ends _ (hedge e he)).1, hwords.isRun (hd.edge_ends _ (hedge e he)).2⟩)
    fun e he => hwords.arrows e (hedge e he)
  have hgroups : Page.tables (d.groups.flatMap groupSection) = [] := by
    rw [tables_flatMap, List.flatMap_eq_nil_iff]
    exact fun _ _ => rfl
  have hsections : Page.tables (if d.groups = [] then []
      else chapter "Subgraphs (Groups)" ++ d.groups.flatMap groupSection) = [] := by
    split <;> simp [hgroups]
  have hlabels : (d.nodes.map fun n => [n.label]) = nodes.map fun n => [n.label] := by
    rw [hnodes, List.map_map]
    rfl
  have hedgeLabels : (d.edges.map fun e => [e.label]) = edges.map fun e => [e.label] := by
    rw [hedges, List.map_map]
    rfl
  refine (isFramed_source rfl _ _).hasTables ?_
  rw [hlabels, hedgeLabels]
  simpa [asTable?, hsections] using hnodeTable.tablesHold.append hedgeTable.tablesHold

/-- The page of a sequence diagram has a table of the participants, one of the messages if there are
any, and one of how many each participant sends and receives. -/
theorem hasTables_sequencePage (hd : d.IsSound) (hwords : d.IsWorded)
    (hkind : d.kind = Dialect.sequence) :
    (d.sequencePage code).HasTables ([d.participants.map fun p => [p.label]] ++
      (if d.messages = [] then [] else [d.messages.map fun m => [m.text]]) ++
      [d.participants.map fun p => [p.label]]) := by
  have hparties := hd.parties_eq hkind
  have hlabels : (d.participants.map fun p => [p.label]) = d.parties.map fun p => [p.label] := by
    rw [hparties, List.map_map]
    rfl
  have hparticipants := isTable_participants fun p hp =>
    hwords.names p (hd.nodes_of_sequence hkind ▸ hparties ▸ hp)
  have hmessages := isTable_messages fun m hm =>
    ⟨hwords.isRun (hd.message_ends m hm).1, hwords.isRun (hd.message_ends m hm).2⟩
  have hsection : TablesHold (Page.tables (messageSection d.messages))
      (if d.messages = [] then [] else [d.messages.map fun m => [m.text]]) := by
    unfold messageSection
    split
    · exact tablesHold_nil
    · exact hmessages.tablesHold
  have hinteractions := isTable_interactions
    (tally (d.parties.map Element.id) (d.messages.map Message.source))
    (tally (d.parties.map Element.id) (d.messages.map Message.target)) d.parties
  refine (isFramed_source rfl _ _).hasTables ?_
  rw [hlabels]
  simpa [asTable?] using
    (hparticipants.tablesHold.append hsection).append hinteractions.tablesHold

/-- The page of an entity-relationship diagram has a table for each entity with attributes, and one
of the relationships if there are any. -/
theorem hasTables_ofTables (hd : d.IsSound) (hwords : d.IsWorded) :
    (Page.ofTables d.entities d.relationships code).HasTables ((d.entities.flatMap fun e =>
        if e.attributes = [] then []
        else [e.attributes.map fun a => [a.type, a.name, a.comment]]) ++
      if d.relationships = [] then [] else [d.relationships.map fun r => [r.label]]) := by
  have hentities : TablesHold (Page.tables (d.entities.flatMap entitySection))
      (d.entities.flatMap fun e => if e.attributes = [] then []
        else [e.attributes.map fun a => [a.type, a.name, a.comment]]) := by
    refine .flatMap fun e he => ?_
    have hattributes := isTable_attributes (hwords.keys e he)
    unfold entitySection
    split
    · exact tablesHold_nil
    · exact hattributes.tablesHold
  have hrelationships := isTable_relationships (fun r hr =>
    ⟨hwords.isRun (hd.relationship_ends r hr).1, hwords.isRun (hd.relationship_ends r hr).2⟩)
    hwords.marks
  have hsection : TablesHold (Page.tables (relationshipSection d.relationships))
      (if d.relationships = [] then [] else [d.relationships.map fun r => [r.label]]) := by
    unfold relationshipSection
    split
    · exact tablesHold_nil
    · exact hrelationships.tablesHold
  refine (isFramed_source rfl _ _).hasTables ?_
  simpa [asTable?] using hentities.append hsection

/-- The page of a mindmap has no tables. -/
theorem hasTables_mindmapPage (h : d.mindmapPage code = .ok page) : page.HasTables [] := by
  obtain ⟨nodes, -, h⟩ := bind_eq_ok.mp h
  obtain ⟨sections, hsections, h⟩ := bind_eq_ok.mp h
  cases h
  have hsection : ∀ {level nodes part}, levelSection level nodes = .ok part →
      Page.tables part = [] := by
    intro level nodes part hpart
    unfold levelSection at hpart
    split at hpart <;> cases hpart
    rfl
  have hflatten : ∀ {levels : List (Int × List Node)} {parts : List Page},
      List.Forall₂ (fun l part => levelSection l.1 l.2 = .ok part) levels parts →
      Page.tables parts.flatten = [] := by
    intro levels parts hparts
    induction hparts with
    | nil => rfl
    | cons hpart _ ih => rw [List.flatten_cons, tables_append, hsection hpart, ih, List.append_nil]
  have hnone := hflatten (mapM_eq_ok.mp hsections)
  refine (isFramed_source rfl _ _).hasTables ?_
  simpa [asTable?, hnone] using tablesHold_nil

/-- The page of a diagram whose names are words. -/
theorem hasTables_page (hd : d.IsSound) (hwords : d.IsWorded) {given : String}
    (h : d.page given = .ok page) : page.HasTables d.tableTexts := by
  have hchart : ∀ {code}, (d.flowchartPage code).mapError PageError.unsupported = .ok page →
      page.HasTables [d.nodes.map fun n => [n.label], d.edges.map fun e => [e.label]] := by
    intro code hpage
    cases hflowchart : d.flowchartPage code with
    | error e =>
      rw [hflowchart] at hpage
      cases hpage
    | ok page' =>
      rw [hflowchart] at hpage
      cases hpage
      exact hasTables_flowchartPage hd hwords hflowchart
  have hpage := h
  unfold Diagram.page at h
  split at h <;> rename_i hkind <;> rw [Diagram.tableTexts, hkind]
  · cases h
    exact hasTables_sequencePage hd hwords hkind
  · rw [hd.page_eq hkind given] at hpage
    cases hpage
    exact hasTables_ofTables hd hwords
  · exact hasTables_mindmapPage h
  · exact hchart h
  · exact hchart h

end Diagram

/-- The page of a review has a table of the issues and one of the remarks, if there are any. -/
theorem Review.hasTables_page (r : Review) (code : String) :
    (r.page code).HasTables r.tableTexts := by
  have hfindings : ∀ (title column : String) (findings : List Finding), IsCell column →
      TablesHold (tables (Finding.table title column findings))
        (if findings = [] then [] else [findings.map fun f => [f.issue, f.suggestion]]) := by
    intro title column findings hcolumn
    unfold Finding.table
    split
    · exact tablesHold_nil
    · exact (isTable_findings hcolumn findings).tablesHold
  have hissues := hfindings "Issues Found" "Issue" r.issues (by decide)
  have hwarnings := hfindings "Warnings" "Warning" r.warnings (by decide)
  refine (isFramed_source rfl _ _).hasTables ?_
  rw [Review.tableTexts]
  simpa [asTable?] using hissues.append hwarnings

/-! ### The main statement -/

/-- **Main statement.** For every text that can be read a page is made, and for every review too. The
rows of their tables are lines of their own. A row has as many boundaries as the header of its table
and one more for each bar that an odd number of backslashes stands before in the texts of the
row. -/
theorem hasTables_of_parse {code : String} {d : Diagram} (h : Diagram.parse code = .ok d)
    (given : String) (r : Review) :
    (∃ page, d.page given = .ok page ∧ d.documentation given = .ok page.text ∧
      page.HasTables d.tableTexts) ∧
    (r.page given).HasTables r.tableTexts := by
  have hsound := isSound_of_parse code d h
  have hwords := isWorded_of_parse h
  obtain ⟨header, body, -, rfl⟩ := Diagram.eq_readBody_of_parse h
  obtain ⟨page, hpage⟩ := Source.exists_page_readBody header body given
  refine ⟨⟨page, hpage, map_eq_ok.mpr ⟨page, hpage, rfl⟩, ?_⟩, r.hasTables_page given⟩
  exact Diagram.hasTables_page hsound hwords hpage

/-- One node under a bar that is escaped in the text. -/
def barred : Diagram where
  direction := some Direction.td
  nodes := [.node (.shaped "A" ⟨.rectangle, "\\|"⟩)]

/-- An objection to a name with such a bar. -/
def barredReview : Review where
  isValid := false
  compatibility := .known .low
  issues := [(Issue.invalidName "A\\|b").at 2]

set_option maxRecDepth 100000 in
/-- A bar behind a backslash, in a label and in a name that is wrong. -/
theorem hasTables_of_parse_barred :
    Diagram.parse "graph TD\nA[\\|]" = .ok barred ∧
    (∃ page, barred.page "" = .ok page ∧ page.HasTables [[["\\|"]], []]) ∧
    (barredReview.page "").HasTables
      [[["Invalid node ID: A\\|b", "Use only alphanumeric characters and underscores"]]] := by
  have hparse : Diagram.parse "graph TD\nA[\\|]" = .ok barred := rfl
  obtain ⟨⟨page, hpage, -, htables⟩, hreview⟩ := hasTables_of_parse hparse "" barredReview
  exact ⟨hparse, ⟨page, hpage, htables⟩, hreview⟩

set_option maxRecDepth 100000 in
/-- Its row in the table of nodes has a boundary more than the header. -/
theorem uneven_of_escapedBar :
    Diagram.parse "graph TD\nA[\\|]" = .ok barred ∧
    ∃ page header cells, barred.page "graph TD\nA[\\|]" = .ok page ∧
      (header, [cells]) ∈ page.tables ∧
      boundaries (Block.row header) = 5 ∧ boundaries (Block.row cells) = 6 := by
  refine ⟨rfl, _, ["ID", "Label", "Shape", "Description"],
    nodeRow (.shaped "A" ⟨.rectangle, "\\|"⟩), rfl, List.mem_cons_self, ?_, ?_⟩
  · decide
  · decide

end Diagrams
