import Diagrams.Conversion
import Diagrams.Parse
import Diagrams.Proofs.Drawio.Range

/-!
# Whatever is read can be converted

**Main statements**: for every text that can be read there are boxes (`boxes_of_parse`) and a
drawing under every title (`drawing_of_parse`, `drawingUnder_of_parse`), unless it is a flowchart
that is too wide, and a page (`exists_documentation_of_parse`).

A conversion fails on parts that do not fit its kind, a drawing on numbers beyond the range as well,
and a page on levels without a name. What is read has parts of its own kind only, and a topic that
is read is at no negative depth, so its level has a name (`Page.exists_levelTitle`).

`Page.under` are the blocks under a heading, which is where the parts of a page are found.
-/

namespace Diagrams

open Layout

namespace Page

/-- The blocks under a heading of the second level, up to the next rule. -/
def under (title : String) (page : Page) : Page :=
  ((page.dropWhile (· ≠ .heading 2 title)).drop 1).takeWhile (· ≠ .rule)

/-! ### Levels -/

/-- A level has a name when it is not negative. -/
theorem exists_levelTitle {level : Int} (h : 0 ≤ level) :
    ∃ title, levelTitle? level = some title := by
  unfold levelTitle?
  split
  · exact ⟨_, rfl⟩
  · rename_i hlt
    have hplace : level.toNat < levelNames.length := by omega
    exact ⟨levelNames[level.toNat], List.getElem?_eq_getElem hplace⟩

/-- The section of a level under its title. -/
def levelBlocks (title : String) (nodes : List Node) : Page :=
  [.heading 3 title, .blank, .items (nodes.map fun n => (0, n.label)), .blank]

/-- Each level has a section when none is negative. -/
theorem exists_levelSections {nodes : List Node} (h : ∀ n ∈ nodes, 0 ≤ levelOf n) :
    ∃ title : Int → String, (∀ l ∈ byLevel nodes, levelTitle? l.1 = some (title l.1)) ∧
      (byLevel nodes).mapM (fun l => levelSection l.1 l.2) =
        .ok ((byLevel nodes).map fun l => levelBlocks (title l.1) l.2) := by
  have htitle : ∀ level ∈ nodes.map levelOf, ∃ title, levelTitle? level = some title := by
    intro level hlevel
    obtain ⟨n, hn, rfl⟩ := List.mem_map.mp hlevel
    exact exists_levelTitle (h n hn)
  choose! title htitle using htitle
  have hlevels : ∀ l ∈ byLevel nodes, levelTitle? l.1 = some (title l.1) := by
    intro l hl
    obtain ⟨level, hlevel, rfl⟩ := List.mem_map.mp hl
    exact htitle level (List.mem_eraseDups.mp hlevel)
  refine ⟨title, hlevels, ?_⟩
  rw [mapM_eq_ok, List.forall₂_map_right_iff, List.forall₂_same]
  intro l hl
  rw [levelSection, hlevels l hl]
  rfl

/-! ### Outlines -/

/-- The list of an outline shows each topic under its label. -/
theorem outlineItems_eq {nodes : List Node} {g : Digraph} {entries : List (Nat × Node)}
    (hnodup : (nodes.map Node.id).Nodup) (hmem : ∀ x ∈ entries, x.2 ∈ nodes)
    (houtline : outline (nodes.map Node.id) g = entries.map fun x => (x.1, x.2.id)) :
    outlineItems nodes g = entries.map fun x => (x.1, "**" ++ x.2.label ++ "**") := by
  have hnames : ((nodes.map fun n => (n.id, n.label)).map (·.1)).Nodup := by
    rwa [List.map_map]
  rw [outlineItems, houtline, List.map_map]
  apply List.map_congr_left
  intro x hx
  have hlabel : (x.2.id, x.2.label) ∈ nodes.map fun n => (n.id, n.label) :=
    List.mem_map_of_mem (hmem x hx)
  simp only [Function.comp_apply, Table.getD, Table.get?_ofList hnames hlabel, Option.getD_some]

end Page

namespace Diagram

variable {d : Diagram} {nodes : List Node}

/-! ### Mindmaps -/

/-- A mindmap without negative levels has a page, with its outline under `Structure` and the
sections of its levels under `Topics by Level`. -/
theorem exists_mindmapPage_sections (hnodes : d.nodes = nodes.map .node)
    (hlevels : ∀ n ∈ nodes, 0 ≤ Page.levelOf n) (code : String) :
    ∃ page, ∃ title : Int → String, d.mindmapPage code = .ok page ∧
      (∀ l ∈ Page.byLevel nodes, Page.levelTitle? l.1 = some (title l.1)) ∧
      Page.under "Structure" page =
        [.blank, .items (Page.outlineItems nodes (graphOf d.edges)), .blank] ∧
      Page.under "Topics by Level" page =
        .blank :: (Page.byLevel nodes).flatMap fun l => Page.levelBlocks (title l.1) l.2 := by
  obtain ⟨title, htitle, hsections⟩ := Page.exists_levelSections hlevels
  have hshown : (nodesOrFail d.nodes).mapError PageError.unsupported = .ok nodes := by
    rw [nodesOrFail_eq_ok.mpr hnodes]
    rfl
  have hrule : ∀ b ∈ ((Page.byLevel nodes).map fun l => Page.levelBlocks (title l.1) l.2).flatten,
      (!decide (b = .rule)) = true := by
    intro b hb
    rw [← List.flatMap_def] at hb
    obtain ⟨l, -, hl⟩ := List.mem_flatMap.mp hb
    simp only [Page.levelBlocks, List.mem_cons, List.not_mem_nil, or_false] at hl
    rcases hl with rfl | rfl | rfl | rfl <;> rfl
  refine ⟨_, title, bind_eq_ok.mpr ⟨nodes, hshown, bind_eq_ok.mpr ⟨_, hsections, rfl⟩⟩, htitle,
    ?_, ?_⟩
  · simp [Page.under, Page.chapter]
  · simp [Page.under, Page.chapter, Page.source, List.flatMap_def,
      List.takeWhile_append_of_pos hrule]

/-- The page of a mindmap has its outline under a heading of its own. -/
theorem exists_mindmapPage (hnodes : d.nodes = nodes.map .node)
    (hlevels : ∀ n ∈ nodes, 0 ≤ Page.levelOf n) (code : String) :
    ∃ page, d.mindmapPage code = .ok page ∧
      Page.under "Structure" page =
        [.blank, .items (Page.outlineItems nodes (graphOf d.edges)), .blank] := by
  obtain ⟨page, -, hpage, -, hunder, -⟩ := exists_mindmapPage_sections hnodes hlevels code
  exact ⟨page, hpage, hunder⟩

/-- A topic that is read is at no negative level. -/
theorem levelOf_scan (lines : List (List Char)) :
    ∀ n ∈ (lines.foldl Mindmap.Scan.feed {}).nodes, 0 ≤ Page.levelOf n := by
  refine List.foldlRecOn (motive := fun s : Mindmap.Scan => ∀ n ∈ s.nodes, 0 ≤ Page.levelOf n)
    lines _ nofun ?_
  intro s hs line _ n hn
  rcases List.mem_append.mp hn with hn | hn
  · exact hs n hn
  · obtain rfl := List.mem_singleton.mp hn
    exact Int.natCast_nonneg _

/-! ### Flowcharts -/

/-- A flowchart of nodes and edges has a page. -/
theorem exists_page_flowchart {edges : List Edge} (hkind : d.kind = Dialect.flowchart)
    (hnodes : d.nodes = nodes.map .node) (hedges : d.edges = edges.map .edge) (given : String) :
    ∃ page, d.page given = .ok page := by
  obtain ⟨page, hpage⟩ : ∃ page,
      d.flowchartPage (String.ofList (Source.stripFences given.toList)) = .ok page :=
    ⟨_, bind_eq_ok.mpr ⟨nodes, nodesOrFail_eq_ok.mpr hnodes,
      bind_eq_ok.mpr ⟨edges, edgesOrFail_eq_ok.mpr hedges, rfl⟩⟩⟩
  refine ⟨page, ?_⟩
  unfold Diagram.page
  rw [hkind]
  exact congrArg (Except.mapError PageError.unsupported) hpage

/-! ### Entity-relationship diagrams -/

/-- The page of a sound entity-relationship diagram shows its entities and relationships. -/
theorem IsSound.page_eq (hd : d.IsSound) (hkind : d.kind = Dialect.entityRelationship)
    (given : String) :
    d.page given = .ok (.ofTables d.entities d.relationships
      (String.ofList (Source.stripFences given.toList))) := by
  have hentities := entitiesOrFail_eq_ok.mpr (hd.tables_eq hkind)
  have hrelationships := relationshipsOrFail_eq_ok.mpr (hd.links_eq hkind)
  unfold Diagram.page entityPage
  rw [hkind]
  simp only [hentities, hrelationships, ok_bind]
  rfl

end Diagram

/-- Whatever is read has a page. -/
theorem Source.exists_page_readBody (header : List Char) (body : List (List Char))
    (given : String) : ∃ page, (Source.readBody header body).page given = .ok page := by
  unfold Source.readBody
  split
  · exact ⟨_, rfl⟩
  · exact ⟨_, (Entities.isSound_read body).page_eq rfl given⟩
  · obtain ⟨page, hpage, -⟩ := Diagram.exists_mindmapPage (d := Mindmap.read body) rfl
      (Diagram.levelOf_scan _) (String.ofList (Source.stripFences given.toList))
    exact ⟨page, hpage⟩
  · exact Diagram.exists_page_flowchart rfl rfl rfl given
  · exact Diagram.exists_page_flowchart rfl rfl rfl given
  · exact Diagram.exists_page_flowchart rfl rfl rfl given

/-! ### Boxes -/

/-- Whatever is read gets boxes, unless it is a flowchart with a column beyond the range. -/
theorem Source.boxes_readBody (A : Number.Arithmetic) (header : List Char)
    (body : List (List Char)) :
    (∃ boxes, (Source.readBody header body).layout A = .ok boxes) ∨
      (Source.readBody header body).HasWideColumn A ∧
        (Source.readBody header body).layout A = .error .outOfRange := by
  have hflowchart : ∀ {d : Diagram} {nodes : List Node}, d.kind = Dialect.flowchart →
      d.nodes = nodes.map .node → (∃ boxes, d.layout A = .ok boxes) ∨
        d.HasWideColumn A ∧ d.layout A = .error .outOfRange := by
    intro d nodes hkind hnodes
    obtain ⟨all, hall, -⟩ := Layout.exists_nodes_withTerminals hkind hnodes
    unfold Diagram.layout
    rw [hkind]
    rcases Diagram.chart_of_nodes (A := A) hkind hall with ⟨c, hc⟩ | ⟨hwide, hc⟩
    · exact .inl ⟨_, map_eq_ok.mpr ⟨c, hc, rfl⟩⟩
    · exact .inr ⟨hwide, by rw [hc]; rfl⟩
  unfold Source.readBody
  split
  · exact .inl ⟨_, rfl⟩
  · have htables := entitiesOrFail_eq_ok.mpr ((Entities.isSound_read body).tables_eq rfl)
    exact .inl ⟨_, bind_eq_ok.mpr ⟨_, mapError_eq_ok.mpr htables, rfl⟩⟩
  · exact .inl ⟨_, rfl⟩
  · exact hflowchart rfl rfl
  · exact hflowchart rfl rfl
  · exact hflowchart rfl rfl

/-! ### Texts that can be read -/

variable {code : String} {d : Diagram}

/-- **Main statement.** Whatever is read from text gets boxes, unless it is a flowchart with a
column beyond the range. -/
theorem boxes_of_parse (A : Number.Arithmetic) (h : Diagram.parse code = .ok d) :
    (∃ boxes, d.layout A = .ok boxes) ∨
      d.HasWideColumn A ∧ d.layout A = .error .outOfRange := by
  obtain ⟨header, body, -, rfl⟩ := Diagram.eq_readBody_of_parse h
  exact Source.boxes_readBody A header body

/-- **Main statement.** Whatever is read from text can be drawn, unless it is too wide. -/
theorem drawing_of_parse (h : Diagram.parse code = .ok d) (title : Option String)
    (stamp : Drawio.Stamp) :
    (∃ xml, d.drawing title stamp = .ok xml) ∨
      d.IsTooWide .binary64 ∧ d.drawing title stamp = .error .outOfRange := by
  unfold Diagram.drawing
  rcases Diagram.drawnOrWide_of_parse .binary64 h title stamp with ⟨doc, hdoc, -⟩ | ⟨hwide, hdoc⟩
  · exact .inl ⟨doc.text, map_eq_ok.mpr ⟨doc, hdoc, rfl⟩⟩
  · exact .inr ⟨hwide, by rw [hdoc]; rfl⟩

/-- **Main statement.** Whatever is read from text can be drawn under a title that is no text,
unless it is too wide. -/
theorem drawingUnder_of_parse (h : Diagram.parse code = .ok d) (shown : String)
    (stamp : Drawio.Stamp) :
    (∃ xml, d.drawingUnder shown stamp = .ok xml) ∨
      d.IsTooWide .binary64 ∧ d.drawingUnder shown stamp = .error .outOfRange := by
  unfold Diagram.drawingUnder
  rcases Diagram.drawnOrWide_of_parse .binary64 h none stamp with ⟨doc, hdoc, -⟩ | ⟨hwide, hdoc⟩
  · exact .inl ⟨_, bind_eq_ok.mpr ⟨doc, hdoc, rfl⟩⟩
  · exact .inr ⟨hwide, by rw [hdoc]; rfl⟩

/-- **Main statement.** For whatever is read from text a page can be made. -/
theorem exists_documentation_of_parse (h : Diagram.parse code = .ok d) (given : String) :
    ∃ text, d.documentation given = .ok text := by
  obtain ⟨header, body, -, rfl⟩ := Diagram.eq_readBody_of_parse h
  obtain ⟨page, hpage⟩ := Source.exists_page_readBody header body given
  exact ⟨page.text, map_eq_ok.mpr ⟨page, hpage, rfl⟩⟩

end Diagrams
