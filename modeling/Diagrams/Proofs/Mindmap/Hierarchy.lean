import Diagrams.Proofs.Conversion
import Diagrams.Proofs.Graph.Forest
import Diagrams.Proofs.Mindmap.Parents
import Diagrams.Proofs.Reading.Mentions

/-!
# The hierarchy of a mindmap and its page

**Main statement** (`hierarchy_of_parse`): however the lines of a mindmap are indented, its topics
form a hierarchy (`IsHierarchy`), and its page shows each of them twice: once in the list of the
structure, one step deeper than its parent (`ShowsStructure`), and once in the section of its level
(`ShowsLevels`).

The list of the structure is made by a search from the topics without a parent. It reaches every
topic because the edges have no cycles, and it meets none twice because no topic has two parents.
-/

namespace Diagrams.Mindmap

open Page (levelOf)
open Layout (graphOf within_graphOf names_search_perm)
open Diagrams.Digraph (isTarget_iff)

variable {topics : List Node} {g : Digraph}

/-! ### The list of the structure -/

/-- A list of topics with their depths shows how the topics hang together. -/
structure ShowsStructure (topics : List Node) (g : Digraph) (entries : List (Nat × Node)) :
    Prop where
  /-- Every topic is listed once. -/
  perm : (entries.map Prod.snd).Perm topics
  /-- A topic without a parent stands at the left margin. -/
  outermost : ∀ t ∈ topics, (∀ a, ¬g.Arrow a t.id) → (0, t) ∈ entries
  /-- A topic is in the part of the list below its parent, one step deeper. -/
  nested : ∀ parent ∈ topics, ∀ child ∈ topics, g.Arrow parent.id child.id →
    IsNested entries parent child

/-- The names of topics stand for topics. -/
theorem exists_entries {xs : List (Nat × String)} (h : ∀ x ∈ xs, x.2 ∈ topics.map Node.id) :
    ∃ entries : List (Nat × Node), (∀ x ∈ entries, x.2 ∈ topics) ∧
      xs = entries.map fun x => (x.1, x.2.id) := by
  induction xs with
  | nil => exact ⟨[], by simp, rfl⟩
  | cons x xs ih =>
    obtain ⟨hx, hxs⟩ := List.forall_mem_cons.mp h
    obtain ⟨t, ht, hid⟩ := List.mem_map.mp hx
    obtain ⟨entries, hmem, rfl⟩ := ih hxs
    exact ⟨(x.1, t) :: entries, List.forall_mem_cons.mpr ⟨ht, hmem⟩, by simp [hid]⟩

/-- The list on the page of a hierarchy shows it. -/
theorem IsHierarchy.exists_showsStructure (h : IsHierarchy topics g)
    (hwithin : g.within (topics.map Node.id) = g) :
    ∃ entries, ShowsStructure topics g entries ∧
      Page.outlineItems topics g = entries.map fun x => (x.1, "**" ++ x.2.label ++ "**") := by
  have htargets : ∀ t, t ∈ (topics.map Node.id).filter (fun n => !g.isTarget n) ↔
      t ∈ topics.map Node.id ∧ g.isTarget t = false := by
    intro t
    rw [List.mem_filter, Bool.not_eq_true']
  have hunfolds := h.isForest.unfolds_search (h.nodup.filter fun n => !g.isTarget n)
    fun t ht => ((htargets t).mp ht).2
  have hperm := names_search_perm htargets h.nodup hwithin h.isForest.acyclic
  generalize hsearch :
    (g.search [] ((topics.map Node.id).filter fun n => !g.isTarget n)).1 = f at hunfolds hperm
  have hnames : (f.outline 0).map Prod.snd = f.names := f.map_snd_outline 0
  have hlisted : ∀ x ∈ f.outline 0, x.2 ∈ topics.map Node.id := by
    intro x hx
    rw [← hperm.mem_iff, ← hnames]
    exact List.mem_map_of_mem hx
  obtain ⟨entries, hmem, hentries⟩ := exists_entries hlisted
  have hids : (entries.map Prod.snd).map Node.id = f.names := by
    rw [← hnames, hentries, List.map_map, List.map_map]
    rfl
  -- among the topics a name belongs to one only
  have hunique : ∀ t ∈ topics, ∀ x ∈ entries, x.2.id = t.id → x.2 = t :=
    fun t ht x hx hid => List.inj_on_of_nodup_map h.nodup (hmem x hx) ht hid
  refine ⟨entries, { perm := ?_, outermost := ?_, nested := ?_ },
    Page.outlineItems_eq h.nodup hmem ?_⟩
  · have hnodup : ((entries.map Prod.snd).map Node.id).Nodup := hids ▸ hperm.nodup_iff.mpr h.nodup
    rw [List.perm_ext_iff_of_nodup hnodup.of_map h.nodup.of_map]
    intro t
    constructor
    · intro ht
      obtain ⟨x, hx, rfl⟩ := List.mem_map.mp ht
      exact hmem x hx
    · intro ht
      have hid : t.id ∈ (entries.map Prod.snd).map Node.id := by
        rw [hids, hperm.mem_iff]
        exact List.mem_map_of_mem ht
      rw [List.map_map] at hid
      obtain ⟨x, hx, hxt⟩ := List.mem_map.mp hid
      exact hunique t ht x hx hxt ▸ List.mem_map_of_mem hx
  · intro t ht hroot
    have hsource : g.isTarget t.id = false := by
      rw [← Bool.not_eq_true, isTarget_iff, not_exists]
      exact hroot
    have hhead := hunfolds.mem_outline ((htargets t.id).mpr ⟨List.mem_map_of_mem ht, hsource⟩) 0
    rw [hentries] at hhead
    obtain ⟨x, hx, heq⟩ := List.mem_map.mp hhead
    obtain ⟨hdepth, hid⟩ := Prod.mk.inj heq
    rw [← hunique t ht x hx hid, ← hdepth]
    exact hx
  · intro parent hparent child hchild harrow
    have hname : parent.id ∈ f.names := hperm.mem_iff.mpr (List.mem_map_of_mem hparent)
    have hnested := hunfolds.isNested_outline hname harrow 0
    rw [hentries] at hnested
    exact hnested.of_map (hunique parent hparent) (hunique child hchild)
  · rw [← hentries, Page.outline, hwithin, hsearch]

/-! ### The sections of the levels -/

/-- Sections with their titles show the levels of topics. -/
structure ShowsLevels (topics : List Node) (sections : List (String × List Node)) : Prop where
  /-- Every topic is in one section, once. -/
  perm : (sections.flatMap Prod.snd).Perm topics
  /-- The topics of a section are at the level that gives it its title. -/
  level : ∀ s ∈ sections, ∃ level, Page.levelTitle? level = some s.1 ∧
    ∀ t ∈ s.2, levelOf t = level

/-- The groups of the levels hold each topic once. -/
theorem perm_byLevel (topics : List Node) :
    ((Page.byLevel topics).flatMap Prod.snd).Perm topics := by
  rw [Page.byLevel, List.flatMap_map]
  apply perm_flatMap_filter levelOf (nodup_eraseDups _)
  intro t ht
  rw [List.mem_eraseDups]
  exact List.mem_map_of_mem ht

/-- The sections of the levels, under their titles. -/
theorem showsLevels_byLevel {title : Int → String}
    (htitle : ∀ l ∈ Page.byLevel topics, Page.levelTitle? l.1 = some (title l.1)) :
    ShowsLevels topics ((Page.byLevel topics).map fun l => (title l.1, l.2)) where
  perm := by
    rw [List.flatMap_map]
    exact perm_byLevel topics
  level := by
    intro s hs
    obtain ⟨l, hl, rfl⟩ := List.mem_map.mp hs
    refine ⟨l.1, htitle l hl, fun t ht => ?_⟩
    obtain ⟨level, -, rfl⟩ := List.mem_map.mp hl
    simpa using (List.mem_filter.mp ht).2

/-! ### The page of a text -/

/-- **Main statement.** However its lines are indented, the topics of a mindmap are those of its
lines, each at the depth of its line. A topic has a parent when a topic before it is one level
above, and this is the last such topic. The page lists every topic once below its parent, one step
deeper, and once in the section of its level. -/
theorem hierarchy_of_parse {code : String} {d : Diagram} (h : Diagram.parse code = .ok d)
    (hkind : d.kind = Dialect.mindmap) (given : String) :
    ∃ header body topics, Source.headerAndBody? (Text.lines (Source.stripFences code.toList)) =
        some (header, body) ∧
      (topics.map fun t => (levelOf t, t.label)) =
        ((body.filter fun l => Source.isContent l && !isIcon l).map fun l =>
          ((depth l : Int), (Topic.ofText (Text.trim l)).label)) ∧
      d.nodes = topics.map .node ∧ IsHierarchy topics (graphOf d.edges) ∧
      ∃ page entries sections, d.page given = .ok page ∧ d.documentation given = .ok page.text ∧
        ShowsStructure topics (graphOf d.edges) entries ∧ ShowsLevels topics sections ∧
        Page.under "Structure" page =
          [.blank, .items (entries.map fun x => (x.1, "**" ++ x.2.label ++ "**")), .blank] ∧
        Page.under "Topics by Level" page =
          .blank :: sections.flatMap fun s =>
            [.heading 3 s.1, .blank, .items (s.2.map fun t => (0, t.label)), .blank] := by
  obtain ⟨header, body, hbody, hd⟩ := Diagram.eq_readBody_of_parse h
  rw [Source.readBody_of_mindmap (hd ▸ hkind)] at hd
  subst hd
  have hhierarchy := isHierarchy_read body
  have hwithin : (graphOf (Mindmap.read body).edges).within ((topicsOf body).map Node.id) =
      graphOf (Mindmap.read body).edges := by
    have hends := within_graphOf (isSound_read body).edge_ends
    rwa [Diagram.names, nodes_read, List.map_map] at hends
  obtain ⟨entries, hentries, hitems⟩ := hhierarchy.exists_showsStructure hwithin
  obtain ⟨page, title, hpage, htitle, hstructure, hlevels⟩ :=
    Diagram.exists_mindmapPage_sections (nodes_read body) (Diagram.levelOf_scan _)
      (String.ofList (Source.stripFences given.toList))
  refine ⟨header, body, topicsOf body, hbody, Scan.levels_run _, nodes_read body, hhierarchy, page,
    entries, _, hpage, congrArg (Except.map Page.text) hpage, hentries, showsLevels_byLevel htitle,
    hitems ▸ hstructure, ?_⟩
  rw [hlevels, List.flatMap_map]
  rfl

/-- Lines that jump over a level and come back to a branch that was left. -/
def straying : List String :=
  ["   root", "      far", "  near", "    deep", "root two", "    deeper", "  last"]

set_option maxRecDepth 100000 in
/-- Topics of which some stand deeper than the level below the last one, or as shallow as the first
one. -/
theorem hierarchy_of_straying : ∃ d topics page entries,
    Diagram.parse ("\n".intercalate ("mindmap" :: straying)) = .ok d ∧
      (graphOf d.edges).arrows = [("node2", "node3"), ("node2", "node5"), ("node4", "node6")] ∧
      (topics.map fun t => (levelOf t, t.label)) =
        [(1, "root"), (3, "far"), (1, "near"), (2, "deep"), (0, "root two"), (2, "deeper"),
          (1, "last")] ∧
      IsHierarchy topics (graphOf d.edges) ∧ d.page "" = .ok page ∧
      ShowsStructure topics (graphOf d.edges) entries ∧
      Page.under "Structure" page =
        [.blank, .items (entries.map fun x => (x.1, "**" ++ x.2.label ++ "**")), .blank] := by
  have hparse : Diagram.parse ("\n".intercalate ("mindmap" :: straying)) =
      .ok (Mindmap.read (straying.map String.toList)) := rfl
  obtain ⟨header, body, topics, hbody, hlevels, -, hhierarchy, page, entries, -, hpage, -, hentries,
    -, hstructure, -⟩ := hierarchy_of_parse hparse rfl ""
  obtain ⟨rfl, rfl⟩ := Prod.mk.inj (Option.some.inj hbody)
  exact ⟨_, topics, page, entries, hparse, rfl, hlevels, hhierarchy, hpage, hentries, hstructure⟩

end Diagrams.Mindmap
