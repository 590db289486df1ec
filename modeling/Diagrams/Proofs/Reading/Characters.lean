import Diagrams.Proofs.Drawio.Texts
import Diagrams.Proofs.Text.Sublists

/-!
# The characters of a diagram come from its text

**Main statement** (`isWritten_of_parse`): the texts of a diagram that was read from text are
written with the characters of the text and with legal ones.

A line of any dialect is cut into names, labels and the like, each of them part of the line
(`Flowchart.Line.isWritten_ofText` and its kin). What a scan adds of its own, such as the names of
edges and the looks of shapes, is fixed text and numbers. So the scans keep to the characters of
their lines, whatever the lines say, and lines are part of the text.
-/

namespace Diagrams

open Text Xml

variable {source cs : List Char}

/-- A part of a text that is part of the source is written with its characters. -/
theorem isWritten_of_sublist {ds : List Char} (h : ds.Sublist cs) (hcs : cs ⊆ source) :
    IsWritten source (String.ofList ds) :=
  isWritten_ofList fun _ hc => .inr (hcs (h.subset hc))

/-- Trimmed lines that count are parts of lines. -/
theorem subset_of_mem_trimmed {lines : List (List Char)} (h : ∀ line ∈ lines, line ⊆ source) :
    ∀ line ∈ (lines.filter Source.isContent).map trim, line ⊆ source :=
  List.forall_mem_map.mpr fun line hline =>
    List.Subset.trans (trim_sublist line).subset (h line (List.mem_filter.mp hline).1)

/-! ### Nodes -/

/-- The label of a written shape is part of it. -/
theorem ShapedLabel.isWritten_ofFragment {fragment : List Char} (h : fragment ⊆ source) :
    IsWritten source (ShapedLabel.ofFragment fragment).label := by
  unfold ShapedLabel.ofFragment
  split
  · rename_i shape body hfind
    obtain ⟨b, -, hb⟩ := List.exists_of_findSome?_eq_some hfind
    obtain ⟨l, hl, heq⟩ := Option.map_eq_some_iff.mp hb
    cases heq
    exact isWritten_of_sublist ((trim_sublist _).trans (sublist_of_bracketed? hl)) h
  · exact isWritten_of_sublist (trim_sublist fragment) h

/-- A node in the look of its shape has a name and a label, and fixed text besides. -/
theorem Node.isWritten_shaped {id : String} {s : ShapedLabel} (hid : Xml.IsWritten source id)
    (hlabel : Xml.IsWritten source s.label) : (Node.shaped id s).IsWritten source where
  id := hid
  label := hlabel
  style := isWritten_of_isChar (isChar_look s.shape).1
  fill := fun _ hs => Option.some.inj hs ▸ isWritten_of_isChar (isChar_look s.shape).2.1
  stroke := fun _ hs => Option.some.inj hs ▸ isWritten_of_isChar (isChar_look s.shape).2.2

/-! ### Flowcharts -/

namespace Flowchart

/-- Both parts of a cut are taken from the text. -/
theorem sublist_of_mem_cuts {p : List Char × List Char} (h : p ∈ cuts cs) :
    p.1.Sublist cs ∧ p.2.Sublist cs := by
  induction cs generalizing p with
  | nil => cases h
  | cons c cs ih =>
    have hlater : ∀ q ∈ (cuts cs).map fun p => (c :: p.1, p.2),
        q.1.Sublist (c :: cs) ∧ q.2.Sublist (c :: cs) := by
      rw [List.forall_mem_map]
      exact fun q hq => ⟨(ih hq).1.cons_cons c, (ih hq).2.cons c⟩
    rw [cuts] at h
    split at h
    · cases h
    · dsimp only at h
      split at h
      · rcases List.mem_cons.mp h with rfl | h
        · exact ⟨(List.nil_sublist cs).cons_cons c, List.sublist_cons_self c cs⟩
        · exact hlater p h
      · exact hlater p h

/-- A shape and what follows it are parts of the text. -/
theorem sublist_of_mem_shapeSplits {p : Option (List Char) × List Char} (h : p ∈ shapeSplits cs) :
    (∀ fragment ∈ p.1, fragment.Sublist cs) ∧ p.2.Sublist cs := by
  cases cs with
  | nil =>
    obtain rfl := List.mem_singleton.mp h
    exact ⟨fun _ hs => absurd hs (Option.not_mem_none _), List.Sublist.refl _⟩
  | cons c cs =>
    rw [shapeSplits] at h
    split at h
    · obtain ⟨q, hq, rfl⟩ := List.mem_map.mp h
      have hq := sublist_of_mem_cuts hq
      exact ⟨fun _ hf => Option.some.inj hf ▸ hq.1.cons_cons c, hq.2.cons c⟩
    · obtain rfl := List.mem_singleton.mp h
      exact ⟨fun _ hs => absurd hs (Option.not_mem_none _), List.Sublist.refl _⟩

/-- The text of a target is taken from the line. -/
theorem sublist_of_targetText? {t : List Char} (h : targetText? cs = some t) : t.Sublist cs :=
  (sublist_of_line? h).trans (trimLeft_sublist cs)

/-- A label in bars and the text of the target are parts of the text. -/
theorem sublist_of_labelled? {p : List Char × List Char} (h : labelled? cs = some p) :
    p.1.Sublist cs ∧ p.2.Sublist cs := by
  have hplain : ∀ {p : List Char × List Char}, (targetText? cs).map (fun t => ([], t)) = some p →
      p.1.Sublist cs ∧ p.2.Sublist cs := by
    intro p hp
    obtain ⟨t, ht, rfl⟩ := Option.map_eq_some_iff.mp hp
    exact ⟨List.nil_sublist cs, sublist_of_targetText? ht⟩
  unfold labelled? at h
  dsimp only at h
  split at h
  · rename_i rest
    split at h
    · rename_i c rest' hrest
      split at h
      · rename_i t ht
        cases h
        have hdrop : (c :: rest').Sublist rest := hrest ▸ rest.dropWhile_sublist _
        have htarget : t.Sublist rest :=
          (sublist_of_targetText? ht).trans ((List.sublist_cons_self c rest').trans hdrop)
        exact ⟨(rest.takeWhile_sublist _).cons '|', htarget.cons '|'⟩
      · exact hplain h
    · exact hplain h
  · exact hplain h

/-- The label and the target of a link are taken from the line. -/
theorem sublist_of_link? {arrow : Arrow} {label target : List Char}
    (h : link? cs = some (arrow, label, target)) : label.Sublist cs ∧ target.Sublist cs := by
  simp only [link?, Option.bind_eq_bind, Option.bind_eq_some_iff, Option.pure_def,
    Option.some.injEq, Prod.mk.injEq] at h
  obtain ⟨⟨a, rest⟩, hstart, ⟨l, t⟩, hlabelled, rfl, rfl, rfl⟩ := h
  obtain ⟨b, -, hb⟩ := List.exists_of_findSome?_eq_some hstart
  obtain ⟨r, hr, heq⟩ := Option.map_eq_some_iff.mp hb
  cases heq
  have hrest := (sublist_of_after? hr).trans (trimLeft_sublist cs)
  have hparts := sublist_of_labelled? hlabelled
  exact ⟨hparts.1.trans hrest, hparts.2.trans hrest⟩

/-- The parts of a connection are parts of the line. -/
theorem sublist_of_connection? {id label target : List Char} {fragment : Option (List Char)}
    {arrow : Arrow} (h : connection? cs = some (id, fragment, arrow, label, target)) :
    id.Sublist cs ∧ (∀ f ∈ fragment, f.Sublist cs) ∧ label.Sublist cs ∧ target.Sublist cs := by
  simp only [connection?, Option.bind_eq_bind, Option.bind_eq_some_iff, Option.pure_def,
    Option.some.injEq, Prod.mk.injEq] at h
  obtain ⟨⟨name, rest⟩, hname, ⟨f, a, l, t⟩, hfind, rfl, rfl, rfl, rfl, rfl⟩ := h
  obtain ⟨s, hs, hlink⟩ := List.exists_of_findSome?_eq_some hfind
  obtain ⟨⟨a, l, t⟩, hlink, heq⟩ := Option.map_eq_some_iff.mp hlink
  cases heq
  have hname := sublist_of_name? hname
  have hsplit := sublist_of_mem_shapeSplits hs
  have hlink := sublist_of_link? hlink
  have hrest := hsplit.2.trans hname.2
  exact ⟨hname.1, fun f hf => (hsplit.1 f hf).trans hname.2, hlink.1.trans hrest,
    hlink.2.trans hrest⟩

/-- A target is named by a part of its text, and its shape is another. -/
theorem isWritten_target {t : Target} (h : Target.ofText? cs = some t) (hcs : cs ⊆ source) :
    IsWritten source t.id ∧ ∀ f ∈ t.fragment, f ⊆ source := by
  simp only [Target.ofText?, Option.bind_eq_bind, Option.bind_eq_some_iff, Option.pure_def,
    Option.some.injEq] at h
  obtain ⟨⟨id, rest⟩, hname, rfl⟩ := h
  have hbare : (bareTarget cs).Sublist cs :=
    (trim_sublist _).trans ((dropTrailing_sublist _ _).trans (trim_sublist cs))
  have hname := sublist_of_name? hname
  refine ⟨isWritten_of_sublist (hname.1.trans hbare) hcs, fun f hf => ?_⟩
  dsimp only at hf
  split at hf
  · cases hf
    exact List.Subset.trans (hname.2.trans hbare).subset hcs
  · cases hf

/-- The name and the label of a group are taken from the line. -/
theorem sublist_of_groupHeader? {id label : List Char} (h : groupHeader? cs = some (id, label)) :
    id.Sublist cs ∧ label.Sublist cs := by
  simp only [groupHeader?, Option.bind_eq_bind, Option.bind_eq_some_iff] at h
  obtain ⟨after, hgap, ⟨name, rest⟩, hname, h⟩ := h
  have hname := sublist_of_name? hname
  have hgap := sublist_of_gap? hgap
  have hid := hname.1.trans hgap
  dsimp only at h
  split at h
  · rename_i rest' htrim
    have hrest : rest'.Sublist cs := by
      refine (List.sublist_cons_self '[' rest').trans ?_
      rw [← htrim]
      exact (trimLeft_sublist rest).trans (hname.2.trans hgap)
    split at h
    · cases h
      exact ⟨hid, (rest'.takeWhile_sublist _).trans hrest⟩
    · cases h
      exact ⟨hid, hid⟩
  · cases h
    exact ⟨hid, hid⟩

/-- What stands behind the keyword of a group is taken from the line. -/
theorem sublist_of_afterGroupKeyword? {rest : List Char} (h : afterGroupKeyword? cs = some rest) :
    rest.Sublist cs := by
  simp only [afterGroupKeyword?, Option.bind_eq_bind, Option.bind_eq_some_iff] at h
  obtain ⟨after, hafter, h⟩ := h
  split at h
  · cases h
  · cases h
    exact sublist_of_after? hafter

/-- The name and the shape of a declaration are taken from the line. -/
theorem sublist_of_declaration? {id fragment : List Char}
    (h : declaration? cs = some (id, fragment)) : id.Sublist cs ∧ fragment.Sublist cs := by
  simp only [declaration?, Option.bind_eq_bind, Option.bind_eq_some_iff] at h
  obtain ⟨⟨name, rest⟩, hname, h⟩ := h
  have hname := sublist_of_name? hname
  dsimp only at h
  split at h
  · cases h
    exact ⟨hname.1, (chomp_sublist rest).trans hname.2⟩
  · cases h

/-- The texts of a target are written with characters of the source. -/
structure Target.IsWritten (source : List Char) (t : Target) : Prop where
  /-- Its name. -/
  id : Xml.IsWritten source t.id
  /-- Its shape as written. -/
  fragment : ∀ f ∈ t.fragment, f ⊆ source

/-- The texts that a line gives are written with characters of the source. -/
def Line.IsWritten (source : List Char) : Line → Prop
  | groupStart _ label => Xml.IsWritten source label
  | groupEnd => True
  | connection s _ label t => s.IsWritten source ∧ Xml.IsWritten source label ∧ t.IsWritten source
  | declaration id fragment => Xml.IsWritten source id ∧ fragment ⊆ source
  | ignored => True

/-- What a line gives is written with its characters. -/
theorem Line.isWritten_ofText (hcs : cs ⊆ source) : (Line.ofText cs).IsWritten source := by
  unfold Line.ofText
  split
  · rename_i rest hkeyword
    split
    · rename_i id label hheader
      exact isWritten_of_sublist ((sublist_of_groupHeader? hheader).2.trans
        (sublist_of_afterGroupKeyword? hkeyword)) hcs
    · trivial
  · split
    · trivial
    · split
      · rename_i id fragment arrow label text hconnection
        obtain ⟨hid, hfragment, hlabel, htext⟩ := sublist_of_connection? hconnection
        split
        · rename_i target htarget
          have htarget := isWritten_target htarget (List.Subset.trans htext.subset hcs)
          refine ⟨⟨isWritten_of_sublist hid hcs, fun f hf => ?_⟩, ?_, htarget.1, htarget.2⟩
          · exact List.Subset.trans (hfragment f hf).subset hcs
          · exact isWritten_of_sublist ((trim_sublist label).trans hlabel) hcs
        · trivial
      · split
        · rename_i id fragment hdeclaration
          obtain ⟨hid, hfragment⟩ := sublist_of_declaration? hdeclaration
          exact ⟨isWritten_of_sublist hid hcs, List.Subset.trans hfragment.subset hcs⟩
        · trivial

namespace Scan

/-- What is known after some lines of a flowchart is written with characters of the source. -/
structure IsWritten (source : List Char) (s : Scan) : Prop where
  /-- The texts of nodes. -/
  nodes : ∀ e ∈ s.nodes, e.2.IsWritten source
  /-- The texts of edges. -/
  edges : ∀ e ∈ s.edges, (Connector.edge e).IsWritten source
  /-- The titles of the groups that have ended. -/
  groups : ∀ g ∈ s.groups, Xml.IsWritten source g.label
  /-- The title of the open group. -/
  current : ∀ g ∈ s.current, Xml.IsWritten source g.label

variable {s : Scan}

/-- After a mention everything can still be written. -/
theorem IsWritten.declare (h : s.IsWritten source) {t : Target} (ht : t.IsWritten source) :
    (s.declare t).IsWritten source := by
  unfold Scan.declare
  split
  · rename_i fragment hfragment
    have hlabel := ShapedLabel.isWritten_ofFragment (ht.fragment fragment hfragment)
    exact { h with nodes := Table.forall_insert h.nodes (Node.isWritten_shaped ht.id hlabel) }
  · exact { h with nodes := Table.forall_insertNew h.nodes (Node.isWritten_shaped ht.id ht.id) }

/-- After a node has joined a group everything can still be written. -/
theorem IsWritten.join (h : s.IsWritten source) (id : String) : (s.join id).IsWritten source := by
  refine { h with current := fun g hg => ?_ }
  obtain ⟨g', hg', rfl⟩ := Option.map_eq_some_iff.mp hg
  have hlabel : (g'.add id).label = g'.label := by
    unfold Group.add
    split <;> rfl
  rw [hlabel]
  exact h.current g' hg'

/-- One more line keeps to the source when its texts do. -/
theorem IsWritten.step (h : s.IsWritten source) {line : Line} (hline : line.IsWritten source) :
    (s.step line).IsWritten source := by
  cases line with
  | groupStart id label => exact { h with current := fun _ hg => Option.some.inj hg ▸ hline }
  | groupEnd =>
    simp only [Scan.step]
    split
    · rename_i g hg
      exact { h with
        groups := List.forall_mem_append.mpr ⟨h.groups, List.forall_mem_singleton.mpr
          (h.current g hg)⟩
        current := fun _ hs => absurd hs (Option.not_mem_none _) }
    · exact h
  | connection a arrow label b =>
    obtain ⟨ha, hlabel, hb⟩ := hline
    have h' := (((h.declare ha).declare hb).join a.id).join b.id
    refine { h' with edges := List.forall_mem_append.mpr ⟨h'.edges, List.forall_mem_singleton.mpr
      ⟨?_, hlabel⟩⟩ }
    exact isWritten_append.mpr ⟨isWritten_literal (by decide), isWritten_natRepr _⟩
  | declaration id fragment =>
    exact (h.declare (t := ⟨id, some fragment⟩)
      ⟨hline.1, fun f hf => Option.some.inj hf ▸ hline.2⟩).join id
  | ignored => exact h

/-- What is known after lines of the source keeps to it. -/
theorem isWritten_run {lines : List (List Char)} (h : ∀ line ∈ lines, line ⊆ source) :
    (lines.foldl Scan.feed {}).IsWritten source :=
  List.foldlRecOn lines Scan.feed
    ⟨List.forall_mem_nil _, List.forall_mem_nil _, List.forall_mem_nil _,
      fun _ hs => absurd hs (Option.not_mem_none _)⟩
    fun _ hs line hline => hs.step (Line.isWritten_ofText (h line hline))

end Scan

/-- What is read of a flowchart can be written. -/
theorem isWritten_read (direction : Direction) {lines : List (List Char)}
    (h : ∀ line ∈ lines, line ⊆ source) : (Flowchart.read direction lines).IsWritten source := by
  have hrun := Scan.isWritten_run (subset_of_mem_trimmed h)
  unfold Flowchart.read
  generalize ((lines.filter Source.isContent).map Text.trim).foldl Scan.feed {} = s at hrun ⊢
  exact
    { nodes := List.forall_mem_map.mpr (List.forall_mem_map.mpr hrun.nodes)
      edges := List.forall_mem_map.mpr hrun.edges
      groups := hrun.groups
      participants := List.forall_mem_nil _, messages := List.forall_mem_nil _
      entities := List.forall_mem_nil _, relationships := List.forall_mem_nil _ }

end Flowchart

/-! ### Mindmaps -/

namespace Mindmap

/-- The label of a topic can be written. -/
theorem isWritten_topic (hcs : cs ⊆ source) : IsWritten source (Topic.ofText cs).label := by
  unfold Topic.ofText
  dsimp only
  split
  · rename_i shape label hfind
    obtain ⟨m, -, hm⟩ := List.exists_of_findSome?_eq_some hfind
    obtain ⟨l, hl, heq⟩ := Option.map_eq_some_iff.mp hm
    cases heq
    exact isWritten_of_sublist ((trim_sublist _).trans (sublist_of_enclosed? hl)) hcs
  · exact isWritten_of_sublist (List.Sublist.refl cs) hcs

/-- The colours of a level are fixed text. -/
theorem isChar_levelColors (level : Int) :
    (∀ c ∈ (levelColors level).1.toList, IsChar c) ∧
      ∀ c ∈ (levelColors level).2.toList, IsChar c := by
  unfold levelColors
  split <;> decide

/-- What is known after some lines of a mindmap is written with characters of the source. -/
structure Scan.IsWritten (source : List Char) (s : Scan) : Prop where
  /-- The texts of topics. -/
  nodes : ∀ n ∈ s.nodes, n.IsWritten source
  /-- The texts of edges. -/
  edges : ∀ e ∈ s.edges, (Connector.edge e).IsWritten source

/-- One more topic keeps to the source when its label does. -/
theorem Scan.IsWritten.add {s : Scan} (h : s.IsWritten source) (depth : Nat) {t : Topic}
    (ht : Xml.IsWritten source t.label) : (s.add depth t).IsWritten source := by
  have hnumbered (start : String) (hstart : ∀ c ∈ start.toList, IsChar c) (n : Nat) :
      Xml.IsWritten source (start ++ toString n) :=
    isWritten_append.mpr ⟨isWritten_of_isChar hstart, isWritten_natRepr n⟩
  refine ⟨List.forall_mem_append.mpr ⟨h.nodes, List.forall_mem_singleton.mpr ?_⟩, ?_⟩
  · have hcolors := isChar_levelColors depth
    exact
      { id := hnumbered "node" (by decide) _, label := ht
        style := isWritten_of_isChar (isChar_look t.shape).1
        fill := fun _ hs => Option.some.inj hs ▸ isWritten_of_isChar hcolors.1
        stroke := fun _ hs => Option.some.inj hs ▸ isWritten_of_isChar hcolors.2 }
  · simp only [Scan.add]
    split
    · exact List.forall_mem_append.mpr ⟨h.edges, List.forall_mem_singleton.mpr
        ⟨hnumbered "e" (by decide) _, isWritten_of_isChar (s := "") (by decide)⟩⟩
    · exact h.edges

/-- What is read of a mindmap can be written. -/
theorem isWritten_read {lines : List (List Char)} (h : ∀ line ∈ lines, line ⊆ source) :
    (Mindmap.read lines).IsWritten source := by
  have hrun := List.foldlRecOn (motive := Scan.IsWritten source)
    (lines.filter fun l => Source.isContent l && !isIcon l) Scan.feed (b := {})
    ⟨List.forall_mem_nil _, List.forall_mem_nil _⟩
    fun s hs line hline => by
      have hsub := List.Subset.trans (trim_sublist line).subset
        (h line (List.mem_filter.mp hline).1)
      exact hs.add (depth line) (isWritten_topic hsub)
  unfold Mindmap.read
  generalize (lines.filter fun l => Source.isContent l && !isIcon l).foldl Scan.feed {} = s
    at hrun ⊢
  exact
    { nodes := List.forall_mem_map.mpr hrun.nodes
      edges := List.forall_mem_map.mpr hrun.edges
      groups := List.forall_mem_nil _, participants := List.forall_mem_nil _
      messages := List.forall_mem_nil _, entities := List.forall_mem_nil _
      relationships := List.forall_mem_nil _ }

end Mindmap

/-! ### Sequence diagrams -/

namespace Sequence

/-- What stands behind a keyword is taken from the line. -/
theorem sublist_of_keyword? {isActor : Bool} {rest : List Char}
    (h : keyword? cs = some (isActor, rest)) : rest.Sublist cs := by
  unfold keyword? at h
  split at h
  · rename_i hkeyword
    cases h
    exact sublist_of_afterLetters? hkeyword
  · obtain ⟨r, hr, heq⟩ := Option.map_eq_some_iff.mp h
    cases heq
    exact sublist_of_afterLetters? hr

/-- An alias is taken from the line. -/
theorem sublist_of_alias? {label : Option (List Char)} (h : alias? cs = some label) :
    ∀ l ∈ label, l.Sublist cs := by
  unfold alias? at h
  split at h
  · cases h
    exact fun _ hs => absurd hs (Option.not_mem_none _)
  · simp only [Option.bind_eq_bind, Option.bind_eq_some_iff] at h
    obtain ⟨first, hfirst, after, hafter, rest, hrest, h⟩ := h
    split at h
    · cases h
    · cases h
      intro l hl
      cases hl
      exact (sublist_of_gap? hrest).trans
        ((sublist_of_afterLetters? hafter).trans (sublist_of_gap? hfirst))

/-- The name and the alias of a declaration are taken from the line. -/
theorem sublist_of_declaration? {isActor : Bool} {id : List Char} {label : Option (List Char)}
    (h : declaration? cs = some (isActor, id, label)) :
    id.Sublist cs ∧ ∀ l ∈ label, l.Sublist cs := by
  simp only [declaration?, Option.bind_eq_bind, Option.bind_eq_some_iff, Option.pure_def,
    Option.some.injEq, Prod.mk.injEq] at h
  obtain ⟨⟨_, rest⟩, hkeyword, after, hgap, ⟨name, rest'⟩, hname, label, hlabel, -, rfl, rfl⟩ := h
  have hname := sublist_of_name? hname
  have hafter := (sublist_of_gap? hgap).trans (sublist_of_keyword? hkeyword)
  exact ⟨hname.1.trans hafter, fun l hl =>
    (sublist_of_alias? hlabel l hl).trans (hname.2.trans hafter)⟩

/-- What stands behind an arrow is taken from the line. -/
theorem sublist_of_arrow {arrow : MessageArrow} {rest : List Char}
    (h : MessageArrow.ofStart? cs = some (arrow, rest)) : rest.Sublist cs := by
  unfold MessageArrow.ofStart? at h
  split at h <;> cases h
  · exact List.sublist_append_right ['-', '-', '>', '>'] _
  · exact List.sublist_append_right ['-', '-', '>'] _
  · exact List.sublist_append_right ['-', '>', '>'] _
  · exact List.sublist_append_right ['-', '>'] _

/-- The ends and the text of a message are taken from the line. -/
theorem sublist_of_message? {source target text : List Char} {arrow : MessageArrow}
    (h : message? cs = some (source, arrow, target, text)) :
    source.Sublist cs ∧ target.Sublist cs ∧ text.Sublist cs := by
  simp only [message?, Option.bind_eq_bind, Option.bind_eq_some_iff] at h
  obtain ⟨⟨name, rest⟩, hname, ⟨a, rest'⟩, harrow, ⟨name', rest''⟩, hname', after, hafter, h⟩ := h
  split at h
  · cases h
  · cases h
    have hname := sublist_of_name? hname
    have hname' := sublist_of_name? hname'
    have hrest : rest'.Sublist cs :=
      (sublist_of_arrow harrow).trans ((trimLeft_sublist rest).trans hname.2)
    have htarget := (trimLeft_sublist rest').trans hrest
    have htext := (trimLeft_sublist after).trans ((sublist_of_after? hafter).trans
      ((trimLeft_sublist rest'').trans (hname'.2.trans htarget)))
    exact ⟨hname.1, hname'.1.trans htarget, htext⟩

/-- The texts that a line gives are written with characters of the source. -/
def Line.IsWritten (source : List Char) : Line → Prop
  | declaration _ id label => Xml.IsWritten source id ∧ Xml.IsWritten source label
  | message sender _ target text =>
    Xml.IsWritten source sender ∧ Xml.IsWritten source target ∧ Xml.IsWritten source text
  | ignored => True

/-- What a line gives is written with its characters. -/
theorem Line.isWritten_ofText (hcs : cs ⊆ source) : (Line.ofText cs).IsWritten source := by
  unfold Line.ofText
  split
  · rename_i isActor id label hdeclaration
    obtain ⟨hid, hlabel⟩ := sublist_of_declaration? hdeclaration
    refine ⟨isWritten_of_sublist hid hcs, ?_⟩
    cases label with
    | none => exact isWritten_of_sublist ((trim_sublist id).trans hid) hcs
    | some l => exact isWritten_of_sublist ((trim_sublist l).trans (hlabel l rfl)) hcs
  · split
    · rename_i sender arrow target text hmessage
      obtain ⟨hsender, htarget, htext⟩ := sublist_of_message? hmessage
      exact ⟨isWritten_of_sublist hsender hcs, isWritten_of_sublist htarget hcs,
        isWritten_of_sublist ((trim_sublist text).trans htext) hcs⟩
    · trivial

/-- What is known after some lines of a sequence diagram is written with characters of the
source. -/
structure Scan.IsWritten (source : List Char) (s : Scan) : Prop where
  /-- The texts of participants. -/
  participants : ∀ e ∈ s.participants, e.2.IsWritten source
  /-- Those of messages. -/
  messages : ∀ m ∈ s.messages, Xml.IsWritten source m.text

/-- After a mention everything can still be written. -/
theorem Scan.IsWritten.mention {s : Scan} (h : s.IsWritten source) {id : String}
    (hid : Xml.IsWritten source id) : (s.mention id).IsWritten source :=
  { h with participants := Table.forall_insertNew h.participants ⟨hid, hid⟩ }

/-- One more line keeps to the source when its texts do. -/
theorem Scan.IsWritten.step {s : Scan} (h : s.IsWritten source) {line : Line}
    (hline : line.IsWritten source) : (s.step line).IsWritten source := by
  cases line with
  | declaration isActor id label =>
    exact { h with participants := Table.forall_insert h.participants ⟨hline.1, hline.2⟩ }
  | message sender arrow target text =>
    obtain ⟨hsender, htarget, htext⟩ := hline
    have h' := (h.mention hsender).mention htarget
    exact ⟨h'.participants, List.forall_mem_append.mpr
      ⟨h'.messages, List.forall_mem_singleton.mpr htext⟩⟩
  | ignored => exact h

/-- What is read of a sequence diagram can be written. -/
theorem isWritten_read {lines : List (List Char)} (h : ∀ line ∈ lines, line ⊆ source) :
    (Sequence.read lines).IsWritten source := by
  have hrun := List.foldlRecOn (motive := Scan.IsWritten source)
    ((lines.filter Source.isContent).map Text.trim) Scan.feed (b := {})
    ⟨List.forall_mem_nil _, List.forall_mem_nil _⟩
    fun s hs line hline => hs.step (Line.isWritten_ofText (subset_of_mem_trimmed h line hline))
  unfold Sequence.read
  generalize ((lines.filter Source.isContent).map Text.trim).foldl Scan.feed {} = s at hrun ⊢
  have hparticipants := List.forall_mem_map.mpr hrun.participants
  refine
    { nodes := List.forall_mem_map.mpr hparticipants
      edges := List.forall_mem_map.mpr (List.forall_mem_map.mpr fun m hm => ⟨?_, ?_⟩)
      groups := List.forall_mem_nil _, participants := hparticipants, messages := hrun.messages
      entities := List.forall_mem_nil _, relationships := List.forall_mem_nil _ }
  · exact isWritten_append.mpr ⟨isWritten_literal (by decide), isWritten_natRepr _⟩
  · exact hrun.messages _ (List.fst_mem_of_mem_zipIdx hm)

end Sequence

/-! ### Entity-relationship diagrams -/

namespace Entities

/-- A type is part of the line, with the brackets after it. -/
theorem sublist_of_typeName? {name rest : List Char} (h : typeName? cs = some (name, rest)) :
    name.Sublist cs ∧ rest.Sublist cs := by
  simp only [typeName?, Option.bind_eq_bind, Option.bind_eq_some_iff] at h
  obtain ⟨⟨run, after⟩, hname, h⟩ := h
  have hcs := eq_append_of_name? hname
  dsimp only at h
  split at h
  · cases h
    have hsplit : cs = (run ++ ['[', ']']) ++ rest := by simp [hcs]
    rw [hsplit]
    exact ⟨List.sublist_append_left _ _, List.sublist_append_right _ _⟩
  · cases h
    exact sublist_of_name? hname

/-- What is read of an attribute can be written. -/
theorem isWritten_attribute {a : Attribute} (h : attribute? cs = some a) (hcs : cs ⊆ source) :
    a.IsWritten source := by
  simp only [attribute?, Option.bind_eq_bind, Option.bind_eq_some_iff, Option.pure_def,
    Option.some.injEq] at h
  obtain ⟨⟨type, rest⟩, htype, after, hgap, ⟨name, rest'⟩, hname, comment, -, rfl⟩ := h
  have htype := sublist_of_typeName? htype
  have hname := (sublist_of_name? hname).1.trans ((sublist_of_gap? hgap).trans htype.2)
  refine ⟨isWritten_of_sublist htype.1 hcs, isWritten_of_sublist hname hcs, ?_⟩
  refine List.forall_mem_map.mpr fun k _ => ?_
  cases k <;> exact isWritten_literal (by decide)

/-- What stands behind a mark is taken from the line. -/
theorem sublist_of_markOrNone (cs : List Char) : (markOrNone cs).2.Sublist cs := by
  unfold markOrNone
  split
  · rename_i m rest hmark
    unfold mark? at hmark
    split at hmark
    · rename_i a b rest'
      obtain ⟨m, -, heq⟩ := Option.map_eq_some_iff.mp hmark
      cases heq
      exact (trimLeft_sublist rest).trans (List.sublist_append_right [a, b] rest)
    · cases hmark
  · exact List.Sublist.refl cs

/-- What stands behind a link is taken from the line. -/
theorem sublist_of_link? {identifying : Bool} {rest : List Char}
    (h : link? cs = some (identifying, rest)) : rest.Sublist cs := by
  unfold link? at h
  split at h <;> cases h
  · exact List.sublist_append_right ['-', '-'] rest
  · exact List.sublist_append_right ['.', '.'] rest

/-- What stands behind the mark and the link is taken from the line. -/
theorem sublist_of_startMark? {mark : Option Cardinality} {identifying : Bool} {rest : List Char}
    (h : startMark? cs = some (mark, identifying, rest)) : rest.Sublist cs := by
  simp only [startMark?, Option.bind_eq_bind, Option.bind_eq_some_iff, Option.pure_def,
    Option.some.injEq, Prod.mk.injEq] at h
  obtain ⟨⟨_, after⟩, hlink, -, -, rfl⟩ := h
  exact (sublist_of_link? hlink).trans (sublist_of_markOrNone cs)

/-- The first name of a relationship is part of the line, even if it gives its last letter to the
mark. -/
theorem sublist_of_start? {name : List Char} {mark : Option Cardinality} {identifying : Bool}
    {rest : List Char} (h : start? cs = some (name, mark, identifying, rest)) :
    name.Sublist cs ∧ rest.Sublist cs := by
  simp only [start?, Option.bind_eq_bind, Option.bind_eq_some_iff] at h
  obtain ⟨⟨run, after⟩, hname, h⟩ := h
  have hcs := eq_append_of_name? hname
  have hname := sublist_of_name? hname
  dsimp only at h
  split at h
  · rename_i link hlink
    cases h
    exact ⟨hname.1, (sublist_of_startMark? hlink).trans ((trimLeft_sublist after).trans hname.2)⟩
  · split at h
    · rename_i hring
      simp only [Option.bind_eq_some_iff, Option.some.injEq, Prod.mk.injEq] at h
      obtain ⟨link, hlink, rfl, rfl⟩ := h
      have hrun : run.dropLast ++ ['o'] = run :=
        List.dropLast_append_getLast? 'o' hring.1
      have hsplit : cs = run.dropLast ++ 'o' :: after := by
        rw [hcs, ← hrun]
        simp
      refine ⟨(List.dropLast_sublist run).trans hname.1, ?_⟩
      rw [hsplit]
      exact (sublist_of_startMark? hlink).trans (List.sublist_append_right _ _)
    · cases h

/-- The label of a relationship is taken from the line. -/
theorem sublist_of_label? {label : List Char} (h : label? cs = some label) : label.Sublist cs := by
  have hcases : ∀ ds : List Char, ds.Sublist cs → (if ds.takeWhile (· != '"') ≠ [] then
      some (ds.takeWhile (· != '"')) else if cs.head?.any isBlank then some [] else none) =
        some label → label.Sublist cs := by
    intro ds hds h
    split at h
    · cases h
      exact (ds.takeWhile_sublist _).trans hds
    · split at h
      · cases h
        exact List.nil_sublist cs
      · cases h
  unfold label? at h
  dsimp only at h
  split at h
  · rename_i rest htrim
    refine hcases rest ((List.sublist_cons_self '"' rest).trans ?_) h
    rw [← htrim]
    exact trimLeft_sublist cs
  · exact hcases _ (trimLeft_sublist cs) h

/-- The names of a relationship and its label are parts of the line. -/
theorem isWritten_relationship {r : Relationship} (h : relationship? cs = some r)
    (hcs : cs ⊆ source) :
    IsWritten source r.source ∧ IsWritten source r.target ∧ IsWritten source r.label := by
  simp only [relationship?, Option.bind_eq_bind, Option.bind_eq_some_iff, Option.pure_def,
    Option.some.injEq] at h
  obtain ⟨⟨name, mark, identifying, rest⟩, hstart, ⟨target, rest'⟩, hname, after, hafter, label,
    hlabel, rfl⟩ := h
  have hstart := sublist_of_start? hstart
  have hname := sublist_of_name? hname
  have hmark : (markOrNone (trimLeft rest)).2.Sublist cs :=
    (sublist_of_markOrNone _).trans ((trimLeft_sublist rest).trans hstart.2)
  have hrest := (sublist_of_after? hafter).trans ((trimLeft_sublist rest').trans
    (hname.2.trans hmark))
  exact ⟨isWritten_of_sublist hstart.1 hcs, isWritten_of_sublist (hname.1.trans hmark) hcs,
    isWritten_of_sublist ((trim_sublist label).trans ((sublist_of_label? hlabel).trans hrest)) hcs⟩

/-- Attributes that are paired from words can be written. -/
theorem isWritten_pairAttributes {words : List (List Char)} {attributes : List Attribute}
    (h : pairAttributes words = some attributes) (hwords : ∀ w ∈ words, w ⊆ source) :
    ∀ a ∈ attributes, a.IsWritten source := by
  fun_induction pairAttributes words generalizing attributes with
  | case1 =>
    cases h
    exact List.forall_mem_nil _
  | case2 => cases h
  | case3 type name rest ih =>
    obtain ⟨later, hlater, rfl⟩ := Option.map_eq_some_iff.mp h
    rw [List.forall_mem_cons, List.forall_mem_cons] at hwords
    obtain ⟨htype, hname, hrest⟩ := hwords
    refine List.forall_mem_cons.mpr
      ⟨⟨?_, ?_, List.forall_mem_nil _⟩, ih hlater hrest⟩
    · exact isWritten_of_sublist (List.Sublist.refl type) htype
    · exact isWritten_of_sublist (List.Sublist.refl name) hname

/-- What is read of a short description can be written. -/
theorem isWritten_shorthand {name : List Char} {attributes : List Attribute}
    (h : shorthand? cs = some (name, attributes)) (hcs : cs ⊆ source) :
    IsWritten source (String.ofList name) ∧ ∀ a ∈ attributes, a.IsWritten source := by
  simp only [shorthand?, Option.bind_eq_bind, Option.bind_eq_some_iff] at h
  obtain ⟨⟨run, rest⟩, hname, after, hafter, inside, hinside, all, hall, h⟩ := h
  split at h
  · cases h
  · cases h
    have hname := sublist_of_name? hname
    have hinside := (sublist_of_before? hinside).trans ((sublist_of_after? hafter).trans
      ((trimLeft_sublist rest).trans hname.2))
    refine ⟨isWritten_of_sublist hname.1 hcs, isWritten_pairAttributes hall fun w hw => ?_⟩
    exact List.Subset.trans ((sublist_of_mem_words hw).trans hinside).subset hcs

/-- The name of an entity that is opened is taken from the line. -/
theorem sublist_of_opening? {name : List Char} (h : opening? cs = some name) :
    name.Sublist cs := by
  simp only [opening?, Option.bind_eq_bind, Option.bind_eq_some_iff] at h
  obtain ⟨⟨run, rest⟩, hname, h⟩ := h
  dsimp only at h
  split at h
  · cases h
    exact (sublist_of_name? hname).1
  · cases h

/-- The texts that a line gives are written with characters of the source. -/
def Line.IsWritten (source : List Char) : Line → Prop
  | blockStart name => Xml.IsWritten source name
  | blockEnd => True
  | .«attribute» a => a.IsWritten source
  | relationship r =>
    Xml.IsWritten source r.source ∧ Xml.IsWritten source r.target ∧ Xml.IsWritten source r.label
  | entity name attributes =>
    Xml.IsWritten source name ∧ ∀ a ∈ attributes, a.IsWritten source
  | ignored => True

/-- What a line gives is written with its characters. -/
theorem Line.isWritten_ofText (inBlock : Bool) (hcs : cs ⊆ source) :
    (Line.ofText inBlock cs).IsWritten source := by
  unfold Line.ofText
  split
  · trivial
  · split
    · rename_i name hopening
      exact isWritten_of_sublist (sublist_of_opening? hopening) hcs
    · split
      · rename_i a hattribute
        split at hattribute
        · exact isWritten_attribute hattribute hcs
        · cases hattribute
      · unfold Line.ofOther
        split
        · rename_i r hrelationship
          exact isWritten_relationship hrelationship hcs
        · split
          · rename_i name attributes hshorthand
            exact isWritten_shorthand hshorthand hcs
          · trivial

/-- What is known after some lines of an entity-relationship diagram is written with characters of
the source. -/
structure Scan.IsWritten (source : List Char) (s : Scan) : Prop where
  /-- The texts of entities. -/
  entities : ∀ e ∈ s.entities, e.2.IsWritten source
  /-- The names and labels of relationships. -/
  relationships : ∀ r ∈ s.relationships, (Connector.relationship r).IsWritten source

variable {s : Scan}

/-- After a mention everything can still be written. -/
theorem Scan.IsWritten.mention (h : s.IsWritten source) {name : String}
    (hname : Xml.IsWritten source name) : (s.mention name).IsWritten source :=
  { h with
    entities := Table.forall_insertNew h.entities ⟨hname, hname, List.forall_mem_nil _⟩ }

/-- After a description everything can still be written. -/
theorem Scan.IsWritten.describe (h : s.IsWritten source) (name : String)
    {attributes : List Attribute} (hattributes : ∀ a ∈ attributes, a.IsWritten source) :
    (s.describe name attributes).IsWritten source := by
  refine { h with entities := Table.forall_adjust h.entities name fun _ e he => ?_ }
  exact { he with attributes := List.forall_mem_append.mpr ⟨he.attributes, hattributes⟩ }

/-- One more line keeps to the source when its texts do. -/
theorem Scan.IsWritten.step (h : s.IsWritten source) {line : Line}
    (hline : line.IsWritten source) : (s.step line).IsWritten source := by
  cases line with
  | blockStart name =>
    have h' := h.mention hline
    exact ⟨h'.entities, h'.relationships⟩
  | blockEnd => exact ⟨h.entities, h.relationships⟩
  | «attribute» a =>
    simp only [Scan.step]
    split
    · rename_i name _
      exact h.describe name (List.forall_mem_singleton.mpr hline)
    · exact h
  | relationship r =>
    obtain ⟨hsource, htarget, hlabel⟩ := hline
    have h' := (h.mention hsource).mention htarget
    refine ⟨h'.entities, List.forall_mem_append.mpr
      ⟨h'.relationships, List.forall_mem_singleton.mpr ⟨?_, hlabel⟩⟩⟩
    exact isWritten_append.mpr ⟨isWritten_literal (by decide), isWritten_natRepr _⟩
  | entity name attributes => exact (h.mention hline.1).describe name hline.2
  | ignored => exact h

/-- What is read of an entity-relationship diagram can be written. -/
theorem isWritten_read {lines : List (List Char)} (h : ∀ line ∈ lines, line ⊆ source) :
    (Entities.read lines).IsWritten source := by
  have hrun := List.foldlRecOn (motive := Scan.IsWritten source)
    ((lines.filter Source.isContent).map Text.trim) Scan.feed (b := {})
    ⟨List.forall_mem_nil _, List.forall_mem_nil _⟩
    fun s hs line hline =>
      hs.step (Line.isWritten_ofText s.current.isSome (subset_of_mem_trimmed h line hline))
  unfold Entities.read
  generalize ((lines.filter Source.isContent).map Text.trim).foldl Scan.feed {} = s at hrun ⊢
  have hentities := List.forall_mem_map.mpr hrun.entities
  exact
    { nodes := List.forall_mem_map.mpr hentities
      edges := List.forall_mem_map.mpr hrun.relationships
      groups := List.forall_mem_nil _, participants := List.forall_mem_nil _
      messages := List.forall_mem_nil _, entities := hentities
      relationships := fun r hr => (hrun.relationships r hr).label }

end Entities

/-! ### All dialects -/

/-- What is read from lines of the source is written with its characters. -/
theorem Source.isWritten_readBody (header : List Char) {body : List (List Char)}
    (h : ∀ line ∈ body, line ⊆ source) : (Source.readBody header body).IsWritten source := by
  have hflowchart (direction : Direction) (metadata : Json) :
      Diagram.IsWritten source { Flowchart.read direction body with metadata := metadata } := by
    have hd := Flowchart.isWritten_read direction h
    exact ⟨hd.nodes, hd.edges, hd.groups, hd.participants, hd.messages, hd.entities,
      hd.relationships⟩
  unfold Source.readBody
  split
  · exact Sequence.isWritten_read h
  · exact Entities.isWritten_read h
  · exact Mindmap.isWritten_read h
  · exact Flowchart.isWritten_read _ h
  · exact hflowchart .td _
  · exact hflowchart .td _

/-- **Main statement.** The texts of a diagram that was read from text of a source are written with
the characters of the source and with legal ones. -/
theorem isWritten_of_parse {code : String} {d : Diagram} (h : Diagram.parse code = .ok d)
    (hsource : code.toList ⊆ source) : d.IsWritten source := by
  obtain ⟨header, body, hbody, rfl⟩ := Diagram.eq_readBody_of_parse h
  refine Source.isWritten_readBody header fun line hline => ?_
  exact List.Subset.trans (Source.sublist_of_headerAndBody? hbody line hline).subset hsource

end Diagrams
