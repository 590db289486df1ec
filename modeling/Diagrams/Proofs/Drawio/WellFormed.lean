import Diagrams.Proofs.Drawio.Markup
import Diagrams.Proofs.Drawio.Positions
import Diagrams.Proofs.Drawio.Texts
import Diagrams.Proofs.Reading.Characters

/-!
# Documents are well-formed and read back

**Main statement** (`toDrawio_reads`): the document that is drawn for a text holds, besides legal
characters, only characters of the text and of the title. When all of them are legal it is
well-formed, and a reader finds the title and a box for every node, with its label.

What a text can hold decides nothing else: a document is a proper element whatever the labels are
(`Diagram.isProper_of_parse`), so the written form of a label never ends the attribute in which it
stands. Characters that XML forbids are written as they stand, and so reach the document when a
label or the title has them; no reader takes it then.
-/

namespace Diagrams

open Drawio Layout Xml

variable {A : Number.Arithmetic} {title code : String} {stamp : Stamp} {d : Diagram}
  {doc : Document}

/-! ### Titles -/

/-- The title of a document: an empty title counts as none. -/
theorem Diagram.title_toDrawio (h : d.toDrawio A (some title) stamp = .ok doc) :
    doc.title = .text (if title = "" then defaultTitle d.kind else title) := by
  have htitle : orElse (some title) (defaultTitle d.kind) =
      if title = "" then defaultTitle d.kind else title := by
    unfold orElse
    split
    · rename_i heq
      cases heq
    · rename_i heq
      cases heq
      rfl
    · rename_i t hne heq
      cases heq
      exact (if_neg hne).symm
  rw [← htitle]
  exact (Diagram.toDrawio_spec h).1

/-- The titles that are used when there is none are legal. -/
theorem isChar_defaultTitle (kind : Term Dialect) : ∀ c ∈ (defaultTitle kind).toList, IsChar c := by
  unfold defaultTitle
  split <;> exact isChar_literal (by decide)

/-! ### Boxes -/

/-- The cells that show a diagram have boxes for its nodes, a flowchart's with its terminals. -/
theorem Diagram.Shows.exists_boxes {cellOf : String → String} {cells : List Cell}
    (h : d.Shows cellOf cells) :
    ∃ boxes, boxes.Sublist (pageBoxes cells) ∧ ShowsNodes cellOf boxes (withTerminals d).nodes := by
  have hplain (hkind : d.kind ≠ Dialect.flowchart) : (withTerminals d).nodes = d.nodes := by
    rw [withTerminals, if_pos hkind]
  have hchart (h : ShowsChart cellOf cells (withTerminals d).nodes (withTerminals d).edges
      d.groups) : ∃ boxes, boxes.Sublist (pageBoxes cells) ∧
        ShowsNodes cellOf boxes (withTerminals d).nodes := by
    obtain ⟨lanes, boxes, hboxes, -, hnodes⟩ := h.boxes
    exact ⟨boxes, hboxes ▸ List.sublist_append_right lanes boxes, hnodes⟩
  unfold Diagram.Shows at h
  split at h <;> rename_i hkind
  · rw [hplain (by rw [hkind]; decide)]
    exact ⟨_, .refl _, h.boxes⟩
  · rw [hplain (by rw [hkind]; decide)]
    exact ⟨_, .refl _, h.boxes⟩
  · rw [hplain (by rw [hkind]; decide)]
    exact ⟨_, .refl _, h.boxes⟩
  · exact hchart h
  · exact hchart h

/-- Reading a document that shows a diagram finds boxes for its nodes, in their order, each with a
name and the node's label. -/
theorem Diagram.Shows.exists_boxes_toXml {cellOf : String → String}
    (h : d.Shows cellOf doc.cells) :
    ∃ boxes, boxes.Sublist doc.toXml.cells ∧
      List.Forall₂ (fun c n => ∃ b, c.IsBoxAt (cellOf n.id) n.label b) boxes
        (withTerminals d).nodes := by
  obtain ⟨boxes, hboxes, hshows⟩ := h.exists_boxes
  refine ⟨boxes.map Vertex.toXml, ?_, ?_⟩
  · have hcells := ((hboxes.map _).trans (sublist_pageBoxes doc.cells)).map Cell.toXml
    rw [List.map_map] at hcells
    rw [cells_toXml]
    exact hcells.trans (List.sublist_append_right _ _)
  · have hplain : ∀ v ∈ boxes, v.container = none := fun v hv =>
      of_decide_eq_true (List.mem_filter.mp (hboxes.subset hv)).2
    rw [List.forall₂_map_left_iff]
    refine List.Forall₂.imp ?_ ((List.forall₂_and_left _ _).mpr ⟨hplain, hshows⟩)
    rintro v n ⟨hv, hid, hlabel⟩
    refine ⟨v.box, ?_⟩
    rw [← hid, ← hlabel]
    exact v.isBoxAt_toXml hv

/-! ### The document of a text -/

/-- The document that is drawn for a text is a proper element, written with the characters of the
text and of the title. -/
theorem Diagram.isProper_of_parse (h : Diagram.parse code = .ok d)
    (hdoc : d.toDrawio A (some title) stamp = .ok doc) :
    IsProper (code.toList ++ title.toList) doc.toXml := by
  have hd := isWritten_of_parse h (List.subset_append_left code.toList title.toList)
  refine Document.isProper_toXml (Diagram.title_toDrawio hdoc) ?_
    (hd.cells (Diagram.toDrawio_spec hdoc).2)
  split
  · exact isWritten_of_isChar (isChar_defaultTitle d.kind)
  · exact fun c hc => .inr (List.mem_append_right _ hc)

/-- **Main statement.** For every text that can be read and every title, a document is drawn in
which every character is legal or one of the text or of the title, unless the text is a flowchart
that is too wide. When all characters are legal the document is well-formed. Its reader finds one
page, with the title or, when that is empty, the usual one of the dialect, and on it a box for every
node, with the node's label. -/
theorem toDrawio_reads (A : Number.Arithmetic) (title : String) (stamp : Stamp) (code : String)
    (d : Diagram) (h : Diagram.parse code = .ok d) :
    d.DrawnOrWide A (some title) stamp fun doc =>
      (∀ c ∈ doc.text.toList, IsChar c ∨ c ∈ code.toList ∨ c ∈ title.toList) ∧
      ((∀ c ∈ doc.text.toList, IsChar c) → ∃ x, Xml.read doc.text = some x ∧
        (∃ page, x.children = [page] ∧ page.name = "diagram" ∧
          page.attribute? "name" = some (if title = "" then defaultTitle d.kind else title)) ∧
        ∃ (cellOf : String → String) (boxes : List Xml), boxes.Sublist x.cells ∧
          List.Forall₂ (fun c n => ∃ b, c.IsBoxAt (cellOf n.id) n.label b) boxes
            (withTerminals d).nodes) := by
  refine (Diagram.drawnOrWide_of_parse A h (some title) stamp).imp fun doc hdoc _ => ?_
  have hproper := Diagram.isProper_of_parse h hdoc
  obtain ⟨cellOf, hshows⟩ := (isSound_of_parse code d h).shows hdoc
  obtain ⟨boxes, hboxes⟩ := hshows.exists_boxes_toXml
  refine ⟨fun c hc => ?_, fun hlegal => ?_⟩
  · exact (hproper.isFrom_text c hc).imp_right List.mem_append.mp
  · refine ⟨doc.toXml, hproper.read_text hlegal, ⟨_, rfl, rfl, ?_⟩, cellOf, boxes, hboxes⟩
    show some doc.title.content = _
    rw [Diagram.title_toDrawio hdoc]
    rfl

/-- A participant whose label is full of markup. -/
def marked : Diagram where
  kind := Dialect.sequence
  direction := none
  nodes := [.participant ⟨"a", "<b> & \"c\"", false⟩]
  participants := [⟨"a", "<b> & \"c\"", false⟩]

set_option maxRecDepth 100000 in
/-- Markup in labels and titles is read back. -/
theorem toDrawio_reads_marked :
    Diagram.parse "sequenceDiagram\nparticipant a as <b> & \"c\"" = .ok marked ∧
      ∃ doc x,
        marked.toDrawio .binary64 (some "A < B") ⟨⟨2024, 1, 2, 3, 4, 5, 678901⟩, []⟩ = .ok doc ∧
        Xml.read doc.text = some x ∧
        (∃ page, x.children = [page] ∧ page.attribute? "name" = some "A < B") ∧
        ∃ box ∈ x.cells, box.attribute? "value" = some "<b> & \"c\"" := by
  have hparse : Diagram.parse "sequenceDiagram\nparticipant a as <b> & \"c\"" = .ok marked := rfl
  obtain ⟨doc, hdoc, hchars, hread⟩ :=
    (toDrawio_reads .binary64 "A < B" _ _ marked hparse).resolve_right
      fun hwide => nomatch hwide.1.kind
  have hcode : ∀ c ∈ "sequenceDiagram\nparticipant a as <b> & \"c\"".toList, IsChar c := by decide
  have htitle : ∀ c ∈ "A < B".toList, IsChar c := by decide
  have hlegal : ∀ c ∈ doc.text.toList, IsChar c := fun c hc =>
    (hchars c hc).elim id fun h => h.elim (hcode c) (htitle c)
  obtain ⟨x, hx, ⟨page, hpage, -, htitle⟩, cellOf, boxes, hboxes, hshows⟩ := hread hlegal
  refine ⟨hparse, doc, x, hdoc, hx, ⟨page, hpage, htitle⟩, ?_⟩
  cases hshows with
  | cons hbox _ =>
    obtain ⟨b, hbox⟩ := hbox
    exact ⟨_, hboxes.subset List.mem_cons_self, hbox.label⟩

/-- A participant whose label is a character that XML forbids. -/
def controlled : Diagram where
  kind := Dialect.sequence
  direction := none
  nodes := [.participant ⟨"a", "\x01", false⟩]
  participants := [⟨"a", "\x01", false⟩]

set_option maxRecDepth 100000 in
/-- An empty title is not the one that is read, and a character that XML forbids reaches the
document, so that it is not well-formed. -/
theorem toDrawio_unread :
    (∃ d doc x page, Diagram.parse "sequenceDiagram" = .ok d ∧
      d.toDrawio .binary64 (some "") ⟨⟨2024, 1, 2, 3, 4, 5, 678901⟩, []⟩ = .ok doc ∧
      Xml.read doc.text = some x ∧ x.children = [page] ∧ page.name = "diagram" ∧
      page.attribute? "name" = some "Sequence Diagram") ∧
    ∃ doc, Diagram.parse "sequenceDiagram\nparticipant a as \x01" = .ok controlled ∧
      controlled.toDrawio .binary64 (some "t") ⟨⟨2024, 1, 2, 3, 4, 5, 678901⟩, []⟩ = .ok doc ∧
      '\x01' ∈ doc.text.toList ∧ ¬ IsChar '\x01' ∧ Xml.read doc.text = none := by
  constructor
  · let doc : Document :=
      { title := .text "Sequence Diagram", stamp := ⟨⟨2024, 1, 2, 3, 4, 5, 678901⟩, []⟩
        cells := [] }
    have hparse : Diagram.parse "sequenceDiagram" =
        .ok { kind := Dialect.sequence, direction := none } := rfl
    have hdoc : Diagram.toDrawio .binary64 { kind := Dialect.sequence, direction := none } (some "")
        ⟨⟨2024, 1, 2, 3, 4, 5, 678901⟩, []⟩ = .ok doc := rfl
    have hproper := Diagram.isProper_of_parse hparse hdoc
    have hsource : ∀ c ∈ "sequenceDiagram".toList ++ "".toList, IsChar c := by decide
    have hlegal : ∀ c ∈ doc.text.toList, IsChar c := fun c hc =>
      (hproper.isFrom_text c hc).elim id (hsource c)
    exact ⟨_, doc, _, _, hparse, hdoc, hproper.read_text hlegal, rfl, rfl, rfl⟩
  · let doc : Document :=
      { title := .text "t", stamp := ⟨⟨2024, 1, 2, 3, 4, 5, 678901⟩, []⟩
        cells := controlled.sequenceCells }
    have hwritten : '\x01' ∈ doc.toXml.write 0 := by decide +kernel
    have hmem : '\x01' ∈ doc.text.toList := by
      simp only [Document.text, Xml.text, String.toList_append, String.toList_ofList]
      exact List.mem_append_right _ hwritten
    have hillegal : ¬ IsChar '\x01' := by decide
    have hread : Xml.read doc.text = none := Option.eq_none_iff_forall_ne_some.mpr fun x hx =>
      hillegal (isChar_of_read hx _ hmem)
    exact ⟨doc, rfl, rfl, hmem, hillegal, hread⟩

end Diagrams
