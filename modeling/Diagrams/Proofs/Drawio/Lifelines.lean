import Diagrams.Proofs.Drawio.Picture
import Diagrams.Proofs.Number.Binary64

/-!
# Lifelines and messages

**Main statement** (`isTimeline_of_parse`): in the document that is drawn for a sequence diagram
every participant has one lifeline, which starts at its box, and no two lifelines stand at the same
place. Each message is a straight level line from the lifeline of its sender to that of its
receiver, between the ends of the lifelines and below all earlier messages.

Where participants stand, how high messages lie and how long lifelines are is said by three formulas
of the layout. `Diagram.IsTimeline` is what these have to agree on; `box_lifeline`, `lt_messageY` and
`messageY_lt` are the facts about them. That the cells of a page are boxes, lifelines and messages,
none of them left out, is `exists_sequenceParts`. In the written document numbers are rounded
to 53 bits, which changes no whole number below `2 ^ 53` (`Drawio.Line.isLineBetween_toXml`).
-/

namespace Diagrams

open Drawio Layout Number

/-! ### Lines between points -/

namespace Drawio

/-- The line runs straight from one point to another. -/
structure Line.Runs (l : Line) (source target : Int × Int) : Prop where
  /-- It joins the points. -/
  ends : l.ends = .points ⟨source.1, source.2⟩ ⟨target.1, target.2⟩
  /-- It runs through no others. -/
  straight : l.waypoints = []
  /-- Its text is not moved. -/
  plain : l.offset = none

/-- The lines of a page that are drawn as lifelines. -/
def lifelines (cells : List Cell) : List Line :=
  (pageLines cells).filter fun l => l.style = lifelineStyle

/-- The other lines of a page. -/
def messageLines (cells : List Cell) : List Line :=
  (pageLines cells).filter fun l => l.style ≠ lifelineStyle

/-- No message is drawn like a lifeline. -/
theorem messageStyle_ne (line : Term LinePattern) (isAsync : Bool) :
    messageStyle line isAsync ≠ lifelineStyle := by
  unfold messageStyle
  split_ifs <;> decide

end Drawio

/-- Lifelines stand side by side, and messages run between them, one below the other. Heights grow
downwards. -/
structure Diagram.IsTimeline (d : Diagram) (cellOf : String → String) (cells : List Cell)
    (column : String → Int) (height : Nat → Int) (top bottom : Int) : Prop where
  /-- Every participant has a box. -/
  boxes : List.Forall₂ (fun v p => v.id = cellOf p.id ∧ v.label = p.label ∧
    lifelineX v.box = column p.id ∧ v.box.bottom = top) (pageBoxes cells) d.participants
  /-- Every participant has one lifeline, which runs down from its box. -/
  lifelines : List.Forall₂ (fun l p => l.Runs (column p.id, top) (column p.id, bottom))
    (lifelines cells) d.participants
  /-- No two lifelines stand at the same place. -/
  columns : (d.participants.map fun p => column p.id).Nodup
  /-- Every message is a level line between the lifelines of its sides. -/
  messages : List.Forall₂ (fun l m => l.label = m.1.text ∧
    l.Runs (column m.1.source, height m.2) (column m.1.target, height m.2))
    (messageLines cells) d.messages.zipIdx
  /-- Its sides are participants. -/
  sides : ∀ m ∈ d.messages,
    m.source ∈ d.participants.map Participant.id ∧ m.target ∈ d.participants.map Participant.id
  /-- Messages lie between the ends of the lifelines. -/
  between : ∀ i < d.messages.length, top < height i ∧ height i < bottom
  /-- Later messages lie below earlier ones. -/
  below : ∀ i j, i < j → height i < height j

/-! ### The formulas -/

namespace Layout

/-- Where the lifeline of a participant stands, by the names of the participants. -/
def column (names : List String) (name : String) : Int := 160 + 180 * names.idxOf name

/-- The height at which lifelines start. -/
def lifelineTop : Int := 80

/-- The height at which lifelines end that are long enough for so many messages. -/
def lifelineBottom (messages : Int) : Int := lifelineTop + lifelineLength messages

variable {names : List String}

/-- Names stand at places of their own. -/
theorem column_inj {name name' : String} (h : name ∈ names)
    (hn : column names name = column names name') : name = name' := by
  unfold column at hn
  exact (List.idxOf_inj h).mp (by omega)

/-- Messages stand below the upper ends of the lifelines. -/
theorem lt_messageY (i : Nat) : lifelineTop < messageY i := by
  unfold lifelineTop messageY
  omega

/-- Messages stand above the lower ends of the lifelines. -/
theorem messageY_lt {i n : Nat} (h : i < n) : messageY i < lifelineBottom n := by
  unfold messageY lifelineBottom lifelineTop lifelineLength
  omega

/-- Later messages stand below earlier ones. -/
theorem messageY_lt_messageY {i j : Int} (h : i < j) : messageY i < messageY j := by
  unfold messageY
  omega

/-- The box of a participant ends where its lifeline starts. -/
theorem box_lifeline (h : names.Nodup) {name : String} (hname : name ∈ names) :
    ∃ b, (sequence names).get? name = some b ∧ lifelineX b = column names name ∧
      b.bottom = lifelineTop := by
  obtain ⟨i, hi⟩ := List.mem_iff_getElem?.mp hname
  obtain ⟨hlt, rfl⟩ := List.getElem?_eq_some_iff.mp hi
  refine ⟨participantBox i, get?_sequence h hi, ?_, rfl⟩
  rw [column, h.idxOf_getElem i hlt, lifelineX, participantBox]
  push_cast
  ring

end Layout

/-! ### Cells of sequence diagrams -/

/-- Boxes, lifelines and messages that go together with the parts of a sequence diagram and keep
their places make up its lines. -/
theorem Drawio.views_sequence {boxes lines others : List Cell} {ps : List Element}
    {ms : List (Message × Nat)} {R : Vertex → Element → Prop} {S : Line → Element → Prop}
    {T : Line → Message × Nat → Prop}
    (hboxes : List.Forall₂ (fun c p => ∃ v, c = .vertex v ∧ v.container = none ∧ R v p) boxes ps)
    (hlines : List.Forall₂ (fun c p => ∃ l, c = .line l ∧ l.style = lifelineStyle ∧ S l p) lines ps)
    (hothers : List.Forall₂ (fun c m => ∃ l, c = .line l ∧ l.style ≠ lifelineStyle ∧ T l m)
      others ms) :
    List.Forall₂ R (pageBoxes (boxes ++ lines ++ others)) ps ∧
      List.Forall₂ S (lifelines (boxes ++ lines ++ others)) ps ∧
      List.Forall₂ T (messageLines (boxes ++ lines ++ others)) ms := by
  obtain ⟨hboxes, hnoLines, -⟩ := showsAll_vertices hboxes
  obtain ⟨hlines, hnoBoxes, -⟩ := showsAll_lines hlines
  obtain ⟨hothers, hnoBoxes', -⟩ := showsAll_lines hothers
  obtain ⟨hstyle, hlines⟩ := (List.forall₂_and_left _ _).mp hlines
  obtain ⟨hstyle', hothers⟩ := (List.forall₂_and_left _ _).mp hothers
  have hpage : pageLines (boxes ++ lines ++ others) = pageLines lines ++ pageLines others := by
    rw [pageLines_append, pageLines_append, hnoLines, List.nil_append]
  refine ⟨?_, ?_, ?_⟩
  · rw [pageBoxes_append, pageBoxes_append, hnoBoxes, hnoBoxes', List.append_nil, List.append_nil]
    exact hboxes
  · have hself : (pageLines lines).filter (fun l => l.style = lifelineStyle) = pageLines lines :=
      List.filter_eq_self.mpr fun l hl => by simpa using hstyle l hl
    have hnone : (pageLines others).filter (fun l => l.style = lifelineStyle) = [] :=
      List.filter_eq_nil_iff.mpr fun l hl => by simpa using hstyle' l hl
    rw [lifelines, hpage, List.filter_append, hself, hnone, List.append_nil]
    exact hlines
  · have hnone : (pageLines lines).filter (fun l => l.style ≠ lifelineStyle) = [] :=
      List.filter_eq_nil_iff.mpr fun l hl => by simpa using hstyle l hl
    have hself : (pageLines others).filter (fun l => l.style ≠ lifelineStyle) = pageLines others :=
      List.filter_eq_self.mpr fun l hl => by simpa using hstyle' l hl
    rw [messageLines, hpage, List.filter_append, hself, hnone, List.nil_append]
    exact hothers

section Parts

variable {ps : List Element} {cellOf : Table String}

/-- Every participant has a box above its lifeline. -/
theorem Drawio.forall₂_participantCell (h : (ps.map Element.id).Nodup)
    (hcells : ∀ name ∈ ps.map Element.id, cellOf.get? name = some (cellName cellOf name)) :
    List.Forall₂ (fun c p => ∃ v, c = .vertex v ∧ v.container = none ∧
        v.id = cellName cellOf p.id ∧ v.label = p.label ∧
        lifelineX v.box = column (ps.map Element.id) p.id ∧ v.box.bottom = lifelineTop)
      (ps.filterMap (participantCell (Layout.sequence (ps.map Element.id)) cellOf)) ps := by
  apply forall₂_filterMap
  intro p hp
  obtain ⟨b, hb, hx, hbottom⟩ := box_lifeline h (List.mem_map_of_mem hp)
  simp only [participantCell, hcells p.id (List.mem_map_of_mem hp), hb]
  exact ⟨_, rfl, _, rfl, rfl, rfl, rfl, hx, hbottom⟩

/-- Every participant has a lifeline. -/
theorem Drawio.forall₂_lifelineCell (h : (ps.map Element.id).Nodup) (messages : Int)
    {ids : List String} (hlength : ids.length = ps.length) :
    List.Forall₂ (fun c p => ∃ l, c = .line l ∧ l.style = lifelineStyle ∧
        l.Runs (column (ps.map Element.id) p.id, lifelineTop)
          (column (ps.map Element.id) p.id, lifelineBottom messages))
      ((ids.zip ps).filterMap fun p =>
        lifelineCell (Layout.sequence (ps.map Element.id)) (lifelineLength messages) p.1 p.2) ps := by
  apply forall₂_filterMap_zip hlength
  intro id p hp
  obtain ⟨b, hb, hx, hbottom⟩ := box_lifeline h (List.mem_map_of_mem hp)
  simp only [lifelineCell, hb]
  refine ⟨_, rfl, _, rfl, rfl, ?_, rfl, rfl⟩
  dsimp only
  rw [hx, hbottom]
  rfl

/-- Every message between participants is drawn at the height of its place. -/
theorem Drawio.forall₂_messageCell (h : (ps.map Element.id).Nodup) {ms : List Message}
    (hsides : ∀ m ∈ ms, m.source ∈ ps.map Element.id ∧ m.target ∈ ps.map Element.id)
    {ids : List String} (hlength : ids.length = ms.zipIdx.length) :
    List.Forall₂ (fun c m => ∃ l, c = .line l ∧ l.style ≠ lifelineStyle ∧ l.label = m.1.text ∧
        l.Runs (column (ps.map Element.id) m.1.source, messageY m.2)
          (column (ps.map Element.id) m.1.target, messageY m.2))
      ((ids.zip ms.zipIdx).filterMap fun p =>
        messageCell (Layout.sequence (ps.map Element.id)) p.1 p.2.2 p.2.1) ms.zipIdx := by
  apply forall₂_filterMap_zip hlength
  intro id m hm
  obtain ⟨hs, ht⟩ := hsides m.1 (List.fst_mem_of_mem_zipIdx hm)
  obtain ⟨b, hb, hx, -⟩ := box_lifeline h hs
  obtain ⟨b', hb', hx', -⟩ := box_lifeline h ht
  simp only [messageCell, hb, hb']
  refine ⟨_, rfl, _, rfl, messageStyle_ne _ _, rfl, ?_, rfl, rfl⟩
  dsimp only
  rw [hx, hx']

end Parts

/-- No two lifelines stand at the same place. -/
theorem Layout.nodup_columns {ps : List Participant} (h : (ps.map Participant.id).Nodup) :
    (ps.map fun p => column (ps.map Participant.id) p.id).Nodup := by
  have hcolumns : (ps.map fun p => column (ps.map Participant.id) p.id) =
      (ps.map Participant.id).map (column (ps.map Participant.id)) := by
    rw [List.map_map]
    rfl
  rw [hcolumns]
  exact h.map_on fun name hname _ _ heq => column_inj hname heq

/-- The cells of a sequence diagram whose messages run between participants are a timeline. -/
theorem Diagram.exists_isTimeline {d : Diagram}
    (hparties : d.parties = d.participants.map .participant)
    (hnodup : (d.participants.map Participant.id).Nodup)
    (hsides : ∀ m ∈ d.messages,
      m.source ∈ d.participants.map Participant.id ∧ m.target ∈ d.participants.map Participant.id) :
    ∃ cellOf, d.IsTimeline cellOf d.sequenceCells (column (d.participants.map Participant.id))
      (fun i => messageY i) lifelineTop (lifelineBottom d.messages.length) := by
  have hnames : d.parties.map Element.id = d.participants.map Participant.id := by
    rw [hparties, List.map_map]
    rfl
  have hdistinct := hnames ▸ hnodup
  have hends := hnames ▸ hsides
  obtain ⟨cellOf, lifelineIds, messageIds, hcells, hlifelineIds, hmessageIds, heq⟩ :=
    exists_sequenceParts hdistinct hends
  obtain ⟨hboxes, hlifelines, hmessages⟩ := views_sequence
    (forall₂_participantCell hdistinct hcells)
    (forall₂_lifelineCell hdistinct d.messages.length hlifelineIds)
    (forall₂_messageCell hdistinct hends hmessageIds)
  have hcellsOf : d.sequenceCells = _ := heq
  rw [← hcellsOf, hnames] at hboxes hlifelines hmessages
  rw [hparties, List.forall₂_map_right_iff] at hboxes hlifelines
  exact ⟨cellName cellOf, {
    boxes := hboxes
    lifelines := hlifelines
    columns := nodup_columns hnodup
    messages := hmessages
    sides := hsides
    between := fun i hi => ⟨lt_messageY i, messageY_lt hi⟩
    below := fun i j hij => messageY_lt_messageY (Int.ofNat_lt.mpr hij) }⟩

/-! ### Written lines -/

/-- The element is a point with a role. Numbers from `2 ^ 53` on may be rounded there. -/
structure Xml.IsPointAt (x : Xml) (role : String) (p : Int × Int) : Prop where
  /-- It is a point. -/
  name : x.name = "mxPoint"
  /-- Its role. -/
  role : x.attribute? "as" = some role
  /-- Where it is. -/
  place : ∀ q ∈ [("x", p.1), ("y", p.2)], q.2.natAbs < 2 ^ 53 →
    x.attribute? q.1 = some (toString q.2)

/-- The element is a cell with a text, drawn as a line from one point to another. -/
structure Xml.IsLineBetween (x : Xml) (label : String) (source target : Int × Int) : Prop where
  /-- The text on it. -/
  label : x.attribute? "value" = some label
  /-- It is drawn as a line. -/
  edge : x.attribute? "edge" = some "1"
  /-- The two points are all that its geometry holds. -/
  geometry : ∃ g p q, x.children = [g] ∧ g.name = "mxGeometry" ∧ g.children = [p, q] ∧
    p.IsPointAt "sourcePoint" source ∧ q.IsPointAt "targetPoint" target

/-- A written end of a line is the point. -/
theorem Drawio.Point.isPointAt_toXml (role : String) (p : Int × Int) :
    (Point.toXml ⟨p.1, p.2⟩ (some role)).IsPointAt role p where
  name := rfl
  role := rfl
  place := by
    intro q hq hsmall
    have hnumber : (Point.toXml ⟨p.1, p.2⟩ (some role)).attribute? q.1 =
        some (coordinateText q.2) := by
      simp only [List.mem_cons, List.not_mem_nil, or_false] at hq
      rcases hq with rfl | rfl <;> rfl
    rw [hnumber, coordinateText_intCast hsmall]

/-- A written line runs between its ends. -/
theorem Drawio.Line.Runs.isLineBetween_toXml {l : Line} {source target : Int × Int}
    (h : l.Runs source target) : l.toXml.IsLineBetween l.label source target where
  label := by
    rw [Line.toXml]
    rfl
  edge := by
    rw [Line.toXml]
    rfl
  geometry := by
    refine ⟨l.geometry, _, _, rfl, rfl, ?_, Point.isPointAt_toXml _ source,
      Point.isPointAt_toXml _ target⟩
    rw [Line.geometry, h.ends, h.straight, h.plain]
    rfl

/-! ### The main statement -/

/-- **Main statement.** The document that is drawn for a sequence diagram is a timeline: every
participant has one lifeline, at a place of its own; every message is a level line from the lifeline
of its sender to that of its receiver; and messages lie between the ends of the lifelines, each below
all earlier ones. The lines are written with these numbers, as far as they are below `2 ^ 53`. -/
theorem isTimeline_of_parse (A : Arithmetic) (title : Option String) (stamp : Stamp) {code : String}
    {d : Diagram} (h : Diagram.parse code = .ok d) (hkind : d.kind = Dialect.sequence) :
    ∃ doc cellOf, d.toDrawio A title stamp = .ok doc ∧
      d.IsTimeline cellOf doc.cells (column (d.participants.map Participant.id))
        (fun i => messageY i) lifelineTop (lifelineBottom d.messages.length) ∧
      doc.toXml.cells = baseCells ++ doc.cells.map Cell.toXml ∧
      ∀ l ∈ pageLines doc.cells, l.toXml ∈ doc.toXml.cells ∧
        ∀ source target, l.Runs source target → l.toXml.IsLineBetween l.label source target := by
  have hsound := isSound_of_parse code d h
  have hnames := hsound.names_of_sequence hkind
  obtain ⟨doc, hdoc⟩ := Diagram.exists_toDrawio_sequence A hkind title stamp
  obtain ⟨cellOf, htimeline⟩ := Diagram.exists_isTimeline (hsound.parties_eq hkind)
    (hnames ▸ hsound.nodup_names) (hnames ▸ hsound.message_ends)
  have hcells := (Diagram.toDrawio_spec hdoc).2.eq_sequenceCells hkind
  refine ⟨doc, cellOf, hdoc, hcells ▸ htimeline, cells_toXml doc, ?_⟩
  intro l hl
  obtain ⟨c, hc, hline⟩ := List.mem_filterMap.mp hl
  refine ⟨?_, fun _ _ hruns => hruns.isLineBetween_toXml⟩
  cases c with
  | vertex v => cases hline
  | line l' =>
    cases hline
    exact mem_cells_toXml.mpr (.inr (.inr ⟨.line l, hc, rfl⟩))

/-- A conversation in which one participant is mentioned before it is declared and another one
talks to itself. -/
def conversation : Diagram where
  kind := Dialect.sequence
  direction := none
  nodes := [.participant ⟨"A", "A", false⟩, .participant ⟨"B", "Bob", true⟩]
  edges :=
    [.edge { id := "e1", source := "A", target := "B", label := "hi",
             arrow := some { line := LinePattern.solid } },
     .edge { id := "e2", source := "B", target := "B", label := "hm",
             arrow := some { line := LinePattern.dashed } }]
  participants := [⟨"A", "A", false⟩, ⟨"B", "Bob", true⟩]
  messages := [⟨"A", "B", "hi", LinePattern.solid, true⟩, ⟨"B", "B", "hm", LinePattern.dashed, false⟩]

set_option maxRecDepth 100000 in
/-- Two participants, of which the second is named by a message first, and two messages. -/
theorem isTimeline_of_parse_conversation :
    Diagram.parse "sequenceDiagram\nA->>B: hi\nactor B as Bob\nB-->B: hm" = .ok conversation ∧
      ∃ doc cellOf,
        conversation.toDrawio .binary64 none { moment := ⟨2024, 1, 2, 3, 4, 5, 678901⟩ } = .ok doc ∧
        conversation.IsTimeline cellOf doc.cells (column ["A", "B"]) (fun i => messageY i) 80 320 := by
  have hparse : Diagram.parse "sequenceDiagram\nA->>B: hi\nactor B as Bob\nB-->B: hm" =
      .ok conversation := rfl
  obtain ⟨doc, cellOf, hdoc, htimeline, -⟩ :=
    isTimeline_of_parse .binary64 none { moment := ⟨2024, 1, 2, 3, 4, 5, 678901⟩ } hparse rfl
  exact ⟨hparse, doc, cellOf, hdoc, htimeline⟩

end Diagrams
