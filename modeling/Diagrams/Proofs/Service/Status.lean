import Diagrams.Proofs.Conversion
import Diagrams.Proofs.Json.Printed
import Diagrams.Proofs.Reading.Header
import Diagrams.Proofs.Service.Sendable
import Diagrams.Service.Respond

/-!
# The status of an answer

A diagram is sent in a record, as the text in `code`, and perhaps a title in `name`.

**Main statement** (`status_conversion`): under every framework, a conversion or review is refused
exactly when there is no text, or when the text has to be read and no line of it counts. It fails
inside when what is sent along is not read, when a drawing is due under a title that cannot be
written, and when a flowchart is too wide for what is due. Otherwise it is answered.

Each step either goes on or ends the request: the record is read (`ofReceived_cases`), then the text
(`diagram_cases`). From then on nothing fails but the title and the range of numbers
(`drawing_cases`, `boxes_of_parse`), since whatever is read is documented, and every framework can
put what is answered into bytes. A string with halves of characters in `code` is left out; nothing
is told about it. -/

namespace Diagrams

namespace Service

/-! ### What is sent -/

namespace Points

/-- Only the points of a text are the text. -/
theorem text?_eq_some {ps : Points} {s : String} : ps.text? = some s ↔ ps = ofText s := by
  constructor
  · intro h
    obtain ⟨cs, hcs, rfl⟩ := Option.map_eq_some_iff.mp h
    have hpoints : ∀ {ps : List Point} {cs : List Char}, ps.mapM Point.char? = some cs →
        ps = cs.map .char := by
      intro ps
      induction ps with
      | nil =>
        rintro cs ⟨⟩
        rfl
      | cons p ps ih =>
        intro cs h
        rw [List.mapM_cons] at h
        cases p with
        | half n => cases h
        | char c =>
          cases hrest : ps.mapM Point.char? with
          | none => simp [Point.char?, hrest] at h
          | some rest =>
            simp only [Point.char?, hrest, Option.bind_eq_bind, Option.bind_some] at h
            cases h
            rw [ih hrest, List.map_cons]
    rw [ofText, String.toList_ofList]
    exact hpoints hcs
  · rintro rfl
    exact text?_ofText s

/-- Texts are told apart by their characters. -/
theorem ofText_injective {s t : String} (h : ofText s = ofText t) : s = t := by
  have htext : (ofText s).text? = (ofText t).text? := congrArg text? h
  rw [text?_ofText, text?_ofText] at htext
  exact Option.some.inj htext

/-- Only the empty text has no points. -/
theorem ofText_eq_nil {s : String} : ofText s = [] ↔ s = "" := by
  rw [ofText, List.map_eq_nil_iff, String.toList_eq_nil_iff]

end Points

namespace Received

/-- The string in the field of the diagram's text. -/
def HasString (r : Received) (ps : Points) : Prop :=
  ∃ fields, r = .value (.obj fields) ∧ Value.get? fields "code" = some (.str ps)

/-- The diagram's text is sent. -/
def HasCode (r : Received) (code : String) : Prop := code ≠ "" ∧ r.HasString (.ofText code)

/-- The string that is sent for the diagram's text has halves of characters. -/
def HasHalf (r : Received) : Prop := ∃ ps, r.HasString ps ∧ ps.text? = none

/-- The title that is sent, null when there is none. -/
def title : Received → Value
  | .value (.obj fields) => (Value.get? fields "name").getD .null
  | _ => .null

end Received

/-- A title that can be written, or that counts as absent. A string must be a text. A list or a
record is written as it is shown, unless one of the characters with an escape is among its items or
names. -/
def IsWritable : Value → Prop
  | .str ps => ∃ title, ps.text? = some title
  | .arr items => ∀ ps, .str ps ∈ items → Submission.isEscape ps = false
  | .obj fields => ∀ f ∈ fields, Submission.isEscape f.1 = false
  | v => v.isEmpty = true

namespace Received

/-- There is a text, and a line of it counts unless it is only reviewed. -/
def IsAnswerable (r : Received) (route : Route) : Prop :=
  ∃ code, r.HasCode code ∧ (route = .validate ∨ Source.HasContent code)

/-- Something goes wrong inside: what is sent along is not read, a drawing is due under a title that
cannot be written, or a flowchart is too wide for what is due. -/
def Fails (r : Received) (route : Route) : Prop :=
  r = .failed ∨ ∃ code d, r.HasCode code ∧ Diagram.parse code = .ok d ∧
    (route = .parse ∧ d.HasWideColumn .binary64 ∨
      route = .drawio ∧ (¬IsWritable r.title ∨ d.IsTooWide .binary64))

variable {r : Received}

/-- One string is sent. -/
theorem HasString.unique {ps ps' : Points} (h : r.HasString ps) (h' : r.HasString ps') :
    ps = ps' := by
  obtain ⟨fields, rfl, hps⟩ := h
  obtain ⟨fields', heq, hps'⟩ := h'
  cases heq
  rw [hps] at hps'
  cases hps'
  rfl

/-- One text is sent. -/
theorem HasCode.unique {code code' : String} (h : r.HasCode code) (h' : r.HasCode code') :
    code = code' :=
  Points.ofText_injective (h.2.unique h'.2)

end Received

/-- The routes to which a diagram is sent and that are answered here. -/
def conversions : List Route := [.parse, .validate, .drawio, .markdown]

/-- There are four conversions. -/
theorem mem_conversions {route : Route} :
    route ∈ conversions ↔
      route = .parse ∨ route = .validate ∨ route = .drawio ∨ route = .markdown := by
  simp [conversions]

variable {r : Received} {env : Environment} {stamp : Drawio.Stamp}

/-! ### Reading the request -/

/-- What is received is a submission, it is refused, or it was not read; unless halves are in the
text. -/
theorem ofReceived_cases (hhalf : ¬r.HasHalf) :
    (∃ code, r.HasCode code ∧ Submission.ofReceived r = .ok ⟨code, r.title⟩) ∨
      (r ≠ .failed ∧ (∀ code, ¬r.HasCode code) ∧
        ∃ reason, Submission.ofReceived r = .error (.refused 400 reason)) ∨
      r = .failed ∧ Submission.ofReceived r = .error .failed := by
  unfold Submission.ofReceived
  split
  · exact .inr (.inr ⟨rfl, rfl⟩)
  · refine .inr (.inl ⟨by simp, ?_, _, rfl⟩)
    rintro code ⟨-, fields, heq, -⟩
    cases heq
  · rename_i fields
    split
    · rename_i points hpoints
      have hstring : Received.HasString (.value (.obj fields)) points := ⟨fields, rfl, hpoints⟩
      split
      · rename_i hempty
        refine .inr (.inl ⟨by simp, fun code h => ?_, _, rfl⟩)
        refine h.1 (Points.ofText_eq_nil.mp ?_)
        rw [h.2.unique hstring, hempty]
      · rename_i hne
        split
        · rename_i code hcode
          obtain rfl := Points.text?_eq_some.mp hcode
          exact .inl ⟨code, ⟨fun h => hne (Points.ofText_eq_nil.mpr h), hstring⟩, rfl⟩
        · rename_i hnone
          exact absurd ⟨points, hstring, hnone⟩ hhalf
    · rename_i hcode
      refine .inr (.inl ⟨by simp, ?_, _, rfl⟩)
      rintro code ⟨-, fields', heq, h⟩
      cases heq
      exact hcode _ h
  · rename_i v hrecord
    refine .inr (.inl ⟨by simp, ?_, _, rfl⟩)
    rintro code ⟨-, fields, heq, -⟩
    cases heq
    exact hrecord fields rfl

/-- What is sent for a text with halves is no text. -/
theorem Received.HasCode.not_hasHalf {code : String} (h : r.HasCode code) : ¬r.HasHalf := by
  rintro ⟨ps, hps, hnone⟩
  rw [hps.unique h.2, Points.text?_ofText] at hnone
  cases hnone

/-- The text that is sent is submitted with its title. -/
theorem Received.HasCode.ofReceived {code : String} (h : r.HasCode code) :
    Submission.ofReceived r = .ok ⟨code, r.title⟩ := by
  rcases ofReceived_cases h.not_hasHalf with ⟨code', hcode', hs⟩ | ⟨-, hnone, -⟩ | ⟨rfl, -⟩
  · rw [hs, h.unique hcode']
  · exact absurd h (hnone code)
  · obtain ⟨-, fields, heq, -⟩ := h
    cases heq

/-- The diagram of a text that can be read. -/
theorem diagram_of_parse {s : Submission} {d : Diagram} (h : Diagram.parse s.code = .ok d) :
    s.diagram = .ok d := by
  rw [Submission.diagram, h]
  rfl

/-- A text is read, or it is refused. -/
theorem diagram_cases (s : Submission) :
    (∃ d, Source.HasContent s.code ∧ Diagram.parse s.code = .ok d ∧ s.diagram = .ok d) ∨
      ¬Source.HasContent s.code ∧ ∃ reason, s.diagram = .error (.refused 400 reason) := by
  by_cases h : Source.HasContent s.code
  · obtain ⟨d, hd⟩ := Diagram.exists_parse h
    exact .inl ⟨d, h, hd, diagram_of_parse hd⟩
  · exact .inr ⟨h, _, by rw [Submission.diagram, Diagram.parse_eq_empty h]; rfl⟩

/-! ### Titles -/

/-- No variable of the program is set. -/
def IsUnset (env : Environment) : Prop :=
  ∀ name, "MERMAID_".toList <+: name.toList → env.get? name = none

/-- Without variables a title is found for every drawing. -/
theorem exists_titleFor (h : IsUnset env) (title : Option String) :
    ∃ t, titleFor env title = .ok t := by
  have hport : env.get? "MERMAID_SERVER_PORT" = none := h _ (by decide)
  have hsettings : ∃ settings, Settings.ofEnvironment env = .ok settings := by
    refine ⟨_, bind_eq_ok.mpr ⟨8000, ?_, rfl⟩⟩
    rw [Table.getD, hport]
    rfl
  obtain ⟨settings, hsettings⟩ := hsettings
  unfold titleFor
  split
  · exact ⟨_, map_eq_ok.mpr ⟨settings, hsettings, rfl⟩⟩
  · exact ⟨_, map_eq_ok.mpr ⟨settings, hsettings, rfl⟩⟩
  · exact ⟨_, rfl⟩

/-- A title that is no string can be written when it counts as absent or is written as it is
shown. -/
theorem isWritable_iff {v : Value} (h : ∀ ps, v ≠ .str ps) :
    IsWritable v ↔ v.isEmpty = true ∨ Submission.isTitle v = true := by
  cases v with
  | str ps => exact absurd rfl (h ps)
  | null | bool | int | real => simp [IsWritable, Submission.isTitle]
  | arr items =>
    constructor
    · intro hwritable
      rw [Submission.isTitle, Bool.not_eq_true', List.any_eq_false]
      refine .inr fun item hitem => ?_
      cases item with
      | str ps => simp [hwritable ps hitem]
      | null | bool | int | real | arr | obj => exact Bool.false_ne_true
    · rw [Submission.isTitle, Bool.not_eq_true', List.any_eq_false]
      rintro (hempty | hshown) ps hps
      · rw [List.isEmpty_iff.mp hempty] at hps
        exact absurd hps List.not_mem_nil
      · simpa using hshown (.str ps) hps
  | obj fields =>
    cases fields <;> simp [IsWritable, Submission.isTitle, Value.isEmpty]

variable {code : String} {d : Diagram}

/-- What is read is drawn under a text, or under the title that is found, unless it is too wide. -/
theorem under_cases (henv : IsUnset env) (h : Diagram.parse code = .ok d) (title : Option String) :
    (∃ xml, Submission.drawing.under d env stamp title = .ok xml) ∨
      d.IsTooWide .binary64 ∧ Submission.drawing.under d env stamp title = .error .failed := by
  obtain ⟨t, ht⟩ := exists_titleFor henv title
  have hunder : Submission.drawing.under d env stamp title =
      (d.drawing (some t) stamp).mapError fun _ => .failed := by
    rw [Submission.drawing.under, ht]
    rfl
  rw [hunder]
  rcases drawing_of_parse h (some t) stamp with ⟨xml, hxml⟩ | ⟨hwide, herror⟩
  · exact .inl ⟨xml, by rw [hxml]; rfl⟩
  · exact .inr ⟨hwide, by rw [herror]; rfl⟩

/-- What is read is drawn under a title that can be written, unless it is too wide. -/
theorem drawing_cases {s : Submission} (henv : IsUnset env) (h : Diagram.parse s.code = .ok d)
    (stamp : Drawio.Stamp) :
    (IsWritable s.title ∧ ∃ xml, s.drawing d env stamp = .ok xml) ∨
      (¬IsWritable s.title ∨ d.IsTooWide .binary64) ∧ s.drawing d env stamp = .error .failed := by
  unfold Submission.drawing
  split
  · rename_i points htitle
    rw [htitle]
    cases htext : points.text? with
    | none =>
      refine .inr ⟨.inl ?_, rfl⟩
      rintro ⟨title, hsome⟩
      rw [htext] at hsome
      cases hsome
    | some title =>
      exact (under_cases henv h (some title)).imp (fun hxml => ⟨⟨title, htext⟩, hxml⟩)
        fun ⟨hwide, hfailed⟩ => ⟨.inr hwide, hfailed⟩
  · rename_i htitle
    rw [isWritable_iff htitle]
    by_cases hempty : s.title.isEmpty = true
    · rw [if_pos hempty]
      exact (under_cases henv h none).imp (fun hxml => ⟨.inl hempty, hxml⟩)
        fun ⟨hwide, hfailed⟩ => ⟨.inr hwide, hfailed⟩
    · rw [if_neg hempty]
      by_cases hshown : Submission.isTitle s.title = true
      · rw [if_pos hshown]
        rcases drawingUnder_of_parse h s.title.displayed stamp with ⟨xml, hxml⟩ | ⟨hwide, herror⟩
        · exact .inl ⟨.inr hshown, xml, by rw [hxml]; rfl⟩
        · exact .inr ⟨.inr hwide, by rw [herror]; rfl⟩
      · rw [if_neg hshown]
        exact .inr ⟨.inl (by simp [hempty, hshown]), rfl⟩

/-- What is too wide is not drawn under any title. -/
theorem drawing_of_isTooWide {s : Submission} (h : d.IsTooWide .binary64) (env : Environment)
    (stamp : Drawio.Stamp) : ∀ xml, s.drawing d env stamp ≠ .ok xml := by
  have hunder : ∀ title xml, Submission.drawing.under d env stamp title ≠ .ok xml := by
    intro title xml hxml
    obtain ⟨t, -, hdrawn⟩ := bind_eq_ok.mp hxml
    rw [Diagram.drawing, Diagram.IsTooWide.toDrawio_eq_error h] at hdrawn
    cases hdrawn
  intro xml hxml
  unfold Submission.drawing at hxml
  split at hxml
  · split at hxml
    · exact hunder _ xml hxml
    · cases hxml
  · split at hxml
    · exact hunder _ xml hxml
    · split at hxml
      · rw [Diagram.drawingUnder, Diagram.IsTooWide.toDrawio_eq_error h] at hxml
        cases hxml
      · cases hxml

/-! ### What comes of a request -/

/-- Without a submission, no conversion is made. -/
theorem handle_of_error {route : Route} (hroute : route ∈ conversions) {e : Failure}
    (h : Submission.ofReceived r = .error e) : route.handle env stamp r = .error e := by
  rcases mem_conversions.mp hroute with rfl | rfl | rfl | rfl <;>
    simp only [Route.handle, parsed, validated, drawn, documented, h] <;> rfl

/-- All conversions but a review need a text that can be read. -/
theorem handle_of_unread {route : Route} (hroute : route ∈ conversions) (hread : route ≠ .validate)
    {s : Submission} (h : Submission.ofReceived r = .ok s) {e : Failure}
    (he : s.diagram = .error e) : route.handle env stamp r = .error e := by
  rcases mem_conversions.mp hroute with rfl | rfl | rfl | rfl
  · simp only [Route.handle, parsed, h, ok_bind, he]
    rfl
  · exact absurd rfl hread
  · simp only [Route.handle, drawn, h, ok_bind, he]
    rfl
  · simp only [Route.handle, documented, h, ok_bind, he]
    rfl

/-- An answer of the usual kind. -/
def IsAnswered (answer : Except Failure Response) : Prop :=
  ∃ response, answer = .ok response ∧ response.status = 200 ∧ response.IsSendable

/-- A review does not need the text to be read. -/
theorem handle_validate {s : Submission} (h : Submission.ofReceived r = .ok s) :
    Route.handle env stamp r .validate = .ok (.ofValue (Check.review (.str s.code)).toJson) := by
  simp only [Route.handle, validated, h]
  rfl

/-- What is read is shown with its boxes. -/
theorem handle_parse {s : Submission} {boxes : Table Box} (h : Submission.ofReceived r = .ok s)
    (hd : s.diagram = .ok d) (hboxes : d.layout .binary64 = .ok boxes) :
    Route.handle env stamp r .parse =
      .ok (.ofValue (.obj [("diagram", d.toJson), ("positions", positions boxes)])) := by
  simp only [Route.handle, parsed, h, ok_bind, hd, hboxes]
  rfl

/-- What is shown with its boxes can be sent. -/
theorem isSendable_parse (h : Diagram.parse code = .ok d) (boxes : Table Box) :
    (Response.ofValue
      (.obj [("diagram", d.toJson), ("positions", positions boxes)])).IsSendable := by
  refine .inr ⟨_, rfl, ?_⟩
  simp [isFinite_toJson_of_parse h, isFinite_positions]

/-- What is drawn is answered. -/
theorem handle_drawio {s : Submission} {xml : String} (h : Submission.ofReceived r = .ok s)
    (hd : s.diagram = .ok d) (hxml : s.drawing d env stamp = .ok xml) :
    Route.handle env stamp r .drawio = .ok (.ofText "application/xml" xml) := by
  simp only [Route.handle, drawn, h, ok_bind, hd, hxml]
  rfl

/-- What cannot be drawn is not answered. -/
theorem handle_drawio_of_failed {s : Submission} (h : Submission.ofReceived r = .ok s)
    (hd : s.diagram = .ok d) (hfailed : s.drawing d env stamp = .error .failed) :
    Route.handle env stamp r .drawio = .error .failed := by
  simp only [Route.handle, drawn, h, ok_bind, hd, hfailed]
  rfl

/-- What is documented is answered. -/
theorem handle_markdown {s : Submission} {md : String} (h : Submission.ofReceived r = .ok s)
    (hd : s.diagram = .ok d) (hmd : d.documentation s.code = .ok md) :
    Route.handle env stamp r .markdown = .ok (.ofText "text/markdown; charset=utf-8" md) := by
  simp only [Route.handle, documented, h, ok_bind, hd, hmd]
  rfl

/-- What has no boxes is not answered with them. -/
theorem handle_parse_of_error {s : Submission} {e : DrawingError}
    (h : Submission.ofReceived r = .ok s) (hd : s.diagram = .ok d)
    (he : d.layout .binary64 = .error e) : Route.handle env stamp r .parse = .error .failed := by
  simp only [Route.handle, parsed, h, ok_bind, hd, he]
  rfl

/-- What goes wrong inside after a text is read. -/
theorem Received.fails_iff_of_parse {route : Route} (hcode : r.HasCode code)
    (hparse : Diagram.parse code = .ok d) :
    r.Fails route ↔ route = .parse ∧ d.HasWideColumn .binary64 ∨
      route = .drawio ∧ (¬IsWritable r.title ∨ d.IsTooWide .binary64) := by
  constructor
  · rintro (rfl | ⟨code', d', hcode', hparse', h⟩)
    · obtain ⟨-, fields, heq, -⟩ := hcode
      cases heq
    · obtain rfl := hcode.unique hcode'
      rw [hparse] at hparse'
      cases hparse'
      exact h
  · exact fun h => .inr ⟨code, d, hcode, hparse, h⟩

/-- For a text that is read, the outcome depends on the title and the range of numbers alone. -/
theorem handle_of_parse {route : Route} (hroute : route ∈ conversions) (henv : IsUnset env)
    (stamp : Drawio.Stamp) (hcode : r.HasCode code) (hparse : Diagram.parse code = .ok d) :
    (r.Fails route ∧ route.handle env stamp r = .error .failed) ∨
      ¬r.Fails route ∧ IsAnswered (route.handle env stamp r) := by
  have hs := hcode.ofReceived
  have hd : Submission.diagram ⟨code, r.title⟩ = .ok d := diagram_of_parse hparse
  rw [Received.fails_iff_of_parse hcode hparse]
  rcases mem_conversions.mp hroute with rfl | rfl | rfl | rfl
  · rcases boxes_of_parse .binary64 hparse with ⟨boxes, hboxes⟩ | ⟨hwide, herror⟩
    · refine .inr ⟨?_, _, handle_parse hs hd hboxes, rfl, isSendable_parse hparse boxes⟩
      rintro (⟨-, hwide⟩ | ⟨⟨⟩, -⟩)
      rw [hwide.layout_eq_error] at hboxes
      cases hboxes
    · exact .inl ⟨.inl ⟨rfl, hwide⟩, handle_parse_of_error hs hd herror⟩
  · refine .inr ⟨?_, _, handle_validate hs, rfl, .inr ⟨_, rfl, Review.isFinite_toJson _⟩⟩
    rintro (⟨⟨⟩, -⟩ | ⟨⟨⟩, -⟩)
  · rcases drawing_cases (s := ⟨code, r.title⟩) henv hparse stamp with
      ⟨htitle, xml, hxml⟩ | ⟨hwide, herror⟩
    · refine .inr ⟨?_, _, handle_drawio hs hd hxml, rfl, .inl ⟨_, rfl⟩⟩
      rintro (⟨⟨⟩, -⟩ | ⟨-, hnot | hwide⟩)
      · exact hnot htitle
      · exact drawing_of_isTooWide hwide env stamp xml hxml
    · exact .inl ⟨.inr ⟨rfl, hwide⟩, handle_drawio_of_failed hs hd herror⟩
  · obtain ⟨md, hmd⟩ := exists_documentation_of_parse hparse code
    refine .inr ⟨?_, _, handle_markdown hs hd hmd, rfl, .inl ⟨_, rfl⟩⟩
    rintro (⟨⟨⟩, -⟩ | ⟨⟨⟩, -⟩)

/-- What fails was not read, or is due to be answered. -/
theorem Received.Fails.imp {route : Route} (h : r.Fails route) :
    r = .failed ∨ r.IsAnswerable route := by
  rcases h with hfailed | ⟨code, d, hcode, hparse, -⟩
  · exact .inl hfailed
  · refine .inr ⟨code, hcode, .inr ?_⟩
    by_contra hempty
    rw [Diagram.parse_eq_empty hempty] at hparse
    cases hparse

/-- What comes of a request for a conversion. -/
theorem handle_cases {route : Route} (hroute : route ∈ conversions) (henv : IsUnset env)
    (stamp : Drawio.Stamp) (hhalf : ¬r.HasHalf) :
    (r ≠ .failed ∧ ¬r.IsAnswerable route ∧
        ∃ reason, route.handle env stamp r = .error (.refused 400 reason)) ∨
      (r.Fails route ∧ route.handle env stamp r = .error .failed) ∨
      r.IsAnswerable route ∧ ¬r.Fails route ∧ IsAnswered (route.handle env stamp r) := by
  rcases ofReceived_cases hhalf with ⟨code, hcode, hs⟩ | ⟨hne, hnone, reason, hs⟩ | ⟨hfailed, hs⟩
  · by_cases hcontent : Source.HasContent code
    · obtain ⟨d, hparse⟩ := Diagram.exists_parse hcontent
      exact .inr ((handle_of_parse hroute henv stamp hcode hparse).imp_right
        fun h => ⟨⟨code, hcode, .inr hcontent⟩, h⟩)
    have hreceived : r ≠ .failed := by
      rintro rfl
      obtain ⟨-, fields, heq, -⟩ := hcode
      cases heq
    by_cases hread : route = .validate
    · subst hread
      refine .inr (.inr ⟨⟨code, hcode, .inl rfl⟩, ?_, _, handle_validate hs, rfl,
        .inr ⟨_, rfl, Review.isFinite_toJson _⟩⟩)
      rintro (hfailed | ⟨_, _, _, _, ⟨⟨⟩, -⟩ | ⟨⟨⟩, -⟩⟩)
      exact hreceived hfailed
    · obtain ⟨reason, hd⟩ : ∃ reason,
          Submission.diagram ⟨code, r.title⟩ = .error (.refused 400 reason) :=
        (diagram_cases ⟨code, r.title⟩).elim (fun ⟨_, h, _⟩ => absurd h hcontent) And.right
      refine .inl ⟨hreceived, ?_, reason, handle_of_unread hroute hread hs hd⟩
      rintro ⟨code', hcode', h⟩
      obtain rfl := hcode.unique hcode'
      exact hcontent (h.resolve_left hread)
  · exact .inl ⟨hne, fun ⟨code, hcode, _⟩ => hnone code hcode, reason, handle_of_error hroute hs⟩
  · exact .inr (.inl ⟨.inl hfailed, handle_of_error hroute hs⟩)

/-! ### The main statement -/

/-- **Main statement.** When no variable of the program is set, a diagram that is sent to a conversion
or review is refused exactly when there is no text, or none with content where the text has to be
read. It fails inside exactly when what is sent along is not read, when it is to be drawn under a
title that cannot be written, and when it is too wide to be drawn or for its boxes to be answered.
It is answered in every other case. All this holds under every framework, of every body whose text
of a diagram, if there is one, has no halves of characters. -/
theorem status_conversion (F : Framework) (henv : IsUnset env) (stamp : Drawio.Stamp)
    {route : Route} (hroute : route ∈ conversions) {body : F.Body}
    (hhalf : ¬(F.receive body).HasHalf) :
    let r := F.receive body
    let status := (F.answer env stamp route body).status
    (status = 400 ↔ r ≠ .failed ∧ ¬r.IsAnswerable route) ∧
      (status = 500 ↔ r.Fails route) ∧
      (status = 200 ↔ r.IsAnswerable route ∧ ¬r.Fails route) := by
  intro r status
  have hanswer : F.answer env stamp route body = F.close route (route.handle env stamp r) := rfl
  rcases handle_cases (r := r) hroute henv stamp hhalf with
    ⟨hne, hnot, reason, h⟩ | ⟨hfails, h⟩ | ⟨hdue, hnot, response, h, hstatus, hsend⟩
  · have hclosed : status = 400 := by
      show (F.answer env stamp route body).status = 400
      rw [hanswer, h]
      rfl
    have hnofail : ¬r.Fails route := fun hfails => hfails.imp.elim hne hnot
    simp [hclosed, hne, hnot, hnofail]
  · have hclosed : status = 500 := by
      show (F.answer env stamp route body).status = 500
      rw [hanswer, h]
      rfl
    have hdue : ¬(r ≠ .failed ∧ ¬r.IsAnswerable route) :=
      fun hrefused => hfails.imp.elim hrefused.1 hrefused.2
    simp [hclosed, hfails, hdue]
  · have hclosed : status = 200 := by
      show (F.answer env stamp route body).status = 200
      rw [hanswer, h, F.close_of_isSendable route hsend, hstatus]
    simp [hclosed, hdue, hnot]

/-! ### A number for a title -/

/-- No variable is set in an environment with none. -/
theorem isUnset_nil : IsUnset [] := fun _ _ => rfl

/-- A plain record that is sent on one line is received by the plain framework. -/
theorem receivePlain_compact {f : String × Json} {fields : Table Json}
    (h : Json.IsPlain (.obj (f :: fields))) :
    receivePlain (some (Json.obj (f :: fields)).compact) =
      .value (.ofJson (.obj (f :: fields))) := by
  have hread := h.read_write (fun _ _ hc => absurd hc List.not_mem_nil) 0
  have hbytes : (Json.write (fun _ => []) 0 (.obj (f :: fields))).flatMap String.utf8EncodeChar =
    0x7B :: 0x22 :: _ := rfl
  -- a brace and a quote come first, so the bytes are read in units of one
  have hsame : Text.reread? (Json.write (fun _ => []) 0 (.obj (f :: fields))) =
      some (Json.write (fun _ => []) 0 (.obj (f :: fields))) := by
    rw [Text.reread?, hbytes, Text.Encoding.ofBytes_cons_cons (by decide) (by decide)]
  have htext : bodyText? (some (Json.obj (f :: fields)).compact) =
      some (Json.write (fun _ => []) 0 (.obj (f :: fields))) := by
    rw [bodyText?, Option.getD_some, Json.compact, String.toList_ofList]
    exact hsame
  rw [receivePlain, htext]
  dsimp only
  rw [hread]

/-- One arrow, to be drawn under a number. -/
def numberTitle : String := "\x7b\"code\": \"graph TD\\nA --> B\",\"name\": 5\x7d"

/-- The record that is received. -/
def numberRecord : Received :=
  .value (.ofJson (.obj [("code", .str "graph TD\nA --> B"), ("name", .int 5)]))

/-- The record is received as it is sent. -/
theorem receive_numberTitle : Framework.plain.receive (some numberTitle) = numberRecord := by
  have hplain : Json.IsPlain (.obj [("code", .str "graph TD\nA --> B"), ("name", .int 5)]) := by
    refine .obj (by decide) ?_
    rintro f (_ | ⟨_, _ | ⟨_, ⟨⟩⟩⟩)
    · exact .str _
    · have hdigit : 5 < 10 ^ 1 := by decide
      exact .int (Nat.lt_of_lt_of_le hdigit (Nat.pow_le_pow_right (by decide) (by decide)))
  have hsent : numberTitle =
      (Json.obj [("code", .str "graph TD\nA --> B"), ("name", .int 5)]).compact := by rfl
  show receivePlain (some numberTitle) = _
  rw [hsent, receivePlain_compact hplain]
  rfl

/-- It holds a text. -/
theorem hasCode_numberRecord : numberRecord.HasCode "graph TD\nA --> B" :=
  ⟨by decide, _, rfl, rfl⟩

/-- The text can be read, so every conversion of it is due. -/
theorem isAnswerable_numberRecord (route : Route) : numberRecord.IsAnswerable route := by
  have hlines : Text.lines (Source.stripFences "graph TD\nA --> B".toList) =
      ["graph TD".toList, "A --> B".toList] := by rfl
  exact ⟨_, hasCode_numberRecord, .inr ⟨"graph TD".toList, hlines ▸ List.mem_cons_self, by rfl⟩⟩

/-- A page shows no title, and so a number does no harm there. -/
theorem status_markdown_numberTitle :
    IsUnset [] ∧ Route.markdown ∈ conversions ∧
      ¬(Framework.plain.receive (some numberTitle)).HasHalf ∧
      (Framework.plain.answer [] ⟨⟨2024, 1, 2, 3, 4, 5, 678000⟩, []⟩ .markdown
        (some numberTitle)).status = 200 := by
  have hroute : Route.markdown ∈ conversions := mem_conversions.mpr (.inr (.inr (.inr rfl)))
  have hhalf : ¬(Framework.plain.receive (some numberTitle)).HasHalf := by
    rw [receive_numberTitle]
    exact hasCode_numberRecord.not_hasHalf
  obtain ⟨-, -, hanswered⟩ := status_conversion Framework.plain isUnset_nil
    ⟨⟨2024, 1, 2, 3, 4, 5, 678000⟩, []⟩ hroute hhalf
  refine ⟨isUnset_nil, hroute, hhalf, hanswered.mpr ?_⟩
  rw [receive_numberTitle]
  refine ⟨isAnswerable_numberRecord _, ?_⟩
  rintro (⟨⟨⟩⟩ | ⟨_, _, _, _, ⟨⟨⟩, -⟩ | ⟨⟨⟩, -⟩⟩)

/-- A drawing shows its title, and nothing turns a number into a text: a text that can be read,
sent in a record with no variable set, fails inside. -/
theorem status_drawio_numberTitle :
    IsUnset [] ∧ Framework.plain.receive (some numberTitle) = numberRecord ∧
      numberRecord.IsAnswerable .drawio ∧
      (Framework.plain.answer [] ⟨⟨2024, 1, 2, 3, 4, 5, 678000⟩, []⟩ .drawio
        (some numberTitle)).status = 500 := by
  have hroute : Route.drawio ∈ conversions := mem_conversions.mpr (.inr (.inr (.inl rfl)))
  have hdue := isAnswerable_numberRecord .drawio
  refine ⟨isUnset_nil, receive_numberTitle, hdue, ?_⟩
  obtain ⟨code, hcode, hcontent⟩ := hdue
  obtain ⟨d, hparse⟩ := Diagram.exists_parse (hcontent.resolve_left nofun)
  have hfails : numberRecord.Fails .drawio :=
    .inr ⟨code, d, hcode, hparse, .inr ⟨rfl, .inl Bool.false_ne_true⟩⟩
  have hfailed : Route.handle [] ⟨⟨2024, 1, 2, 3, 4, 5, 678000⟩, []⟩ numberRecord .drawio =
      .error .failed :=
    (handle_of_parse hroute isUnset_nil _ hcode hparse).elim And.right fun h => absurd hfails h.1
  have hanswer : Framework.plain.answer [] ⟨⟨2024, 1, 2, 3, 4, 5, 678000⟩, []⟩ .drawio
      (some numberTitle) = Framework.plain.close .drawio
        (Route.handle [] ⟨⟨2024, 1, 2, 3, 4, 5, 678000⟩, []⟩
          (Framework.plain.receive (some numberTitle)) .drawio) := rfl
  rw [hanswer, receive_numberTitle, hfailed]
  rfl

end Service

end Diagrams
