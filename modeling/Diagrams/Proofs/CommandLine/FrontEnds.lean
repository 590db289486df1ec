import Diagrams.Proofs.CommandLine.Outputs
import Diagrams.Proofs.CommandLine.Reading
import Diagrams.Proofs.Drawio.Ladder
import Diagrams.Proofs.Service.Status

/-!
# The front ends agree

**Main statement** (`front_ends_agree`): for a text with a line that counts and without carriage
returns, and under a name that is not empty, the commands and the service make the same drawing, the
same page and the same review, whether the text comes from a file, from the input or in a request.
When the diagram is a flowchart that is too wide, none of them makes a drawing, and a conversion
writes no page either. There are such texts (`nothing_drawn_of_ladder`).

Both sides are reduced to the same three functions of the library. What a command leaves is known
from `Command.leaves_convert` and the like, once its line is read (`Command.read_convert` and the
like). What the service answers, under whatever framework, is shown here (`answer_drawio`,
`answer_markdown`, `answer_validate`).

A reader of command lines may leave nothing of a name that is two dashes. The drawing then gets the
title that is set, and the service keeps the name (`drawn_otherwise_under_dashes`).
-/

namespace Diagrams.CommandLine

open Files Service

/-! ### The service -/

section

variable {F : Framework} {body : F.Body} {code name xml md : String} {d : Diagram}

/-- The text and the name are sent. -/
def Sends (r : Received) (code name : String) : Prop :=
  r.HasCode code ∧ r.title = .str (.ofText name)

/-- Every text that is not empty can be sent under every name. -/
theorem sends_compact (hcode : code ≠ "") (name : String) :
    Sends (receivePlain (some (Json.obj [("code", .str code), ("name", .str name)]).compact)) code
      name := by
  have hplain : Json.IsPlain (.obj [("code", .str code), ("name", .str name)]) := by
    have hnames : ["code", "name"].Nodup := by decide
    refine .obj hnames ?_
    rintro f (_ | ⟨_, _ | ⟨_, ⟨⟩⟩⟩)
    · exact .str code
    · exact .str name
  rw [receivePlain_compact hplain]
  exact ⟨⟨hcode, _, rfl, rfl⟩, rfl⟩

variable (env : Environment) (stamp : Drawio.Stamp)

/-- The drawing is made under the name that is sent. -/
theorem Sends.drawing_eq {r : Received} (h : Sends r code name) (hname : name ≠ "") :
    Submission.drawing ⟨code, r.title⟩ d env stamp =
      (d.drawing (some name) stamp).mapError fun _ => .failed := by
  rw [h.2]
  simp only [Submission.drawing, Points.text?_ofText]
  rw [Submission.drawing.under, titleFor_some env hname]
  rfl

/-- The drawing is answered. -/
theorem answer_drawio (h : Sends (F.receive body) code name) (hparse : Diagram.parse code = .ok d)
    (hname : name ≠ "") (hxml : d.drawing (some name) stamp = .ok xml) :
    F.answer env stamp .drawio body = .ofText "application/xml" xml := by
  have hd : Submission.diagram ⟨code, (F.receive body).title⟩ = .ok d := diagram_of_parse hparse
  have hdrawing := h.drawing_eq env stamp (d := d) hname
  rw [hxml] at hdrawing
  rw [Framework.answer, handle_drawio h.1.ofReceived hd hdrawing]
  exact F.close_of_isSendable .drawio (.inl ⟨xml, rfl⟩)

/-- A drawing that cannot be made is not answered. -/
theorem answer_drawio_of_error (h : Sends (F.receive body) code name)
    (hparse : Diagram.parse code = .ok d) (hname : name ≠ "") {e : DrawingError}
    (he : d.drawing (some name) stamp = .error e) :
    F.answer env stamp .drawio body = .internalError := by
  have hd : Submission.diagram ⟨code, (F.receive body).title⟩ = .ok d := diagram_of_parse hparse
  have hdrawing := h.drawing_eq env stamp (d := d) hname
  rw [he] at hdrawing
  rw [Framework.answer, handle_drawio_of_failed h.1.ofReceived hd hdrawing]
  rfl

/-- The page is answered. -/
theorem answer_markdown (h : Sends (F.receive body) code name) (hparse : Diagram.parse code = .ok d)
    (hmd : d.documentation code = .ok md) :
    F.answer env stamp .markdown body = .ofText "text/markdown; charset=utf-8" md := by
  have hd : Submission.diagram ⟨code, (F.receive body).title⟩ = .ok d := diagram_of_parse hparse
  rw [Framework.answer, handle_markdown h.1.ofReceived hd hmd]
  exact F.close_of_isSendable .markdown (.inl ⟨md, rfl⟩)

/-- The review is answered. -/
theorem answer_validate (h : Sends (F.receive body) code name) :
    F.answer env stamp .validate body = .ofValue (Check.review (.str code)).toJson := by
  rw [Framework.answer, handle_validate h.1.ofReceived]
  exact F.close_of_isSendable .validate (.inr ⟨_, rfl, Review.isFinite_toJson _⟩)

end

/-! ### The main statement -/

/-- What the front ends make of a text in a file besides the drawing: the page and the review. -/
structure AgreeBeside (s : Session) (w : Surroundings Tree) (file text name md : String)
    (review : Json) : Prop where
  /-- Documenting the file writes the page. -/
  toMarkdown : ∀ {paged : Tree}, w.files.write (pageOf file) md = .ok paged →
    Command.Ends s ["to-markdown", file] w 0 { w with files := paged } ∧
      paged.read (pageOf file) = .ok md
  /-- Documenting the input prints the page. -/
  documentInput : Command.Ends s ["to-markdown", "-"] { w with input := text } 0
    { w with input := "", output := w.output ++ closed md }
  /-- The service answers the page. -/
  postMarkdown : ∀ (F : Framework) env body, Sends (F.receive body) text name →
    F.answer env s.stamp .markdown body = .ofText "text/markdown; charset=utf-8" md
  /-- The service answers the review. -/
  postValidate : ∀ (F : Framework) env body, Sends (F.receive body) text name →
    F.answer env s.stamp .validate body = .ofValue review
  /-- Reviewing the file prints the review, and the exit code is its outcome. -/
  validate : ∃ exit, Command.Ends s ["validate", file, "--json"] w exit
      { w with output := w.output ++ (review.indented ++ "\n") } ∧
    (exit = 0 ↔ review.field? "isValid" = some (.bool true))

/-- What the front ends make of a text in a file, under a name: the drawing, the page and the
review. -/
structure Agree (s : Session) (w : Surroundings Tree) (file text name xml md : String)
    (review : Json) : Prop extends AgreeBeside s w file text name md review where
  /-- Converting the file writes the drawing and the page. -/
  convert : ∀ {drawn paged : Tree}, w.files.write (drawingOf file) xml = .ok drawn →
    w.files.write (pageOf file) md = .ok paged →
    ∃ both, drawn.write (pageOf file) md = .ok both ∧
      Command.Ends s ["convert", file, "--name=" ++ name] w 0 { w with files := both } ∧
      both.read (drawingOf file) = .ok xml ∧ both.read (pageOf file) = .ok md
  /-- Drawing the file writes the drawing. -/
  toDrawio : ∀ {drawn : Tree}, w.files.write (drawingOf file) xml = .ok drawn →
    Command.Ends s ["to-drawio", file, "--name=" ++ name] w 0 { w with files := drawn } ∧
      drawn.read (drawingOf file) = .ok xml
  /-- Drawing the input prints the drawing. -/
  drawInput : Command.Ends s ["to-drawio", "-", "--name=" ++ name] { w with input := text } 0
    { w with input := "", output := w.output ++ closed xml }
  /-- The service answers the drawing. -/
  postDrawio : ∀ (F : Framework) env body, Sends (F.receive body) text name →
    F.answer env s.stamp .drawio body = .ofText "application/xml" xml

/-- No front end makes a drawing of a text in a file: the commands are stopped, and nothing is left
behind. -/
structure NoneDraws (s : Session) (w : Surroundings Tree) (file text name : String) : Prop where
  /-- Converting the file writes nothing. -/
  convert : Command.Stops s ["convert", file, "--name=" ++ name] w (.drawing .outOfRange) w
  /-- Drawing the file writes nothing. -/
  toDrawio : Command.Stops s ["to-drawio", file, "--name=" ++ name] w (.drawing .outOfRange) w
  /-- Drawing the input prints nothing. -/
  drawInput : Command.Stops s ["to-drawio", "-", "--name=" ++ name] { w with input := text }
    (.drawing .outOfRange) { w with input := "" }
  /-- The service answers that something has failed. -/
  postDrawio : ∀ (F : Framework) env body, Sends (F.receive body) text name →
    F.answer env s.stamp .drawio body = .internalError

variable {s : Session} {w : Surroundings Tree} {file text name xml md : String}

/-- The names of the drawing and the page differ. -/
theorem drawing_ne_page (base : String) : base ++ ".drawio" ≠ base ++ "-docs.md" := by
  intro h
  have hending := String.append_right_inj base |>.mp h
  exact absurd hending (by decide)

/-- A page can be written after the drawing, and both are then there. -/
theorem exists_both {drawn paged : Tree} (hdrawing : w.files.write (drawingOf file) xml = .ok drawn)
    (hpage : w.files.write (pageOf file) md = .ok paged) :
    ∃ both, drawn.write (pageOf file) md = .ok both ∧
      both.read (drawingOf file) = .ok xml ∧ both.read (pageOf file) = .ok md := by
  obtain ⟨both, hboth⟩ := Tree.exists_write_of_write hdrawing hpage
  have hread : drawn.read (drawingOf file) = .ok xml := Tree.read_of_write hdrawing
  obtain ⟨place, hplace, -⟩ := Tree.exists_place_of_read hread
  have hne : drawn.place (drawingOf file) ≠ drawn.place (pageOf file) :=
    Tree.place_ne_of_name_ne (ofText_output file (by decide) (by decide)).2
      (ofText_output file (by decide) (by decide)).2 (drawing_ne_page _) hplace
  exact ⟨both, hboth, Tree.read_of_write_of_ne hread hboth hne, Tree.read_of_write hboth⟩

/-- The exit code is zero exactly for what is valid. -/
theorem reviewCode_eq_zero_iff (r : Review) :
    reviewCode r = 0 ↔ r.toJson.field? "isValid" = some (.bool true) := by
  have hfield : r.toJson.field? "isValid" = some (.bool r.isValid) := rfl
  rw [hfield, reviewCode]
  cases r.isValid <;> simp

/-- A text with a line that counts is not empty. -/
theorem ne_empty_of_hasContent (h : Source.HasContent text) : text ≠ "" := by
  rintro rfl
  obtain ⟨l, hl, hcontent⟩ := h
  have hlines : Text.lines (Source.stripFences "".toList) = [[]] := by rfl
  rw [hlines, List.mem_singleton] at hl
  subst hl
  exact absurd hcontent (by decide)

variable {d : Diagram}

/-- What is documented and reviewed is the same for every front end. -/
theorem agreeBeside_of_parse (hfile : Command.TakesFile file) (hstream : file ≠ stream)
    (hread : w.files.read (Path.ofText file) = .ok text) (htext : '\r' ∉ text.toList)
    (hsettings : s.HasSettings w) (hparse : Diagram.parse text = .ok d)
    (hmd : d.documentation text = .ok md) (name : String) :
    AgreeBeside s w file text name md (Check.review (.str text)).toJson := by
  have hgives : Gives w file text w := gives_file hstream hread htext
  constructor
  case toMarkdown =>
    intro paged hpage
    refine ⟨Command.ends_of_leaves hsettings (Command.read_toMarkdown hfile) fun env => ?_,
      Tree.read_of_write hpage⟩
    have hdelivered : Delivered w md (defaultOutput file "-docs" "md") { w with files := paged } :=
      delivered_file hstream hpage
    exact Command.leaves_toMarkdown hgives hparse hmd hdelivered false
  case documentInput =>
    have hinput : Gives { w with input := text } stream text { w with input := "" } :=
      gives_stream rfl htext
    have hloads : s.HasSettings { w with input := text } := hsettings.congr rfl
    refine Command.ends_of_leaves hloads (Command.read_toMarkdown (by decide)) fun env => ?_
    have hdelivered := delivered_stream { w with input := "" } md "-docs" "md"
    exact Command.leaves_toMarkdown hinput hparse hmd hdelivered false
  case postMarkdown => exact fun F env body h => answer_markdown env s.stamp h hparse hmd
  case postValidate => exact fun F env body h => answer_validate env s.stamp h
  case validate =>
    refine ⟨reviewCode (Check.review (.str text)), ?_, reviewCode_eq_zero_iff _⟩
    refine Command.ends_of_leaves hsettings (Command.read_validate hfile) fun env => ?_
    exact Command.leaves_validate hgives false

/-- What is drawn is the same for every front end, under a name that is left as it is. -/
theorem agree_of_parse (hfile : Command.TakesFile file) (hstream : file ≠ stream)
    (hread : w.files.read (Path.ofText file) = .ok text) (htext : '\r' ∉ text.toList)
    (hname : name ≠ "") (hkept : s.manner.value? name = some name) (hsettings : s.HasSettings w)
    (hparse : Diagram.parse text = .ok d) (hxml : d.drawing (some name) s.stamp = .ok xml)
    (hmd : d.documentation text = .ok md) :
    Agree s w file text name xml md (Check.review (.str text)).toJson := by
  have hgives : Gives w file text w := gives_file hstream hread htext
  refine { agreeBeside_of_parse hfile hstream hread htext hsettings hparse hmd name with
    convert := ?convert, toDrawio := ?toDrawio, drawInput := ?drawInput, postDrawio := ?post }
  case convert =>
    intro drawn paged hdrawing hpage
    obtain ⟨both, hboth, hdrawn, hpaged⟩ := exists_both hdrawing hpage
    have hargs := Command.read_convert (m := s.manner) hfile name
    rw [hkept] at hargs
    refine ⟨both, hboth, Command.ends_of_leaves hsettings hargs fun env => ?_, hdrawn, hpaged⟩
    exact Command.leaves_convert (s := { s with env }) hgives hparse (titleFor_some env hname)
      hxml hmd hdrawing hboth false
  case toDrawio =>
    intro drawn hdrawing
    have hargs := Command.read_toDrawio (m := s.manner) hfile name
    rw [hkept] at hargs
    refine ⟨Command.ends_of_leaves hsettings hargs fun env => ?_, Tree.read_of_write hdrawing⟩
    have hdelivered : Delivered w xml (defaultOutput file "" "drawio") { w with files := drawn } :=
      delivered_file hstream hdrawing
    exact Command.leaves_toDrawio (s := { s with env }) hgives hparse
      (titleFor_some env hname) hxml hdelivered false
  case drawInput =>
    have htakes : Command.TakesFile stream := by decide
    have hargs := Command.read_toDrawio (m := s.manner) htakes name
    rw [hkept] at hargs
    have hinput : Gives { w with input := text } stream text { w with input := "" } :=
      gives_stream rfl htext
    have hloads : s.HasSettings { w with input := text } := hsettings.congr rfl
    refine Command.ends_of_leaves hloads hargs fun env => ?_
    have hdelivered := delivered_stream { w with input := "" } xml "" "drawio"
    exact Command.leaves_toDrawio (s := { s with env }) hinput hparse
      (titleFor_some env hname) hxml hdelivered false
  case post => exact fun F env body h => answer_drawio env s.stamp h hparse hname hxml

/-- No front end draws what is too wide. -/
theorem noneDraws_of_isTooWide (hfile : Command.TakesFile file) (hstream : file ≠ stream)
    (hread : w.files.read (Path.ofText file) = .ok text) (htext : '\r' ∉ text.toList)
    (hname : name ≠ "") (hkept : s.manner.value? name = some name) (hsettings : s.HasSettings w)
    (hparse : Diagram.parse text = .ok d) (hwide : d.IsTooWide .binary64) :
    NoneDraws s w file text name := by
  have hdrawing : d.drawing (some name) s.stamp = .error .outOfRange := by
    rw [Diagram.drawing, Diagram.IsTooWide.toDrawio_eq_error hwide]
    rfl
  have hdraw : ∀ (env : Environment) (w : Surroundings Tree),
      Task.after (draw { s with env } d (some name)) w = (.error (.drawing .outOfRange), w) :=
    fun env => after_draw_of_error (titleFor_some env hname) hdrawing
  constructor
  case convert =>
    have hargs := Command.read_convert (m := s.manner) hfile name
    rw [hkept] at hargs
    refine Command.stops_of_fails hsettings hargs rfl fun env => ?_
    exact Command.fails_convert (gives_file hstream hread htext) hparse (hdraw env w) false
  case toDrawio =>
    have hargs := Command.read_toDrawio (m := s.manner) hfile name
    rw [hkept] at hargs
    refine Command.stops_of_fails hsettings hargs rfl fun env => ?_
    exact Command.fails_toDrawio (gives_file hstream hread htext) hparse (hdraw env w) none false
  case drawInput =>
    have htakes : Command.TakesFile stream := by decide
    have hargs := Command.read_toDrawio (m := s.manner) htakes name
    rw [hkept] at hargs
    have hinput : Gives { w with input := text } stream text { w with input := "" } :=
      gives_stream rfl htext
    have hloads : s.HasSettings { w with input := text } := hsettings.congr rfl
    refine Command.stops_of_fails hloads hargs rfl fun env => ?_
    exact Command.fails_toDrawio hinput hparse (hdraw env _) none false
  case postDrawio =>
    exact fun F env body h => answer_drawio_of_error env s.stamp h hparse hname hdrawing

/-- **Main statement.** Whatever is made of a text under a name that is not empty, and that the
command line leaves as it is, is the same for every front end, and can be asked of each of them. All
of them make a drawing, or none does since the text is a flowchart that is too wide. -/
theorem front_ends_agree (hfile : Command.TakesFile file) (hstream : file ≠ stream)
    (hread : w.files.read (Path.ofText file) = .ok text) (htext : '\r' ∉ text.toList)
    (hcontent : Source.HasContent text) (hname : name ≠ "")
    (hkept : s.manner.value? name = some name) (hsettings : s.HasSettings w) :
    ∃ md review, AgreeBeside s w file text name md review ∧
      ((∃ xml, Agree s w file text name xml md review) ∨
        (∃ d, Diagram.parse text = .ok d ∧ d.IsTooWide .binary64) ∧
          NoneDraws s w file text name) ∧
      ∃ body, Sends (receivePlain body) text name := by
  obtain ⟨d, hparse⟩ := Diagram.exists_parse hcontent
  obtain ⟨md, hmd⟩ := exists_documentation_of_parse hparse text
  have hbeside := agreeBeside_of_parse hfile hstream hread htext hsettings hparse hmd name
  refine ⟨md, _, hbeside, ?_, _, sends_compact (ne_empty_of_hasContent hcontent) name⟩
  -- whether there is a drawing does not depend on who makes it
  rcases drawing_of_parse hparse (some name) s.stamp with ⟨xml, hxml⟩ | ⟨hwide, -⟩
  · have hagree := agree_of_parse hfile hstream hread htext hname hkept hsettings hparse hxml hmd
    exact .inl ⟨xml, hagree⟩
  · exact .inr ⟨⟨d, hparse, hwide⟩, noneDraws_of_isTooWide hfile hstream hread htext hname hkept
      hsettings hparse hwide⟩

/-! ### A page without cells -/

/-- The document of a page without cells. -/
def emptyPage (title : String) : Drawio.Document :=
  { title := .text title, stamp := noon.stamp, cells := [] }

/-- The text of the sheet is a sequence diagram without participants. -/
theorem parse_sheet : Diagram.parse "sequenceDiagram" = .ok (Sequence.read []) := by rfl

/-- Its only line counts. -/
theorem hasContent_sheet : Source.HasContent "sequenceDiagram" := by
  have hlines : Text.lines (Source.stripFences "sequenceDiagram".toList) =
      ["sequenceDiagram".toList] := by rfl
  exact ⟨"sequenceDiagram".toList, hlines ▸ List.mem_cons_self, by rfl⟩

/-- A text in a file of the working folder. -/
def folderOf (text : String) : Tree := ⟨[(⟨false, ["a.mmd"]⟩, .file text)]⟩

/-- The text is read from the file. -/
theorem read_folderOf {text : String} (h : text.utf8ByteSize ≤ Tree.maxFileSize) :
    (folderOf text).read (Path.ofText "a.mmd") = .ok text := by
  have hplace : (folderOf text).place (Path.ofText "a.mmd") = .ok ⟨false, ["a.mmd"]⟩ := by rfl
  have hget : (folderOf text).get? ⟨false, ["a.mmd"]⟩ = some (.file text) := by rfl
  rw [Tree.read, hplace]
  dsimp only
  rw [hget]
  exact if_neg (Nat.not_lt.mpr h)

/-- Beside this file, one of these names can be written. -/
theorem exists_write_folderOf (text name : String)
    (hname : name ∈ ["a.drawio", "a-docs.md"]) {written : String}
    (hsize : written.utf8ByteSize ≤ Tree.maxFileSize) :
    ∃ files, (folderOf text).write ⟨.here, [name]⟩ written = .ok files := by
  have hplace : (folderOf text).place ⟨.here, [name]⟩ = .ok ⟨false, [name]⟩ ∧
      (folderOf text).get? ⟨false, [name]⟩ = none := by
    simp only [List.mem_cons, List.not_mem_nil, or_false] at hname
    rcases hname with rfl | rfl <;> exact ⟨rfl, rfl⟩
  refine ⟨_, Tree.write_of_place hplace.1 ?_ hsize⟩
  rw [hplace.2]
  nofun

/-- A page without cells is not too large. -/
theorem size_emptyPage {title : String} (h : ((emptyPage title).toXml.write 0).length ≤ 1000) :
    (emptyPage title).text.utf8ByteSize ≤ Tree.maxFileSize := by
  have hbody := utf8ByteSize_ofList_le ((emptyPage title).toXml.write 0)
  have hstart : (Xml.declaration ++ "\n").utf8ByteSize = 39 := by decide +kernel
  have hmax : 39 + 4 * 1000 ≤ Tree.maxFileSize := by decide
  rw [Drawio.Document.text, Xml.text, String.utf8ByteSize_append, hstart]
  omega

/-- The diagram is documented, and the page is not too large. -/
theorem exists_page_sheet : ∃ md, (Sequence.read []).documentation "sequenceDiagram" = .ok md ∧
    md.utf8ByteSize ≤ Tree.maxFileSize :=
  ⟨_, rfl, by decide +kernel⟩

/-- Two titles that are short enough. -/
theorem length_emptyPage : ∀ title ∈ ["Page", "Converted Diagram"],
    ((emptyPage title).toXml.write 0).length ≤ 1000 := by
  decide +kernel

/-- A page without cells and the text about it can be written to the files of their names. -/
theorem exists_written {title md : String} (htitle : title ∈ ["Page", "Converted Diagram"])
    (hmd : md.utf8ByteSize ≤ Tree.maxFileSize) :
    ∃ drawn paged, sheet.files.write (drawingOf "a.mmd") (emptyPage title).text = .ok drawn ∧
      sheet.files.write (pageOf "a.mmd") md = .ok paged := by
  have hdrawing : drawingOf "a.mmd" = ⟨.here, ["a.drawio"]⟩ := by rfl
  have hpage : pageOf "a.mmd" = ⟨.here, ["a-docs.md"]⟩ := by rfl
  have hxml := size_emptyPage (length_emptyPage title htitle)
  obtain ⟨drawn, hdrawn⟩ := exists_write_folderOf "sequenceDiagram" "a.drawio" (by decide) hxml
  obtain ⟨paged, hpaged⟩ := exists_write_folderOf "sequenceDiagram" "a-docs.md" (by decide) hmd
  exact ⟨drawn, paged, hdrawing ▸ hdrawn, hpage ▸ hpaged⟩

/-- Under a title of the usual kind the drawing and the page are written, as they are answered. -/
theorem front_ends_agree_sheet :
    ∃ xml md review both, Agree noon sheet "a.mmd" "sequenceDiagram" "Page" xml md review ∧
      (∃ body, Sends (receivePlain body) "sequenceDiagram" "Page") ∧
      Command.Ends noon ["convert", "a.mmd", "--name=Page"] sheet 0 { sheet with files := both } ∧
      both.read (drawingOf "a.mmd") = .ok xml ∧ both.read (pageOf "a.mmd") = .ok md := by
  have hread : sheet.files.read (Path.ofText "a.mmd") = .ok "sequenceDiagram" := rfl
  have hsettings : noon.HasSettings sheet := ⟨(none, []), rfl⟩
  obtain ⟨md, review, -, hdrawn, body, hsends⟩ :=
    front_ends_agree (s := noon) (by decide) (by decide) hread (by decide) hasContent_sheet
      (by decide) (rfl : Manner.strict.value? "Page" = some "Page") hsettings
  obtain ⟨xml, hagree⟩ := hdrawn.resolve_right fun ⟨⟨d, hparse, hwide⟩, _⟩ => by
    rw [parse_sheet] at hparse
    cases hparse
    exact nomatch hwide.kind
  obtain ⟨page, hpage, hsize⟩ := exists_page_sheet
  have hdrawing : (Sequence.read []).drawing (some "Page") noon.stamp =
      .ok (emptyPage "Page").text := by rfl
  obtain rfl : xml = (emptyPage "Page").text := by
    have hanswer := answer_drawio (F := .plain) [] noon.stamp hsends parse_sheet (by decide) hdrawing
    rw [hagree.postDrawio .plain [] body hsends] at hanswer
    cases hanswer
    rfl
  obtain rfl : md = page := by
    have hanswer := answer_markdown (F := .plain) [] noon.stamp hsends parse_sheet hpage
    rw [hagree.postMarkdown .plain [] body hsends] at hanswer
    cases hanswer
    rfl
  obtain ⟨drawn, paged, hdrawn, hpaged⟩ := exists_written List.mem_cons_self hsize
  obtain ⟨both, -, hends, hreads⟩ := hagree.convert hdrawn hpaged
  exact ⟨_, md, review, both, hagree, ⟨body, hsends⟩, hends, hreads⟩

/-- The text of a ladder that is high enough, in a file of the working folder. -/
def tallSheet : Surroundings Tree where
  files := folderOf (Flowchart.ladderText 30 Flowchart.highNames)

/-- No front end draws the ladder, however the command line is read, and though the files of the
drawing and of the page can be written. -/
theorem nothing_drawn_of_ladder :
    let text := Flowchart.ladderText 30 Flowchart.highNames
    tallSheet.files.read (Path.ofText "a.mmd") = .ok text ∧ Source.HasContent text ∧
      '\r' ∉ text.toList ∧ noon.HasSettings tallSheet ∧
      (∀ p ∈ [drawingOf "a.mmd", pageOf "a.mmd"], ∀ written : String,
        written.utf8ByteSize ≤ Tree.maxFileSize →
          ∃ files, tallSheet.files.write p written = .ok files) ∧
      ∀ manner, NoneDraws { noon with manner } tallSheet "a.mmd" text "Page" := by
  intro text
  have hsize : text.utf8ByteSize ≤ Tree.maxFileSize := by
    have hbytes := utf8ByteSize_ofList_le text.toList
    have hlength : text.toList.length ≤ 130000 := Flowchart.length_high_le
    have hmax : 4 * 130000 ≤ Tree.maxFileSize := by decide
    rw [String.ofList_toList] at hbytes
    omega
  have hread : tallSheet.files.read (Path.ofText "a.mmd") = .ok text := read_folderOf hsize
  have htext : '\r' ∉ text.toList := Flowchart.return_notMem_ladderText _ _
  have hload : noon.HasSettings tallSheet := ⟨(none, []), rfl⟩
  obtain ⟨d, hparse, hwide⟩ := Flowchart.isTooWide_high
  refine ⟨hread, Flowchart.hasContent_ladderText _ _, htext, hload, ?_, fun manner => ?_⟩
  · have hdrawing : drawingOf "a.mmd" = ⟨.here, ["a.drawio"]⟩ := by rfl
    have hpage : pageOf "a.mmd" = ⟨.here, ["a-docs.md"]⟩ := by rfl
    rw [hdrawing, hpage]
    intro p hp written hsize
    simp only [List.mem_cons, List.not_mem_nil, or_false] at hp
    rcases hp with rfl | rfl
    · exact exists_write_folderOf text _ (by decide) hsize
    · exact exists_write_folderOf text _ (by decide) hsize
  · have hkept : manner.value? "Page" = some "Page" := Manner.value?_of_ne (by decide) manner
    exact noneDraws_of_isTooWide (by decide) (by decide) hread htext (by decide) hkept hload
      hparse hwide

/-- In the lenient manner nothing is left of a name that is two dashes, and the drawing gets the
title that is set. The service keeps the name. -/
theorem drawn_otherwise_under_dashes :
    sheet.files.read (Path.ofText "a.mmd") = .ok "sequenceDiagram" ∧
      Source.HasContent "sequenceDiagram" ∧ '\r' ∉ "sequenceDiagram".toList ∧
      ∃ body asked found both,
        Sends (receivePlain body) "sequenceDiagram" "--" ∧
        Framework.plain.answer [] noon.stamp .drawio body = .ofText "application/xml" asked ∧
        Command.Ends { noon with manner := .lenient } ["convert", "a.mmd", "--name=--"] sheet 0
          { sheet with files := both } ∧
        both.read (drawingOf "a.mmd") = .ok found ∧ found ≠ asked := by
  have hread : sheet.files.read (Path.ofText "a.mmd") = .ok "sequenceDiagram" := rfl
  have hsends := sends_compact (ne_empty_of_hasContent hasContent_sheet) "--"
  have hasked : (Sequence.read []).drawing (some "--") noon.stamp = .ok (emptyPage "--").text := by
    rfl
  have hfound : (Sequence.read []).drawing (some "Converted Diagram") noon.stamp =
      .ok (emptyPage "Converted Diagram").text := by rfl
  have hgives : Gives sheet "a.mmd" "sequenceDiagram" sheet :=
    gives_file (by decide) hread (by decide)
  have htitle : titleFor [] none = .ok "Converted Diagram" := by rfl
  have hload : ((loadEnvironment noon.reader noon.home {} noon.env).run sheet).1 =
      .ok (none, []) := rfl
  have hargs : Command.read .lenient ["convert", "a.mmd", "--name=--"] =
      .ok (some (.convert "a.mmd" (some ".") none false)) := Command.read_convert (by decide) "--"
  obtain ⟨page, hpage, hsize⟩ := exists_page_sheet
  obtain ⟨drawn, paged, hdrawn, hpaged⟩ :=
    exists_written (List.mem_cons_of_mem _ List.mem_cons_self) hsize
  obtain ⟨both, hboth, hreads, -⟩ := exists_both hdrawn hpaged
  have hleaves := Command.leaves_convert (s := { noon with manner := .lenient, env := [] }) hgives
    parse_sheet htitle hfound hpage hdrawn hboth false
  refine ⟨hread, hasContent_sheet, by decide, _, _, _, both, hsends,
    answer_drawio (F := .plain) [] noon.stamp hsends parse_sheet (by decide) hasked,
    Command.ends_of_load hload hargs hleaves, hreads, ?_⟩
  have hlists : (emptyPage "Converted Diagram").toXml.write 0 ≠ (emptyPage "--").toXml.write 0 := by
    decide +kernel
  intro h
  exact hlists (String.ofList_injective ((String.append_right_inj _).mp h))

end Diagrams.CommandLine
