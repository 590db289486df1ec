import Diagrams.CommandLine.Stages
import Diagrams.Proofs.CommandLine.Task
import Diagrams.Proofs.Conversion
import Diagrams.Proofs.Drawio.Fits
import Diagrams.Proofs.Json.Saved
import Diagrams.Proofs.Reading.Plain
import Mathlib.Data.String.Basic

/-!
# Drawing in one step and in two

A text can be drawn at once, or its diagram can be filed as a record and the record drawn later.

**Main statement** (`ofJson_toJson_and_saved_draw`): a diagram is read again from its own record,
and the drawing that is made of the record is the drawing that is made of the text, under a title
that is not empty. Where there is no drawing, because a flowchart is too wide, neither way saves
one.

Every step saves one text and tells something besides: the record of the diagram
(`Stage.saved_parse`), the drawing of what is read from the record (`Stage.saves_draw`), or the
drawing of the text (`Command.saves_toDrawio`). What is read from the record is the diagram, because
the record is plain and the diagram is filed. The record of a text is plain because a text that
comes from a file has fewer characters than a number may have values (`length_received_lt`).
-/

namespace Diagrams.CommandLine

open Files CommandLine.Task

variable {s : Session} {w w' : Surroundings Tree}

/-! ### Single steps -/

/-- A file that can be read is there. -/
theorem after_hasInput {p : Path} {text : String} (h : w.files.read p = .ok text) :
    after (hasInput p) w = (.ok true, w) := by
  rw [hasInput, after_bind_ok (after_look h)]
  rfl

/-- The step that files a diagram saves its record. -/
theorem Stage.saved_parse {input : String} {text : String} {d : Diagram}
    (hinput : w.files.read (Path.ofText input) = .ok text)
    (hparse : Diagram.parse (received text) = .ok d) (output : String) :
    Saved w (Path.ofText output) d.toJson.indented
      (after ((Stage.parse (some input) (some output)).perform s) w) := by
  rw [Stage.perform, after_bind_ok (after_named input w), after_bind_ok (after_hasInput hinput),
    if_pos rfl, after_bind_ok (after_readFile hinput), after_bind_ok (after_ofExcept hparse w),
    after_bind_ok (after_named output w)]
  exact saved_bind fun _ => (tells_tellLine _).bind ((tells_tellLine _).bind (tells_pure 0))

/-- The draft of a plain record is read from the file that holds the record. -/
theorem after_readRecord {p : Path} {j : Json} {r : Draft}
    (hfile : w.files.read p = .ok j.indented) (hplain : j.IsPlain)
    (hrecord : Draft.ofJson j = .ok r) : after (readRecord p) w = (.ok r, w) := by
  have hvalue : Json.read (received j.indented).toList = .ok j := by
    rw [received, String.toList_ofList]
    exact hplain.read_saved
  rw [readRecord, after_bind_ok (after_readFile hfile), after_bind_ok (after_ofExcept hvalue w),
    after_ofExcept hrecord w]

/-- Apart from messages, the outcome of a task is that of saving a drawing, or a problem when there
is no drawing. -/
def Saves (w : Surroundings Tree) (p : Path) (drawing : Except DrawingError String)
    (r : Except Problem Nat × Surroundings Tree) : Prop :=
  match drawing with
  | .ok xml => Saved w p xml r
  | .error _ => ∃ e, r.1 = .error e

/-- The step that draws the diagram of a record saves the drawing. -/
theorem Stage.saves_draw {input : String} {d : Diagram} (name : Option String)
    (hinput : w.files.read (Path.ofText input) = .ok d.toJson.indented) (hplain : d.toJson.IsPlain)
    (hfiled : d.IsFiled) (output : String) :
    Saves w (Path.ofText output) (d.drawing name s.stamp)
      (after ((Stage.draw (some input) (some output) name).perform s) w) := by
  rw [Stage.perform, after_bind_ok (after_named input w), after_bind_ok (after_hasInput hinput),
    if_pos rfl, after_bind_ok (after_readRecord hinput hplain hfiled.draft_toJson),
    after_bind_ok (after_ofExcept d.diagram_draft w), after_bind_ok (after_named output w)]
  cases hmade : d.drawing name s.stamp with
  | ok xml =>
    refine (after_makeFolder_writeFile rfl _).symm ▸ saved_bind fun _ => ?_
    exact (tells_tellLine _).bind (tells_pure 0)
  | error e =>
    -- the folder may be refused before the drawing is
    rcases hfolder : after (Task.makeFolder (Path.ofText output).parent) w with ⟨r, w₁⟩
    cases r with
    | error found => exact ⟨found, congrArg Prod.fst (after_bind_error hfolder _)⟩
    | ok _ =>
      have hdraw : after (Task.ofExcept .drawing (Except.error e : Except DrawingError String)) w₁ =
          (.error (.drawing e), w₁) := rfl
      refine ⟨.drawing e, ?_⟩
      rw [after_bind_ok hfolder, after_bind_error hdraw]

/-! ### One step -/

section

variable {σ : Type} [Disk σ] {w w' : Surroundings σ}

/-- Progress is only told. -/
theorem tells_inform (quiet : Bool) (text : String) : Tells σ (inform quiet text) () := by
  cases quiet with
  | true => exact tells_pure ()
  | false => exact tells_tellLine text

/-- The text and the diagram of an input are read, and something is told about it. -/
theorem after_readDiagram {file code : String} {d : Diagram}
    (hinput : after (readInput s file) w = (.ok code, w')) (hparse : Diagram.parse code = .ok d)
    (quiet : Bool) :
    ∃ line, after (readDiagram s file quiet) w = (.ok (code, d), told w' line) := by
  obtain ⟨first, hfirst⟩ := tells_inform (σ := σ) quiet "Parsing Mermaid diagram..."
  obtain ⟨second, hsecond⟩ := tells_inform (σ := σ) quiet ("Parsed " ++ d.kind.name ++
    " diagram with " ++ toString d.nodes.length ++ " nodes and " ++ toString d.edges.length ++
    " edges")
  refine ⟨first ++ second, ?_⟩
  rw [readDiagram, after_bind_ok hinput, after_bind_ok (hfirst w'),
    after_bind_ok (after_ofExcept hparse _), after_bind_ok (hsecond _), told_told, after_pure]

/-- A title that is asked for is taken, unless it is empty. -/
theorem titleFor_some (env : Environment) {name : String} (h : name ≠ "") :
    titleFor env (some name) = .ok name := by
  unfold titleFor
  split
  · contradiction
  · rename_i hempty
    exact absurd (Option.some.inj hempty) h
  · rename_i heq
    cases heq
    rfl

/-- A diagram is drawn under the title that is found. -/
theorem after_draw_of_title {d : Diagram} {name : Option String} {title xml : String}
    (htitle : titleFor s.env name = .ok title) (hxml : d.drawing (some title) s.stamp = .ok xml)
    (w : Surroundings σ) : after (draw s d name) w = (.ok xml, w) := by
  rw [draw, after_bind_ok (after_ofExcept htitle w), after_ofExcept hxml w]

/-- A diagram that cannot be drawn is a problem. -/
theorem after_draw_of_error {d : Diagram} {name : Option String} {title : String}
    {e : DrawingError} (htitle : titleFor s.env name = .ok title)
    (he : d.drawing (some title) s.stamp = .error e) (w : Surroundings σ) :
    after (draw s d name) w = (.error (.drawing e), w) := by
  rw [draw, after_bind_ok (after_ofExcept htitle w), he]
  rfl

end

/-- The path to which a text was written is told as it lies under the root. -/
theorem tells_resolve {p : Path} (h : p.hasNull = false) :
    Tells Tree (Task.resolve s p) (p.resolve s.home) := by
  refine ⟨"", fun w => ?_⟩
  have hresolve : Disk.resolve s.home w.files p = .ok (p.resolve s.home) :=
    if_neg (by rw [h]; decide)
  rw [told_empty]
  show ((Disk.resolve s.home w.files p).mapError Problem.file, w) = _
  rw [hresolve]
  rfl

/-- An output that names a file is written to that file. -/
theorem writeOutput_file {output : String} (h : output ≠ "" ∧ output ≠ stream) (text : String) :
    writeOutput text (some output) = do
      Task.saveFile (Path.ofText output) text
      return some (Path.ofText output) := by
  unfold writeOutput
  split
  · contradiction
  · rename_i hempty
    exact absurd (Option.some.inj hempty) h.1
  · rename_i hstream
    exact absurd (Option.some.inj hstream) h.2
  · rename_i heq
    cases heq
    rfl

/-- An output that names a file is the file in which the text is saved. -/
theorem saved_deliver {output : String} (h : output ≠ "" ∧ output ≠ stream) (quiet : Bool)
    (text : String) (default : Option String) :
    Saved w (Path.ofText output) text
      (after (deliver s quiet text (some output) default >>= fun _ => return 0) w) := by
  unfold deliver
  dsimp only
  split
  · contradiction
  · rename_i hempty
    exact absurd (Option.some.inj hempty) h.1
  · rename_i heq
    cases heq
    rw [writeOutput_file h, after_bind_assoc, after_bind_assoc]
    refine saved_bind fun hnull => ?_
    exact (tells_pure (some (Path.ofText output))).bind
      (((tells_resolve hnull).bind (tells_inform quiet _)).bind (tells_pure 0))

/-- The command that draws a text saves the drawing, from wherever it receives the text. -/
theorem Command.saves_toDrawio {file code output name : String} {d : Diagram}
    (hinput : after (readInput s file) w = (.ok code, w')) (hparse : Diagram.parse code = .ok d)
    (hname : name ≠ "") (houtput : output ≠ "" ∧ output ≠ stream) (quiet : Bool) :
    Saves w' (Path.ofText output) (d.drawing (some name) s.stamp)
      (after ((Command.toDrawio file (some output) (some name) quiet).perform s) w) := by
  obtain ⟨first, hfirst⟩ := after_readDiagram hinput hparse quiet
  obtain ⟨second, hsecond⟩ := tells_inform (σ := Tree) quiet "Converting to Draw.io XML..."
  have htitle := titleFor_some s.env hname
  rw [Command.perform, after_bind_ok hfirst]
  dsimp only
  rw [after_bind_ok (hsecond _), told_told]
  cases hmade : d.drawing (some name) s.stamp with
  | ok xml =>
    rw [after_bind_ok (after_draw_of_title htitle hmade _)]
    exact (saved_deliver houtput quiet xml _).of_told
  | error e =>
    rw [after_bind_error (after_draw_of_error htitle hmade _)]
    exact ⟨.drawing e, rfl⟩

/-! ### The size of a text -/

/-- A character takes at most four bytes. -/
theorem utf8ByteSize_ofList_le (cs : List Char) :
    (String.ofList cs).utf8ByteSize ≤ 4 * cs.length := by
  rw [String.utf8ByteSize_ofList]
  induction cs with
  | nil => exact Nat.le_refl 0
  | cons c cs ih =>
    have hc := c.utf8Size_le_four
    rw [String.utf8Len_cons, List.length_cons]
    omega

/-- A character takes a byte at least. -/
theorem length_le_utf8ByteSize (text : String) : text.toList.length ≤ text.utf8ByteSize := by
  rw [← String.utf8Len_toList]
  induction text.toList with
  | nil => exact Nat.le_refl 0
  | cons c cs ih => exact Nat.add_le_add ih (Char.utf8Size_pos c)

/-- A text that is received from a file has fewer characters than there are numbers that can be
read. -/
theorem length_received_lt {p : Path} {text : String} (h : w.files.read p = .ok text) :
    (received text).toList.length < 10 ^ Json.maxDigits := by
  have hmax : Tree.maxFileSize < 10 ^ 19 := by decide
  rw [received, String.toList_ofList]
  calc (Text.readNewlines text.toList).length
    _ ≤ text.toList.length := Text.length_readNewlines_le _
    _ ≤ text.utf8ByteSize := length_le_utf8ByteSize text
    _ ≤ Tree.maxFileSize := Tree.size_of_read h
    _ < 10 ^ 19 := hmax
    _ ≤ 10 ^ Json.maxDigits := Nat.pow_le_pow_right (by decide) (by decide)

/-! ### One step and two -/

/-- Filing a diagram loses nothing. Whatever was read from a record is read again from its own
record, with and without regard to the kinds of its values, and so is whatever was read from a text.
And under a title that is not empty, the record of a text is drawn as the text is, in whichever file
it is kept and from wherever the text is received, or neither is drawn, because it is too wide. -/
theorem ofJson_toJson_and_saved_draw :
    (∀ (j : Json) (r : Draft), Draft.ofJson j = .ok r → Draft.ofJson r.toJson = .ok r) ∧
    (∀ (j : Json) (d : Diagram), Diagram.ofJson j = .ok d → Diagram.ofJson d.toJson = .ok d) ∧
    (∀ (code : String) (d : Diagram), Diagram.parse code = .ok d →
      Draft.ofJson d.toJson = .ok d.draft ∧ Diagram.ofJson d.toJson = .ok d) ∧
    ∀ (s : Session) (w : Surroundings Tree) (input record output name text : String) (d : Diagram),
      w.files.read (Path.ofText input) = .ok text → Diagram.parse (received text) = .ok d →
      name ≠ "" →
      let drawing := d.drawing (some name) s.stamp
      ((∃ xml, drawing = .ok xml) ∨ d.IsTooWide .binary64 ∧ drawing = .error .outOfRange) ∧
        Saved w (Path.ofText record) d.toJson.indented
          (after ((Stage.parse (some input) (some record)).perform s) w) ∧
        (∀ w', after ((Stage.parse (some input) (some record)).perform s) w = (.ok 0, w') →
          Saves w' (Path.ofText output) drawing
            (after ((Stage.draw (some record) (some output) (some name)).perform s) w')) ∧
        ∀ (s' : Session) (w₀ w₁ : Surroundings Tree) (file output' : String) (quiet : Bool),
          s'.stamp = s.stamp → after (readInput s' file) w₀ = (.ok (received text), w₁) →
          output' ≠ "" ∧ output' ≠ stream →
          Saves w₁ (Path.ofText output') drawing
            (after ((Command.toDrawio file (some output') (some name) quiet).perform s') w₀) := by
  refine ⟨fun _ _ h => Draft.ofJson_toJson h,
    fun _ _ h => (Diagram.isFiled_of_ofJson h).ofJson_toJson, fun code d h => ?_, ?_⟩
  · have hfiled : d.IsFiled := Diagram.isFiled_of_parse h
    exact ⟨hfiled.draft_toJson, hfiled.ofJson_toJson⟩
  · intro s w input record output name text d hinput hparse hname drawing
    have hfiled : d.IsFiled := Diagram.isFiled_of_parse hparse
    have hplain : d.toJson.IsPlain := isPlain_of_parse hparse (length_received_lt hinput)
    have hrecord := Stage.saved_parse (s := s) hinput hparse record
    refine ⟨drawing_of_parse hparse (some name) s.stamp, hrecord, ?_, ?_⟩
    · intro w' hw'
      exact Stage.saves_draw _ (hw' ▸ hrecord).read hplain hfiled output
    · intro s' w₀ w₁ file output' quiet hstamp hreceived houtput
      have hsaves := Command.saves_toDrawio (s := s') hreceived hparse hname houtput quiet
      rwa [hstamp] at hsaves

/-- A record with an unknown field and a value of the wrong kind. -/
def loose : Json :=
  .obj [("nodes", .arr [.obj [("label", .null), ("colour", .str "red"), ("id", .int 1)]])]

/-- Two nodes and an edge. -/
def linked : Diagram where
  direction := some Direction.lr
  nodes := [.node (.plain "a"), .node (.plain "b")]
  edges := [.edge { id := "e1", source := "a", target := "b", arrow := some Arrow.solid.style }]

/-- A text in the working folder. -/
def desk : Surroundings Tree where
  files := ⟨[(⟨false, ["a.mmd"]⟩, .file "graph LR\na-->b")]⟩

/-- The text of a sequence diagram without participants, in a file of the working folder. -/
def sheet : Surroundings Tree where
  files := ⟨[(⟨false, ["a.mmd"]⟩, .file "sequenceDiagram")]⟩

/-- A session at noon. -/
def noon : Session where
  home := { start := .root }
  stamp := { moment := ⟨2024, 1, 2, 12, 0, 0, 0⟩ }
  reader := .plain
  manner := .strict

/-- The record can be written. -/
theorem after_saveFile_linked (before : String) :
    ∃ files, after (Task.saveFile (Path.ofText "a.json") linked.toJson.indented)
      (told desk before) = (.ok (), { told desk before with files := files }) := by
  have hsize : ¬ Tree.maxFileSize < linked.toJson.indented.utf8ByteSize := by
    rw [Json.indented, String.utf8ByteSize_ofList]
    decide +kernel
  generalize linked.toJson.indented = text at hsize ⊢
  exact ⟨desk.files.set ⟨false, ["a.json"]⟩ (.file text), after_saveFile rfl (if_neg hsize)⟩

/-- Two nodes do not need much room. -/
theorem not_isTooWide_linked : ¬ linked.IsTooWide .binary64 := by
  have hnodes : (Layout.withTerminals linked).nodes =
      [Layout.startNode, .plain "a", .plain "b", Layout.stopNode].map .node := by decide
  exact Diagram.not_isTooWide_of_rises ["Start", "a", "b", "Stop"].idxOf hnodes
    (by decide) (by decide) (by decide) (by decide) (by decide)

set_option maxRecDepth 100000 in
/-- A record whose text names an edge twice is read and saved, and its diagram is drawn from the
file as it is drawn at once. -/
theorem ofJson_toJson_and_saved_draw_linked :
    (∃ r, Draft.ofJson loose = .ok r ∧ Draft.ofJson r.toJson = .ok r) ∧
    Draft.ofJson linked.toJson = .ok linked.draft ∧ Diagram.ofJson linked.toJson = .ok linked ∧
    ∃ xml w', linked.drawing (some "Page") noon.stamp = .ok xml ∧
      after ((Stage.parse (some "a.mmd") (some "a.json")).perform noon) desk = (.ok 0, w') ∧
      Saved w' (Path.ofText "a.drawio") xml
        (after ((Stage.draw (some "a.json") (some "a.drawio") (some "Page")).perform noon) w') ∧
      Saved desk (Path.ofText "a.drawio") xml
        (after ((Command.toDrawio "a.mmd" (some "a.drawio") (some "Page") false).perform noon)
          desk) := by
  obtain ⟨hdraft, hdiagram, hparsed, hdrawn⟩ := ofJson_toJson_and_saved_draw
  have hinput : desk.files.read (Path.ofText "a.mmd") = .ok "graph LR\na-->b" := rfl
  have hparse : Diagram.parse (received "graph LR\na-->b") = .ok linked := rfl
  have hreceived : after (readInput noon "a.mmd") desk =
      (.ok (received "graph LR\na-->b"), desk) := rfl
  obtain ⟨hmade, ⟨before, behind, hsaved⟩, htwo, hone⟩ :=
    hdrawn noon desk "a.mmd" "a.json" "a.drawio" "Page" _ linked hinput hparse (by decide)
  obtain ⟨xml, hxml⟩ := hmade.resolve_right fun hwide => not_isTooWide_linked hwide.1
  obtain ⟨files, hfiles⟩ := after_saveFile_linked before
  rw [hfiles] at hsaved
  rw [hxml] at htwo hone
  refine ⟨⟨_, rfl, hdraft loose _ rfl⟩, (hparsed _ _ hparse).1,
    hdiagram linked.toJson linked (hparsed _ _ hparse).2, xml, _, hxml, hsaved, htwo _ hsaved, ?_⟩
  exact hone noon desk desk "a.mmd" "a.drawio" false rfl hreceived ⟨by decide, by decide⟩

end Diagrams.CommandLine
