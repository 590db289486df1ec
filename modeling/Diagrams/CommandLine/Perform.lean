import Diagrams.Check.Review
import Diagrams.CommandLine.Command
import Diagrams.CommandLine.Task
import Diagrams.Json.Printer
import Diagrams.Page.Review

/-!
# Carrying out commands

* `Command.perform` — what a command does, and its exit code.
* `Command.run` — what a command line does. Problems that users are expected to meet are told, and
  the exit code is then one.

Progress is told on the stream for messages, so that the output can carry what is made.
-/

namespace Diagrams.CommandLine

open Files

/-- Tells a line, unless silence is asked for. -/
def inform (quiet : Bool) (text : String) : Task Unit :=
  if quiet then pure () else Task.tellLine text

/-- The text of an input and its diagram. -/
def readDiagram (s : Session) (file : String) (quiet : Bool) : Task (String × Diagram) := do
  let code ← readInput s file
  inform quiet "Parsing Mermaid diagram..."
  let d ← Task.ofExcept .source (Diagram.parse code)
  inform quiet ("Parsed " ++ d.kind.name ++ " diagram with " ++ toString d.nodes.length ++
    " nodes and " ++ toString d.edges.length ++ " edges")
  return (code, d)

/-- The drawing of a diagram under the title asked for. -/
def draw (s : Session) (d : Diagram) (name : Option String) : Task String := do
  let title ← Task.ofExcept .port (titleFor s.env name)
  Task.ofExcept .drawing (d.drawing (some title) s.stamp)

/-- The documentation of a diagram. -/
def document (d : Diagram) (code : String) : Task String :=
  Task.ofExcept .page (d.documentation code)

/-- Writes a text to the output asked for or, when none is, to the default one. -/
def deliver (s : Session) (quiet : Bool) (text : String) (output default : Option String) :
    Task Unit := do
  let output := match output with
    | none | some "" => default
    | some o => some o
  match ← writeOutput text output with
  | none => pure ()
  | some p => inform quiet ("Output written to: " ++ (← Task.resolve s p).text)

/-- The lines about findings, under a heading. -/
def findingLines (title : String) (findings : List Finding) : List String :=
  if findings = [] then []
  else
    "" :: title :: findings.flatMap fun f =>
      ["  Line " ++ toString f.line ++ ": " ++ f.issue, "    -> " ++ f.suggestion]

/-- The lines about a review. -/
def reviewLines (r : Review) : List String :=
  ["Validation Results", "Status: " ++ (if r.isValid then "Valid" else "Invalid"),
    "Draw.io Compatibility: " ++ r.compatibility.name.toUpper] ++
    (match r.kind with
      | none => []
      | some kind =>
        ["", "Diagram Info", "  Type: " ++ kind.name, "  Nodes: " ++ toString r.nodeCount,
          "  Edges: " ++ toString r.edgeCount]) ++
    findingLines "Issues" r.issues ++ findingLines "Warnings" r.warnings

/-- The exit code of a check. -/
def reviewCode (r : Review) : Nat := if r.isValid then 0 else 1

/-- What a command does, and its exit code. -/
def Command.perform (s : Session) : Command → Task Nat
  | toDrawio file output name quiet => do
    let (_, d) ← readDiagram s file quiet
    inform quiet "Converting to Draw.io XML..."
    deliver s quiet (← draw s d name) output (defaultOutput file "" "drawio")
    return 0
  | toMarkdown file output quiet => do
    let (code, d) ← readDiagram s file quiet
    inform quiet "Generating Markdown documentation..."
    deliver s quiet (← document d code) output (defaultOutput file "-docs" "md")
    return 0
  | convert file folder name quiet => do
    let (code, d) ← readDiagram s file quiet
    let base := if file = stream then "diagram" else (Path.ofText file).stem
    let folder := Path.ofText (← Task.named folder)
    Task.makeFolder folder
    inform quiet "1. Converting to Draw.io XML..."
    let drawing := folder.within (base ++ ".drawio")
    Task.writeFile drawing (← draw s d name)
    inform quiet ("   " ++ drawing.text)
    inform quiet "2. Generating Markdown documentation..."
    let page := folder.within (base ++ "-docs.md")
    Task.writeFile page (← document d code)
    inform quiet ("   " ++ page.text)
    return 0
  | validate file output json quiet => do
    let code ← readInput s file
    let review := Check.review (.str code)
    if json then Task.printLine review.toJson.indented
    else
      match output with
      | none | some "" =>
        if quiet then pure () else (reviewLines review).forM Task.printLine
      | some output => deliver s quiet (review.page code).text (some output) none
    return reviewCode review

/-- How a command ends: problems that users are expected to meet are told. -/
def finish : Except Problem Nat → Job Ending
  | .ok code => .done (.exit code)
  | .error p =>
    match p.told? with
    | some message => .tell ("Error: " ++ message ++ "\n") (.done (.exit 1))
    | none => .done (.stopped p)

/-- What a command line does. The settings file is read before the command line. -/
def Command.run (s : Session) (args : List String) : Job Ending := do
  match ← loadEnvironment s.reader s.home {} s.env with
  | .error e => return .stopped (.settings e)
  | .ok (_, env) =>
    match Command.read s.manner args with
    | .error stop => return stop.ending
    | .ok none => return .usage 0
    | .ok (some command) =>
      let result ← (command.perform { s with env }).run
      finish result

end Diagrams.CommandLine
