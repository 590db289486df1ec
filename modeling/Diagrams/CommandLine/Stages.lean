import Diagrams.CommandLine.Perform

/-!
# Carrying out single steps

`Stage.run` — what a program for a single step does. A missing input is told; any other problem
stops the program.
-/

namespace Diagrams.CommandLine

open Files

/-- Whether an input file is there; if not, that is told. -/
def hasInput (input : Path) : Task Bool := do
  match ← Task.look input with
  | some _ => return true
  | none =>
    Task.tellLine ("Error: Input file not found: " ++ input.text)
    return false

/-- The draft whose record is in a file. -/
def readRecord (p : Path) : Task Draft := do
  let text ← Task.readFile p
  let j ← Task.ofExcept .value (Json.read text.toList)
  Task.ofExcept .record (Draft.ofJson j)

/-- What a step does, and its exit code. -/
def Stage.perform (s : Session) : Stage → Task Nat
  | parse input output => do
    let input := Path.ofText (← Task.named input)
    if ← hasInput input then
      let code ← Task.readFile input
      let d ← Task.ofExcept .source (Diagram.parse code)
      let output ← Task.named output
      Task.saveFile (Path.ofText output) d.toJson.indented
      Task.tellLine ("  Extracted: " ++ toString d.nodes.length ++ " nodes, " ++
        toString d.edges.length ++ " edges")
      Task.tellLine ("  AST written to " ++ output)
      return 0
    else return 1
  | check input json => do
    let input := Path.ofText (← Task.named input)
    if ← hasInput input then
      let code ← Task.readFile input
      let review := Check.review (.str code)
      if json then Task.printLine review.toJson.indented
      else if review.isValid then
        Task.printLine ("VALID (" ++ review.compatibility.name ++ " compatibility)")
      else
        Task.printLine "INVALID"
        review.issues.forM fun f =>
          Task.tellLine ("  line " ++ toString f.line ++ ": " ++ f.issue)
      return reviewCode review
    else return 1
  | draw input output name => do
    let input := Path.ofText (← Task.named input)
    if ← hasInput input then
      let d ← Task.ofExcept .record (← readRecord input).diagram
      let output := Path.ofText (← Task.named output)
      Task.makeFolder output.parent
      Task.writeFile output (← Task.ofExcept .drawing (d.drawing name s.stamp))
      Task.tellLine ("  Draw.io written to " ++ output.text)
      return 0
    else return 1
  | showRecord file => do
    let r ← readRecord (Path.verbatim file)
    Task.printLine r.toJson.indented
    return 0

/-- What a program for a single step does. -/
def Stage.run (s : Session) (program : Program) (args : List String) : Job Ending := do
  match Stage.read program s.manner args with
  | .error stop => return stop.ending
  | .ok none => return .usage 0
  | .ok (some stage) =>
    match ← (stage.perform s).run with
    | .ok code => return .exit code
    | .error p => return .stopped p

end Diagrams.CommandLine
