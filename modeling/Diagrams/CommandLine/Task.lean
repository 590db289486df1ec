import Diagrams.CommandLine.Grammar
import Diagrams.Conversion
import Diagrams.Diagram.Record
import Diagrams.Json.Reader
import Diagrams.Parse

/-!
# Tasks

* `Problem` — what can keep a command from its end, `Problem.told?` which of it is only told.
* `Task` — a job that may meet a problem.
* `Session` — where and when a command is carried out.
* `Ending` — how a command ends.
* `readInput`, `writeOutput` — reading and writing with a dash for the streams.
-/

namespace Diagrams.CommandLine

open Files

/-- What can keep a command from its end. -/
inductive Problem where
  /-- The input file is not there. -/
  | noInput (path : Path)
  /-- A file or folder cannot be used. -/
  | file (e : FileError)
  /-- The text is no diagram. -/
  | source (e : ParseError)
  /-- The text is no value. -/
  | value (e : Json.ReadError)
  /-- The value is no record of a diagram. -/
  | record (e : RecordError)
  /-- The diagram cannot be drawn. -/
  | drawing (e : DrawingError)
  /-- The diagram cannot be documented. -/
  | page (e : PageError)
  /-- A setting is wrong. -/
  | port (e : BadPort)
  /-- The settings file cannot be used. -/
  | settings (e : LoadError)
  /-- A file is asked for without a name. -/
  | unnamed
  deriving DecidableEq, Repr

/-- What is told about the problems that users are expected to meet. -/
def Problem.told? : Problem → Option String
  | noInput path => some ("File not found: " ++ path.text)
  | file e => e.message?
  | source e => some e.message
  | value _ | record _ | drawing _ | page _ | port _ | settings _ | unnamed => none

/-- A job that may meet a problem. -/
abbrev Task := ExceptT Problem Job

/-- Where and when a command is carried out, and by what means. -/
structure Session where
  /-- The path of the working folder. -/
  home : Path
  /-- The variables. -/
  env : Environment := []
  /-- The time and the random numbers. -/
  stamp : Drawio.Stamp
  /-- What reads settings files. -/
  reader : SettingsReader
  /-- The manner in which command lines are read. -/
  manner : Manner

/-- How a command ends. -/
inductive Ending where
  /-- With a note on how to use it. -/
  | usage (code : Nat)
  /-- With an exit code. -/
  | exit (code : Nat)
  /-- With a problem that is not told. -/
  | stopped (p : Problem)
  deriving DecidableEq, Repr

/-- How a command ends that is not carried out. -/
def Stop.ending : Stop → Ending
  | help => .usage 0
  | refused => .usage 2

namespace Task

variable {ε α : Type}

/-- A result or the problem that its error is. -/
def ofExcept (problem : ε → Problem) (r : Except ε α) : Task α :=
  Job.done (r.mapError problem)

/-- The text of a file, its line ends read as newlines. -/
def readFile (p : Path) : Task String :=
  Job.read p fun r => .done <|
    (r.mapError .file).map fun text => String.ofList (Text.readNewlines text.toList)

/-- The text of the input, its line ends read as newlines. -/
def readStream : Task String :=
  Job.input fun text => .done (.ok (String.ofList (Text.readNewlines text.toList)))

/-- What is at a path. -/
def look (p : Path) : Task (Option Kind) := Job.look p fun r => .done (r.mapError .file)

/-- The name of a file that is asked for. -/
def named : Option String → Task String
  | some file => pure file
  | none => throw .unnamed

/-- The path from the root. -/
def resolve (s : Session) (p : Path) : Task Path :=
  Job.resolve s.home p fun r => .done (r.mapError .file)

/-- Makes a folder and all folders above it, unless they are there. -/
def makeFolder (p : Path) : Task Unit := (Job.makeFolder p).bind fun r => .done (r.mapError .file)

/-- Writes a file in a folder that is there. -/
def writeFile (p : Path) (text : String) : Task Unit :=
  Job.write p text fun r => .done (r.mapError .file)

/-- Writes a file and makes its folder. -/
def saveFile (p : Path) (text : String) : Task Unit := do
  makeFolder p.parent
  writeFile p text

/-- Puts text on the output. -/
def print (text : String) : Task Unit := Job.print text (.done (.ok ()))

/-- Puts a line on the output. -/
def printLine (text : String) : Task Unit := print (text ++ "\n")

/-- Puts a line on the stream for messages. -/
def tellLine (text : String) : Task Unit := Job.tell (text ++ "\n") (.done (.ok ()))

end Task

/-- The word for the streams. -/
def stream : String := "-"

/-- The text of a file or of the input. -/
def readInput (s : Session) (file : String) : Task String :=
  if file = stream then Task.readStream
  else do
    let p := Path.ofText file
    match ← Task.look p with
    | none => throw (.noInput (← Task.resolve s p))
    | some _ => Task.readFile p

/-- The text with a newline at its end. -/
def closed (text : String) : String := if text.endsWith "\n" then text else text ++ "\n"

/-- Writes a text to a file, or to the output when no file or an empty name is given. -/
def writeOutput (text : String) (output : Option String) : Task (Option Path) :=
  match output with
  | none | some "" | some "-" => do
    Task.print (closed text)
    return none
  | some file => do
    let p := Path.ofText file
    Task.saveFile p text
    return some p

/-- The output for an input: a file in the working folder, or the output stream for the input
stream. -/
def defaultOutput (file suffix ending : String) : Option String :=
  if file = stream then none else some ((Path.ofText file).stem ++ suffix ++ "." ++ ending)

end Diagrams.CommandLine
