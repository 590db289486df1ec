import Diagrams.CommandLine.Grammar

/-!
# Commands

* `Command` — the four commands of the converter, `Command.read` how they are written.
* `Stage` — the single steps, each a program of its own, `Stage.read` how they are written.

Where a file is expected, a dash stands for the input, and where an output is expected, for the
output.
-/

namespace Diagrams.CommandLine

/-- A command of the converter. -/
inductive Command where
  /-- Draws a diagram. -/
  | toDrawio (file : String) (output name : Option String) (quiet : Bool)
  /-- Documents a diagram. -/
  | toMarkdown (file : String) (output : Option String) (quiet : Bool)
  /-- Draws and documents a diagram, in a folder, which may be there without a name. -/
  | convert (file : String) (folder name : Option String) (quiet : Bool)
  /-- Checks a text. -/
  | validate (file : String) (output : Option String) (json quiet : Bool)
  deriving DecidableEq, Repr

/-- The option for an output. -/
def outputOption : Opt := { long := "output", short := some 'o', takesValue := true }

/-- The option for a title. -/
def nameOption : Opt := { long := "name", short := some 'n', takesValue := true }

/-- The option for silence. -/
def quietOption : Opt := { long := "quiet", short := some 'q' }

/-- The option for records as answers. -/
def jsonOption : Opt := { long := "json" }

/-- The option for an output folder. -/
def folderOption : Opt := { long := "output-dir", short := some 'd', takesValue := true }

/-- The option for an input. -/
def inputOption : Opt := { long := "input", short := some 'i', takesValue := true }

namespace Arguments

/-- The operand, which a grammar that asks for one makes sure of. -/
def file (a : Arguments) : String := a.operand.getD ""

/-- The value of an option. -/
def value? (a : Arguments) (o : Opt) : Option String := (a.values.get? o.long).join

/-- The value of an option that has a default. -/
def valueOr (a : Arguments) (o : Opt) (default : String) : Option String :=
  (a.values.get? o.long).getD (some default)

/-- Whether an option without a value is there. -/
def isSet (a : Arguments) (o : Opt) : Bool := a.flags.contains o.long

end Arguments

/-- The commands with their grammars. -/
def Command.table : Table (Grammar × (Arguments → Command)) := [
  ("to-drawio", { options := [outputOption, nameOption, quietOption], takesOperand := true },
    fun a => .toDrawio a.file (a.value? outputOption) (a.value? nameOption) (a.isSet quietOption)),
  ("to-markdown", { options := [outputOption, quietOption], takesOperand := true },
    fun a => .toMarkdown a.file (a.value? outputOption) (a.isSet quietOption)),
  ("convert", { options := [folderOption, nameOption, quietOption], takesOperand := true },
    fun a => .convert a.file (a.valueOr folderOption ".") (a.value? nameOption)
      (a.isSet quietOption)),
  ("validate", { options := [outputOption, jsonOption, quietOption], takesOperand := true },
    fun a => .validate a.file (a.value? outputOption) (a.isSet jsonOption) (a.isSet quietOption))]

/-- How the commands are written. -/
def Command.usage : String := "\n".intercalate [
  "usage: mermaid-convert to-drawio FILE [-o OUTPUT] [-n NAME] [-q]",
  "       mermaid-convert to-markdown FILE [-o OUTPUT] [-q]",
  "       mermaid-convert convert FILE [-d FOLDER] [-n NAME] [-q]",
  "       mermaid-convert validate FILE [-o OUTPUT] [--json] [-q]"]

/-- The command of a command line; none when nothing is named. -/
def Command.read (m : Manner) (args : List String) : Except Stop (Option Command) :=
  readCommand m table args

/-- A single step of a conversion. Files may be there without a name. -/
inductive Stage where
  /-- Reads a diagram and writes its record. -/
  | parse (input output : Option String)
  /-- Checks a text. -/
  | check (input : Option String) (json : Bool)
  /-- Reads the record of a diagram and draws it. -/
  | draw (input output name : Option String)
  /-- Reads the record of a diagram and shows it. -/
  | showRecord (file : String)
  deriving DecidableEq, Repr

namespace Stage

/-- The programs for single steps. -/
inductive Program where
  | parser
  | checker
  | drawer
  | records
  deriving DecidableEq, Repr

/-- The step that a program's command line asks for; none when it names nothing. -/
def read (program : Program) (m : Manner) (args : List String) : Except Stop (Option Stage) :=
  match program with
  | .parser => do
    let a ← Grammar.readAll
      { options := [inputOption, outputOption], required := ["input", "output"] } m args
    return some (.parse (a.value? inputOption) (a.value? outputOption))
  | .checker => do
    let a ← Grammar.readAll { options := [inputOption, jsonOption], required := ["input"] } m args
    return some (.check (a.value? inputOption) (a.isSet jsonOption))
  | .drawer => do
    let a ← Grammar.readAll
      { options := [inputOption, outputOption, nameOption], required := ["input", "output"] } m args
    return some (.draw (a.value? inputOption) (a.value? outputOption) (a.value? nameOption))
  | .records =>
    readCommand m [("show", { takesOperand := true }, fun a => .showRecord a.file)] args

end Stage

end Diagrams.CommandLine
