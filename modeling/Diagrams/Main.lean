import Diagrams.CommandLine.Perform
import Std.Time

/-!
# The program

`main` carries out a command line: jobs are performed on the disk and on the standard streams.
-/

namespace Diagrams.Main

open Files CommandLine

/-- Whether the number of a failure is that of an obstacle. The system gives it with either sign. -/
def hasNumber (code : UInt32) (o : Obstacle) : Bool :=
  match o.title? with
  | some (n, _) => code.toNat == n || (-code).toNat == n
  | none => false

/-- The obstacle that a failure of the system is; failures of other kinds are none. -/
def obstacleOf? : IO.Error → Option Obstacle
  | .noFileOrDirectory .. => some .missing
  | .alreadyExists .. => some .present
  | .inappropriateType _ code _ => some (if hasNumber code .notFolder then .notFolder else .isFolder)
  | .invalidArgument _ code _ => if hasNumber code .longName then some .longName else none
  | _ => none

/-- The result of an action on a path, or the obstacle that it met. -/
def attempt {α : Type} (p : Path) (action : IO α) : IO (Except FileError α) := do
  if p.hasNull then return .error ⟨.nullName, p⟩
  try return .ok (← action)
  catch e =>
    match obstacleOf? e with
    | some obstacle => return .error ⟨obstacle, p⟩
    | none => throw e

/-- What is at a path. -/
def kindOf (p : Path) : IO (Except FileError (Option Kind)) := do
  match ← attempt p (IO.FS.readFile p.text) with
  | .ok _ => return .ok (some .file)
  | .error ⟨.isFolder, _⟩ => return .ok (some .folder)
  | .error ⟨.longName, _⟩ => return .error ⟨.longName, p⟩
  | .error _ => return .ok none

/-- Performs a job. -/
def perform {α : Type} : Job α → IO α
  | .done result => return result
  | .look p next => do perform (next (← kindOf p))
  | .read p next => do perform (next (← attempt p (IO.FS.readFile p.text)))
  | .addFolder p next => do perform (next (← attempt p (IO.FS.createDir p.text)))
  | .write p text next => do perform (next (← attempt p (IO.FS.writeFile p.text text)))
  | .resolve home p next => do perform (next (← attempt p (return p.resolve home)))
  | .input next => do perform (next (← (← IO.getStdin).readToEnd))
  | .print text next => do
    (← IO.getStdout).putStr text
    perform next
  | .tell text next => do
    (← IO.getStderr).putStr text
    perform next

/-- The present moment. -/
def now : IO Drawio.Moment := do
  let t := Std.Time.PlainDateTime.ofWallTime ((← Std.Time.Timestamp.now).toWallTime .zero)
  return {
    year := t.date.year.toInt.toNat
    month := t.date.month.val.toNat
    day := t.date.day.val.toNat
    hour := t.time.hour.val.toNat
    minute := t.time.minute.val.toNat
    second := t.time.second.val.toNat
    microsecond := t.time.nanosecond.val.toNat / 1000 }

/-- The variables that settings are made from. -/
def environment : IO Environment := do
  let names := ["MERMAID_DIAGRAM_NAME", "MERMAID_SERVER_HOST", "MERMAID_SERVER_PORT"]
  let values ← names.mapM fun name => do return (← IO.getEnv name).map fun value => (name, value)
  return values.filterMap id

/-- The session in which the program runs. -/
def session : IO Session := do
  let picks ← (List.range 8).mapM fun _ => do return (← IO.rand 0 35 : Int)
  return {
    home := Path.ofText (toString (← IO.currentDir))
    env := ← environment
    stamp := { moment := ← now, picks }
    reader := .plain
    manner := .strict }

/-- Carries out a command line. -/
def run (args : List String) : IO UInt32 := do
  match ← perform (Command.run (← session) args) with
  | .exit code => return code.toUInt32
  | .usage code =>
    (← if code = 0 then IO.getStdout else IO.getStderr).putStrLn Command.usage
    return code.toUInt32
  | .stopped problem =>
    (← IO.getStderr).putStrLn (reprStr problem)
    return 1

end Diagrams.Main

/-- The program. -/
def main (args : List String) : IO UInt32 := Diagrams.Main.run args
