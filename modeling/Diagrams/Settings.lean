import Diagrams.Files.Job
import Diagrams.Table
import Diagrams.Text.Blank
import Diagrams.Text.Digit

/-!
# Settings

* `Settings`, `Settings.ofEnvironment` — what can be set, and the settings that the environment
  makes.
* `SettingsReader` — whatever adds the variables of a settings file to an environment.
* `SettingsReader.plain` — the reader of files that hold a variable a line.
* `loadEnvironment` — the environment with the nearest settings file, `LoadError` — why there is
  none.

Everything has a default. Only the port can be wrong: a text of digits that denotes no number.
-/

namespace Diagrams

/-- What can be set. -/
structure Settings where
  /-- The title of a diagram that is given none. -/
  diagramName : String := "Converted Diagram"
  /-- Where the service listens. -/
  host : String := "127.0.0.1"
  /-- The port at which it listens. -/
  port : Nat := 8000
  deriving DecidableEq, Repr

/-- Variables with their values. -/
abbrev Environment := Table String

/-- A port of digits that denotes no number. -/
structure BadPort where
  /-- The text. -/
  text : String
  deriving DecidableEq, Repr

namespace Settings

/-- The most digits that a number may have. -/
def maxDigits : Nat := 4300

/-- The value of a variable, or a default when it is missing or empty. -/
def valueOr (env : Environment) (name default : String) : String :=
  match env.get? name with
  | none | some "" => default
  | some v => v

/-- The port. Text that is not made of digits is passed over. Digits denote a number only when they
are decimal digits, and not too many of them. -/
def portOf (text : String) : Except BadPort Nat :=
  let digits := text.toList
  if digits = [] ∨ !digits.all Text.isDigit then .ok ({} : Settings).port
  else if maxDigits < digits.length then .error ⟨text⟩
  else
    match Text.decimalValue? digits with
    | some n => .ok n
    | none => .error ⟨text⟩

/-- The settings that the environment makes. -/
def ofEnvironment (env : Environment) : Except BadPort Settings := do
  let port ← portOf (env.getD "MERMAID_SERVER_PORT" "")
  let usual : Settings := {}
  return {
    diagramName := valueOr env "MERMAID_DIAGRAM_NAME" usual.diagramName
    host := valueOr env "MERMAID_SERVER_HOST" usual.host
    port }

end Settings

/-! ### Settings files -/

open Files

/-- Whatever reads settings files. It is given what comes of reading the file, and the variables
that are set already. -/
structure SettingsReader where
  /-- What is told on the way, and the environment with the variables of the file, or the reason why
  there is none. -/
  load : Except FileError String → Environment → String × Except String Environment
  /-- A variable that is set keeps its value, even an empty one. -/
  keeps : ∀ {file env messages loaded}, load file env = (messages, .ok loaded) →
    ∀ {name value}, env.get? name = some value → loaded.get? name = some value

namespace Environment

/-- The variable that a line of a settings file sets. Empty lines and comments set none. -/
def ofLine? (line : List Char) : Option (String × String) :=
  let line := Text.trim line
  match line with
  | [] | '#' :: _ => none
  | _ =>
    match line.dropWhile (· != '=') with
    | [] => none
    | _ :: value =>
      some (String.ofList (Text.trim (line.takeWhile (· != '='))),
        String.ofList (Text.trim value))

/-- The variables of a settings file, later lines winning. -/
def ofFile (text : String) : Environment :=
  .ofList ((Text.lines (Text.readNewlines text.toList)).filterMap ofLine?)

/-- The environment with the variables that it does not have yet. -/
def extend (env additions : Environment) : Environment :=
  additions.foldl (fun env v => env.insertNew v.1 v.2) env

/-- Whether a name or a value can be set. The null character ends a text that is set, so none may
hold it. -/
def isSettable (s : String) : Bool := !s.contains '\x00'

/-- The first variable that the environment does not have yet and that cannot be set. -/
def unsettable? (env additions : Environment) : Option String :=
  (additions.find? fun v => !env.contains v.1 && !(isSettable v.1 && isSettable v.2)).map (·.1)

/-- A variable that is set keeps its value. -/
theorem get?_extend {env : Environment} (additions : Environment) {name value : String}
    (h : env.get? name = some value) : (env.extend additions).get? name = some value := by
  unfold extend
  refine List.foldlRecOn (motive := fun t : Environment => t.get? name = some value) additions _ h ?_
  intro t ht v _
  rw [Table.get?_insertNew, ht]
  rfl

end Environment

namespace SettingsReader

/-- The environment with the variables of a file that holds one a line, each value up to the end of
its line. Quotes and references mean nothing. A file that cannot be read adds nothing. -/
def addPlain (file : Except FileError String) (env : Environment) : Except String Environment :=
  match file with
  | .error _ => .ok env
  | .ok text =>
    let additions := Environment.ofFile text
    match env.unsettable? additions with
    | some name => .error name
    | none => .ok (env.extend additions)

/-- The reader of such files. It tells nothing. -/
def plain : SettingsReader where
  load file env := ("", addPlain file env)
  keeps := by
    intro file env messages loaded h name value hvalue
    obtain ⟨-, h⟩ := Prod.mk.inj h
    unfold addPlain at h
    split at h
    · cases h
      exact hvalue
    · dsimp only at h
      split at h
      · cases h
      · cases h
        exact Environment.get?_extend _ hvalue

end SettingsReader

/-- The name of settings files. -/
def settingsFile : String := ".env"

/-- Why a settings file cannot be used. -/
inductive LoadError where
  /-- Its path cannot be asked for. -/
  | file (e : FileError)
  /-- It is not read, for the given reason. -/
  | unread (reason : String)
  deriving DecidableEq, Repr

/-- The first of the paths at which something is. -/
def firstPresent : List Path → Job (Except FileError (Option Path))
  | [] => .done (.ok none)
  | p :: rest => .look p fun
    | .ok (some _) => .done (.ok (some p))
    | .ok none => firstPresent rest
    | .error e => .done (.error e)

/-- The settings file nearest to a folder: in the folder itself or in one above it. -/
def nearestSettings (home folder : Path) : Job (Except FileError (Option Path)) :=
  firstPresent ((Path.andAbove home folder).map fun p => p.within settingsFile)

/-- What is done with a settings file: its variables are added, and what there is to tell about them
is told. -/
def addSettings (reader : SettingsReader) (env : Environment) (p : Path)
    (file : Except FileError String) : Job (Except LoadError (Option Path × Environment)) :=
  let (messages, loaded) := reader.load file env
  .tell messages (.done ((loaded.mapError .unread).map fun env => (some p, env)))

/-- The path of the nearest settings file, and the environment with its variables. -/
def loadEnvironment (reader : SettingsReader) (home folder : Path) (env : Environment) :
    Job (Except LoadError (Option Path × Environment)) := do
  match ← nearestSettings home folder with
  | .error e => return .error (.file e)
  | .ok none => return .ok (none, env)
  | .ok (some p) => .read p (addSettings reader env p)

end Diagrams
