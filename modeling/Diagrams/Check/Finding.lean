import Diagrams.Diagram

/-!
# Findings

* `Issue`, `Remark` — what a check can object to, and what it can only advise against.
* `Finding` — an objection or a piece of advice at a line, in words.
* `Compatibility` — how well a text can be expected to convert.
* `Review` — the outcome of checking a text.
-/

namespace Diagrams

/-- What makes a text invalid. -/
inductive Issue where
  /-- The header names no kind of diagram. -/
  | noKind
  /-- A line holds more than one arrow. -/
  | chainedArrows
  /-- A node's name is no word. -/
  | invalidName (name : String)
  deriving DecidableEq, Repr

/-- What makes a text convert less well. -/
inductive Remark where
  /-- A flowchart's header gives no direction. -/
  | noDirection
  /-- A line gives styles. -/
  | styling
  deriving DecidableEq, Repr

/-- Something found at a line. -/
structure Finding where
  /-- The line, counted from one. -/
  line : Int
  /-- What was found. -/
  issue : String
  /-- What can be done about it. -/
  suggestion : String
  deriving DecidableEq, Repr

/-- An issue in words. -/
def Issue.at (line : Nat) : Issue → Finding
  | noKind =>
    ⟨line, "Missing or invalid diagram type declaration",
      "Start with flowchart TD, sequenceDiagram, etc."⟩
  | chainedArrows =>
    ⟨line, "Chained arrows detected", "Break into separate lines: A --> B and B --> C"⟩
  | invalidName name =>
    ⟨line, "Invalid node ID: " ++ name, "Use only alphanumeric characters and underscores"⟩

/-- A remark in words. -/
def Remark.at (line : Nat) : Remark → Finding
  | noDirection => ⟨line, "Direction not specified", "Add direction: TD, LR, RL, or BT"⟩
  | styling => ⟨line, "Styling directive found", "Styling may not convert cleanly to Draw.io"⟩

/-- How well a text can be expected to convert. -/
inductive Compatibility where
  | high
  | medium
  | low
  deriving DecidableEq, Repr

/-- A grade's word. -/
def Compatibility.word : Compatibility → String
  | high => "high"
  | medium => "medium"
  | low => "low"

instance : Vocabulary Compatibility where
  all := [.high, .medium, .low]
  name := Compatibility.word
  mem_all a := by cases a <;> decide
  name_injective a b h := by cases a <;> cases b <;> revert h <;> decide

/-- Issues make the grade low, and remarks alone make it medium. -/
def Compatibility.grade (issues warnings : List Finding) : Compatibility :=
  if issues ≠ [] then low else if warnings ≠ [] then medium else high

/-- The outcome of checking a text. -/
structure Review where
  /-- Whether there are no issues. -/
  isValid : Bool
  /-- How well the text can be expected to convert. -/
  compatibility : Term Compatibility
  /-- The issues found. -/
  issues : List Finding := []
  /-- The remarks found. -/
  warnings : List Finding := []
  /-- How many nodes the text has, when it can be read. -/
  nodeCount : Nat := 0
  /-- How many edges the text has, when it can be read. -/
  edgeCount : Nat := 0
  /-- The kind of diagram, when the text can be read. -/
  kind : Option (Term Dialect) := none
  deriving DecidableEq, Repr

/-- The record of a finding. -/
def Finding.toJson (f : Finding) : Json :=
  .obj [("line", .int f.line), ("issue", .str f.issue), ("suggestion", .str f.suggestion)]

/-- The record of a review; the kind of diagram is left out when it is not known. -/
def Review.toJson (r : Review) : Json :=
  .obj ([("isValid", .bool r.isValid), ("compatibility", .str r.compatibility.name),
      ("issues", .arr (r.issues.map Finding.toJson)),
      ("warnings", .arr (r.warnings.map Finding.toJson)),
      ("nodeCount", .int r.nodeCount), ("edgeCount", .int r.edgeCount)] ++
    match r.kind with
    | some kind => [("diagramType", .str kind.name)]
    | none => [])

end Diagrams
