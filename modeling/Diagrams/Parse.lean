import Diagrams.Entities.Scan
import Diagrams.Flowchart.Scan
import Diagrams.Mindmap.Scan
import Diagrams.Sequence.Scan
import Diagrams.Source.Header

/-!
# Reading diagram text

* `ParseError` — the two reasons for which nothing can be read, with their messages.
* `Diagram.parse` — the diagram of a text.
* `Diagram.parseValue` — the same for any value, since only text can be read.

The first line that counts is the header. Lines after it that fit no construct of the dialect are
skipped, so reading fails only when no line counts. A header that names no dialect is followed by a
flowchart, and the diagram's metadata say what was declared.
-/

namespace Diagrams

/-- Why nothing can be read. -/
inductive ParseError where
  /-- The source is no text. -/
  | notText (kind : String)
  /-- No line counts. -/
  | empty
  deriving DecidableEq, Repr

/-- What is told about the error. -/
def ParseError.message : ParseError → String
  | notText kind => "Mermaid source must be text, got " ++ kind
  | empty => "Empty Mermaid diagram"

namespace Source

/-- The header and the lines after it, when any line counts. -/
def headerAndBody? (lines : List (List Char)) : Option (List Char × List (List Char)) :=
  match lines.dropWhile fun l => !isContent l with
  | [] => none
  | header :: body => some (header, body)

/-- The diagram that follows a header. -/
def readBody (header : List Char) (body : List (List Char)) : Diagram :=
  match Declared.ofLine? header with
  | some .sequence => Sequence.read body
  | some .entityRelationship => Entities.read body
  | some .mindmap => Mindmap.read body
  | some .flowchart => Flowchart.read (headerDirection header) body
  | some kind => { Flowchart.read .td body with metadata := declaredAs kind.word }
  | none => { Flowchart.read .td body with metadata := declaredAs "unknown" }
where
  /-- The remark that the header declared something else. -/
  declaredAs (word : String) : Json := .obj [("declared_type", .str word)]

end Source

/-- The diagram of a text. -/
def Diagram.parse (code : String) : Except ParseError Diagram :=
  match Source.headerAndBody? (Text.lines (Source.stripFences code.toList)) with
  | none => .error .empty
  | some (header, body) => .ok (Source.readBody header body)

/-- What is read from a text follows a header in it. -/
theorem Diagram.eq_readBody_of_parse {code : String} {d : Diagram}
    (h : Diagram.parse code = .ok d) :
    ∃ header body, Source.headerAndBody? (Text.lines (Source.stripFences code.toList)) =
      some (header, body) ∧ d = Source.readBody header body := by
  unfold Diagram.parse at h
  split at h
  · cases h
  · rename_i header body hbody
    exact ⟨header, body, hbody, (Except.ok.inj h).symm⟩

/-- The diagram of a value. -/
def Diagram.parseValue : Json → Except ParseError Diagram
  | .str code => Diagram.parse code
  | j => .error (.notText j.kindWord)

end Diagrams
