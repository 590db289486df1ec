import Diagrams.Check.Finding
import Diagrams.Parse

/-!
# Checking diagram text

* `Check.leadingName?` — the name at the start of a line that a shape or an arrow follows.
* `Check.lineIssues`, `Check.lineRemarks` — what is found on one line.
* `Check.review` — the outcome for a whole text.

Checking never fails. The findings come from the lines of the text alone, and the counts from
reading it, so text that cannot be read has none. A value that is no text is checked as empty text.
-/

namespace Diagrams.Check

open Text Source

/-- Whether a shape or the start of an arrow comes first in the text. -/
def markFollows (cs : List Char) : Bool :=
  cs.head?.any Flowchart.isOpening || startsWith ['-', '-'] cs || startsWith ['-', '.'] cs ||
    startsWith ['=', '='] cs

/-- The shortest start of the line, free of white space and opening brackets, that a shape or an
arrow follows, perhaps after white space. -/
def leadingName? : List Char → Option (List Char)
  | [] => none
  | c :: cs =>
    if isBlank c || Flowchart.isOpening c then none
    else if markFollows (trimLeft cs) then some [c]
    else (leadingName? cs).map (c :: ·)

/-- The starts of the lines that give styles. -/
def stylingWords : List (List Char) :=
  ["classDef".toList, "style ".toList, "linkStyle".toList]

/-- What is wrong with a trimmed line. Names are checked where `checkNames` says so. -/
def lineIssues (checkNames : Bool) (line : List Char) : List Issue :=
  (if 1 < occurrences ['-', '-', '>'] line then [.chainedArrows] else []) ++
    match if checkNames then leadingName? line else none with
    | some name => if name.all isWord then [] else [.invalidName (String.ofList name)]
    | none => []

/-- What is to be said about a trimmed line. -/
def lineRemarks (line : List Char) : List Remark :=
  if stylingWords.any fun w => startsWith w line then [.styling] else []

/-- The lines that count, trimmed, with their numbers from one. -/
def contentLines (lines : List (List Char)) : List (Nat × List Char) :=
  (lines.zipIdx.filter fun l => isContent l.1).map fun l => (l.2 + 1, trim l.1)

/-- The number and the text of the header; an empty first line when no line counts. -/
def headerOf (content : List (Nat × List Char)) : Nat × List Char := content.head?.getD (1, [])

/-- The issues of the header. -/
def headerIssues (header : List Char) : List Issue :=
  if Declared.ofLine? header = none then [.noKind] else []

/-- The remarks on the header. -/
def headerRemarks (header : List Char) : List Remark :=
  if Declared.ofLine? header = some .flowchart ∧ directionIn? header = none then [.noDirection]
  else []

/-- Whether names are checked below a header: only where nodes are written as in flowcharts. -/
def checksNames (header : List Char) : Bool :=
  match Declared.ofLine? header with
  | none | some .flowchart => true
  | some _ => false

/-- All issues of the lines of a text, those of the header first. -/
def issuesOf (lines : List (List Char)) : List Finding :=
  let content := contentLines lines
  let header := headerOf content
  (headerIssues header.2).map (Issue.at header.1) ++
    content.flatMap fun l =>
      (lineIssues (checksNames header.2 && l.1 != header.1) l.2).map (Issue.at l.1)

/-- All remarks on the lines of a text, those on the header's direction first. -/
def remarksOf (lines : List (List Char)) : List Finding :=
  let content := contentLines lines
  let header := headerOf content
  (headerRemarks header.2).map (Remark.at header.1) ++
    content.flatMap fun l => (lineRemarks l.2).map (Remark.at l.1)

/-- The outcome of checking a value. -/
def review (source : Json) : Review :=
  let lines := Text.lines <| match source with
    | .str code => stripFences code.toList
    | _ => []
  let issues := issuesOf lines
  let warnings := remarksOf lines
  let result : Review :=
    { isValid := issues.isEmpty, compatibility := .known (.grade issues warnings)
      issues, warnings }
  match Diagram.parseValue source with
  | .error _ => result
  | .ok d =>
    { result with nodeCount := d.nodes.length, edgeCount := d.edges.length, kind := some d.kind }

end Diagrams.Check
