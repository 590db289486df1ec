import Diagrams.Check.Finding
import Diagrams.Page.Block
import Diagrams.Source.Fence

/-!
# The page of a review

`Review.page` — status, grade, checklist and tables of a review, and the text that was checked.
-/

namespace Diagrams

/-- A grade with its coloured mark. -/
def Compatibility.title : Compatibility → String
  | high => "🟢 High"
  | medium => "🟡 Medium"
  | low => "🔴 Low"

/-- The title of a grade; foreign words have none. -/
def gradeTitle : Term Compatibility → String
  | .known c => c.title
  | .other .. => "⚪ Unknown"

/-- A section with a table of findings. -/
def Finding.table (title column : String) (findings : List Finding) : Page :=
  if findings = [] then []
  else
    Page.chapter title ++
      [.table ["Line", column, "Suggestion"]
        (findings.map fun f => [toString f.line, Page.cell f.issue, Page.cell f.suggestion]),
       .blank]

/-- The checks and whether they passed. -/
def Review.checklist (r : Review) : List String :=
  if r.issues = [] ∧ r.warnings = [] then ["✅ All checks passed"]
  else
    [(if r.issues = [] then "✅" else "❌") ++ " Syntax validation",
     (if r.warnings = [] then "✅" else "⚠️") ++ " Best practices"]

/-- The page of a review of a text. -/
def Review.page (r : Review) (code : String) : Page :=
  [.heading 1 "Mermaid Validation Report", .blank, .heading 2 "Summary", .blank,
    .line ("**Status**: " ++ if r.isValid then "✅ Valid" else "❌ Invalid"),
    .line ("**Draw.io Compatibility**: " ++ gradeTitle r.compatibility), .blank] ++
  Page.chapter "Checklist" ++
  [.items (r.checklist.map fun c => (0, c)), .blank] ++
  Finding.table "Issues Found" "Issue" r.issues ++
  Finding.table "Warnings" "Warning" r.warnings ++
  Page.source "Original Code" (String.ofList (Source.stripFences code.toList))

end Diagrams
