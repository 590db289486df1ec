/-!
# Pages of text

A page is a list of blocks, and a block is a list of lines.

* `Block` — headings, lines, lists, tables and code.
* `Block.lines`, `Page.text` — the lines of a block and the text of a page.
* `cell` — text made fit for a table cell.
-/

namespace Diagrams

/-- A part of a page. -/
inductive Block where
  /-- A heading of a level from one. -/
  | heading (level : Nat) (text : String)
  /-- A line as it stands. -/
  | line (text : String)
  /-- An empty line. -/
  | blank
  /-- A line across the page. -/
  | rule
  /-- Items of a list with their depths. -/
  | items (entries : List (Nat × String))
  /-- A table: its header and its rows, all of them cells. -/
  | table (header : List String) (rows : List (List String))
  /-- Code in a fence with the name of its language. -/
  | code (language text : String)
  deriving DecidableEq, Repr

namespace Block

/-- A row of a table. -/
def row (cells : List String) : String := "| " ++ " | ".intercalate cells ++ " |"

/-- The line below a table's header: as many strokes for each cell as the cell is wide. -/
def ruleUnder (header : List String) : String :=
  "|" ++ "|".intercalate (header.map fun c => String.ofList (List.replicate (c.length + 2) '-')) ++
    "|"

/-- Three backticks. -/
def fence : String := "\x60\x60\x60"

/-- The lines of a block. -/
def lines : Block → List String
  | heading level text => [String.ofList (List.replicate level '#') ++ " " ++ text]
  | line text => [text]
  | blank => [""]
  | rule => ["---"]
  | items entries =>
    entries.map fun (depth, text) => String.ofList (List.replicate (2 * depth) ' ') ++ "- " ++ text
  | table header rows => row header :: ruleUnder header :: rows.map row
  | code language text => [fence ++ language, text, fence]

end Block

/-- A page. -/
abbrev Page := List Block

/-- The text of a page. No newline follows the last line. -/
def Page.text (page : Page) : String := "\n".intercalate (page.flatMap Block.lines)

namespace Page

/-- Text in a table cell: bars are escaped, and newlines become blanks. -/
def cell (text : String) : String :=
  String.ofList (text.toList.flatMap fun c =>
    if c = '|' then ['\\', '|'] else if c = '\n' then [' '] else [c])

/-- A text, or a dash when it is empty. -/
def orDash (text : String) : String := if text = "" then "-" else text

/-- Text set as code. -/
def quoted (text : String) : String := "\x60" ++ text ++ "\x60"

/-- A rule with a section's heading below it. -/
def chapter (title : String) : Page := [.rule, .blank, .heading 2 title, .blank]

/-- The section at the end of a page, with the source in it. -/
def source (title code : String) : Page := chapter title ++ [.code "mermaid" code, .blank]

/-- A named number in a list. -/
def count (name : String) (n : Nat) : Nat × String := (0, "**" ++ name ++ "**: " ++ toString n)

end Page

end Diagrams
