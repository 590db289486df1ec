import Diagrams.Text.Scan

/-!
# Code fences

Diagram text may come inside a fence of three backticks, with or without the name of a language.

* `stripFences` — the text inside, trimmed outside; other text is only trimmed.
* `isComment`, `isContent` — which lines count.
-/

namespace Diagrams.Source

open Text

/-- Three backticks. -/
def fence : List Char := ['\x60', '\x60', '\x60']

/-- The text after the opening line of a fence: the name of a language, blanks and the newline are
dropped. Text on the same line after a blank is kept. -/
def afterOpening (cs : List Char) : List Char :=
  let rest := (cs.dropWhile fun c => isWord c || c == '-').dropWhile fun c => c == ' ' || c == '\t'
  (after? ['\n'] rest).getD rest

/-- The text before the closing fence and the newline in front of it, when there is one. -/
def beforeClosing (cs : List Char) : List Char :=
  match before? fence cs with
  | some body => chomp body
  | none => cs

/-- The text inside a fence, or the trimmed text when it does not start with a fence. A missing
closing fence is no fault. -/
def stripFences (cs : List Char) : List Char :=
  match after? fence (trim cs) with
  | some rest => beforeClosing (afterOpening rest)
  | none => trim cs

/-- Whether the line is a comment. -/
def isComment (line : List Char) : Bool := startsWith ['%', '%'] (trim line)

/-- Whether the line is neither blank nor a comment. -/
def isContent (line : List Char) : Bool := trim line != [] && !isComment line

end Diagrams.Source
