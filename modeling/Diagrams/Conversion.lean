import Diagrams.Drawio
import Diagrams.Page
import Diagrams.Settings

/-!
# Conversions

What every front end does with a diagram.

* `titleFor` — the title of a drawing: the one asked for, or the one that is set.
* `Diagram.drawing` — the text of the Draw.io document of a diagram, `Diagram.drawingUnder` — the
  same under a title that is no text.
* `Diagram.documentation` — the text of the page of a diagram.
-/

namespace Diagrams

/-- The title asked for, or the one that is set when none or an empty one is asked for. -/
def titleFor (env : Environment) : Option String → Except BadPort String
  | none | some "" => Settings.diagramName <$> Settings.ofEnvironment env
  | some title => .ok title

/-- The text of the document that shows a diagram. -/
def Diagram.drawing (d : Diagram) (title : Option String) (stamp : Drawio.Stamp) :
    Except DrawingError String :=
  Drawio.Document.text <$> d.toDrawio .binary64 title stamp

/-- The text of the document that shows a diagram, under a title that is no text. It is written as
it is shown. -/
def Diagram.drawingUnder (d : Diagram) (shown : String) (stamp : Drawio.Stamp) :
    Except DrawingError String := do
  let document ← d.toDrawio .binary64 none stamp
  return { document with title := .verbatim shown }.text

/-- The text of the page that documents a diagram with the given source. -/
def Diagram.documentation (d : Diagram) (code : String) : Except PageError String :=
  Page.text <$> d.page code

end Diagrams
