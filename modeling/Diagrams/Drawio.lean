import Diagrams.Drawio.Entities
import Diagrams.Drawio.Flowchart
import Diagrams.Drawio.Mindmap
import Diagrams.Drawio.Sequence

/-!
# Diagrams as Draw.io documents

* `defaultTitle` — the title of a page that is given none.
* `Diagram.toDrawio` — the document that shows a diagram. Diagrams of unknown kind are drawn as
  flowcharts.
-/

namespace Diagrams

open Drawio

/-- The title of a page that is given none. -/
def defaultTitle : Term Dialect → String
  | .known .sequence => "Sequence Diagram"
  | .known .entityRelationship => "ER Diagram"
  | .known .mindmap => "Mindmap"
  | .known .flowchart | .other .. => "Converted Diagram"

/-- The document that shows a diagram. An empty title counts as none. -/
def Diagram.toDrawio (A : Number.Arithmetic) (d : Diagram) (title : Option String) (stamp : Stamp) :
    Except DrawingError Document := do
  let title := Xml.Value.text (orElse title (defaultTitle d.kind))
  match d.kind with
  | .known .sequence => return { title, stamp, cells := d.sequenceCells }
  | .known .entityRelationship =>
    let plan ← d.tablePlan.mapError .unsupported
    let size := pageSize plan.boxes.values 850 600
    return { title, stamp, width := size.1, height := size.2, view := (1200, 800),
             cells := plan.cells A }
  | .known .mindmap =>
    let boxes := d.mindmapLayout A
    let size := pageSize boxes.values 800 600
    return { title, stamp, width := size.1, height := size.2, view := (1200, 800),
             cells := ← (d.mindmapCells boxes).mapError .unsupported }
  | .known .flowchart | .other .. =>
    return { title, stamp, cells := ← (← d.chart A).cells A d.groups }

end Diagrams
