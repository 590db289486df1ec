import Diagrams.Page.Entities
import Diagrams.Page.Flowchart
import Diagrams.Page.Mindmap
import Diagrams.Page.Sequence
import Diagrams.Source.Fence

/-!
# Pages of diagrams

`Diagram.page` — the page that documents a diagram. Diagrams of unknown kind are documented as
flowcharts.
-/

namespace Diagrams

/-- The page that documents a diagram and shows its source without the fence around it. -/
def Diagram.page (d : Diagram) (given : String) : Except PageError Page :=
  let code := String.ofList (Source.stripFences given.toList)
  match d.kind with
  | .known .sequence => .ok (d.sequencePage code)
  | .known .entityRelationship => (d.entityPage code).mapError .unsupported
  | .known .mindmap => d.mindmapPage code
  | .known .flowchart | .other .. => (d.flowchartPage code).mapError .unsupported

end Diagrams
