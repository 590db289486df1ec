import Diagrams.Drawio.CellIds
import Diagrams.Drawio.Style
import Diagrams.Layout.Sequence

/-!
# Drawing sequence diagrams

* `participantCell`, `lifelineCell` — a participant, and the line below it.
* `messageCell` — a message between two lifelines, at the height that its place gives it.
* `sequenceCells`, `Diagram.sequenceCells` — the cells of a sequence diagram.
-/

namespace Diagrams

namespace Drawio

/-- Style text of a participant. -/
def participantStyle (isActor : Bool) : String :=
  if isActor then "shape=umlActor;verticalLabelPosition=bottom;verticalAlign=top;html=1;"
  else "rounded=0;whiteSpace=wrap;html=1;" ++ colors "#dae8fc" "#6c8ebf"

/-- Style text of a lifeline. -/
def lifelineStyle : String := "endArrow=none;dashed=1;html=1;strokeWidth=1;strokeColor=#999999;"

/-- The horizontal place of a participant's lifeline: the middle of its box. -/
def lifelineX (b : Box) : Rat := b.x + (b.width : Rat) / 2

/-- The cell of a participant, when it has a name and a box. -/
def participantCell (boxes : Table Box) (cellOf : Table String) (p : Element) :
    Option Cell := do
  let id ← cellOf.get? p.id
  let box ← boxes.get? p.id
  return .vertex { id, label := p.label, style := participantStyle p.isActor, box }

/-- The lifeline of a participant, when it has a box. -/
def lifelineCell (boxes : Table Box) (length : Int) (id : String) (p : Element) :
    Option Cell := do
  let b ← boxes.get? p.id
  let x := lifelineX b
  return .line {
    id, label := "", style := lifelineStyle
    ends := .points ⟨x, b.bottom⟩ ⟨x, (b.bottom + length : Int)⟩ }

/-- Whether both sides of a message have boxes. -/
def isDrawn (boxes : Table Box) (m : Message) : Bool :=
  boxes.contains m.source && boxes.contains m.target

/-- The cell of the message with the given place, when both of its sides have boxes. -/
def messageCell (boxes : Table Box) (id : String) (place : Nat) (m : Message) : Option Cell := do
  let source ← boxes.get? m.source
  let target ← boxes.get? m.target
  let y := Layout.messageY place
  return .line {
    id, label := m.text, style := messageStyle m.line m.isAsync
    ends := .points ⟨lifelineX source, y⟩ ⟨lifelineX target, y⟩ }

/-- The cells of participants, lifelines and messages. -/
def sequenceCells (parties : List Element) (messages : List Message) : List Cell :=
  let names := parties.map Element.id
  let boxes := Layout.sequence names
  let length := Layout.lifelineLength messages.length
  let messages := messages.zipIdx.filter fun m => isDrawn boxes m.1
  let (participantIds, ids) := CellIds.issueAll {} names
  let (lifelineIds, ids) := ids.issueAll (names.map (· ++ "_lifeline"))
  let (messageIds, _) := ids.issueAll (messages.map fun m => "msg" ++ toString m.2)
  let cellOf := Table.ofList (names.zip participantIds)
  parties.filterMap (participantCell boxes cellOf) ++
    (lifelineIds.zip parties).filterMap (fun (id, p) => lifelineCell boxes length id p) ++
    (messageIds.zip messages).filterMap fun (id, m, i) => messageCell boxes id i m

end Drawio

/-- The cells of a sequence diagram. -/
def Diagram.sequenceCells (d : Diagram) : List Drawio.Cell :=
  Drawio.sequenceCells d.parties d.messages

end Diagrams
