import Diagrams.Diagram
import Diagrams.Layout.Box

/-!
# The layout of a sequence diagram

* `Layout.sequence` — the participants side by side.
* `Layout.messageY` — the height of a message.
* `Layout.lifelineLength` — how long the lines below the participants are.
-/

namespace Diagrams.Layout

/-- The box of a participant by its place. -/
def participantBox (index : Nat) : Box := ⟨100 + index * 180, 40, 120, 40⟩

/-- The boxes of the participants of the given names, in their order from left to right. -/
def sequence (names : List String) : Table Box :=
  .ofList (names.zipIdx.map fun (name, i) => (name, participantBox i))

/-- The height of a message by its place. -/
def messageY (index : Int) : Int := 40 + 40 + (index + 1) * 60

/-- The length of the lines below the participants, enough for all messages. -/
def lifelineLength (messages : Int) : Int := (messages + 2) * 60

end Diagrams.Layout
