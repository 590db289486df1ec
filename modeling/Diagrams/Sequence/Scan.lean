import Diagrams.Diagram
import Diagrams.Sequence.Line
import Diagrams.Source.Fence

/-!
# Reading a sequence diagram

* `Sequence.Scan` — the participants by name and the messages after some lines.
* `Sequence.edgesOf` — the edges that stand for the messages.
* `Sequence.read` — the diagram of the lines after the header.

A participant takes its place with its first mention, as an endpoint of a message or in a
declaration, and its label from its last declaration.
-/

namespace Diagrams.Sequence

open Source

/-- What is known after some lines. -/
structure Scan where
  /-- The participants in the order of their first mention. -/
  participants : Table Participant := []
  /-- The messages. -/
  messages : List Message := []
  deriving DecidableEq, Repr

namespace Scan

/-- A participant is mentioned in a message. -/
def mention (s : Scan) (id : String) : Scan :=
  { s with participants := s.participants.insertNew id ⟨id, id, false⟩ }

/-- What is known after one more thing has been said. -/
def step (s : Scan) : Line → Scan
  | .declaration isActor id label =>
    { s with participants := s.participants.insert id ⟨id, label, isActor⟩ }
  | .message source arrow target text =>
    let s := (s.mention source).mention target
    let message : Message :=
      { source, target, text
        line := if arrow.dashed then LinePattern.dashed else LinePattern.solid
        isAsync := arrow.async }
    { s with messages := s.messages ++ [message] }
  | .ignored => s

/-- What is known after one more line. -/
def feed (s : Scan) (line : List Char) : Scan := s.step (.ofText line)

end Scan

/-- The edges that stand for messages, numbered from one. -/
def edgesOf (messages : List Message) : List Edge :=
  messages.zipIdx.map fun (m, i) =>
    { id := "e" ++ toString (i + 1), source := m.source, target := m.target, label := m.text,
      arrow := some { line := m.line } }

/-- The diagram of the lines after the header. -/
def read (lines : List (List Char)) : Diagram :=
  let s := ((lines.filter isContent).map Text.trim).foldl Scan.feed {}
  let participants := s.participants.values
  { kind := Dialect.sequence, direction := none
    nodes := participants.map .participant, edges := (edgesOf s.messages).map .edge
    participants, messages := s.messages }

end Diagrams.Sequence
