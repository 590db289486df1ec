import Diagrams.Diagram
import Diagrams.Page.Block

/-!
# The page of a sequence diagram

`Diagram.sequencePage` — tables of participants and messages, and how many messages each participant
sends and receives.
-/

namespace Diagrams

namespace Page

/-- The row of a participant. -/
def participantRow (p : Element) : List String :=
  [quoted p.id, cell p.label, if p.isActor then "Actor" else "Participant"]

/-- The kind of a message in words. -/
def messageTitle (m : Message) : String :=
  (if m.line = Term.known .dashed then "Response" else "Request") ++
    if m.isAsync then " (async)" else ""

/-- The row of the message with the given place. -/
def messageRow (place : Nat) (m : Message) : List String :=
  [toString (place + 1), quoted m.source, quoted m.target, cell m.text, messageTitle m]

/-- A counter for each of some names, all of them at zero in the beginning. Each mention of a name
adds one to its counter; a name without a counter is passed over. -/
def tally (names mentions : List String) : Table Nat :=
  mentions.foldl (fun counters name => counters.adjust name (· + 1))
    (Table.ofList (names.map fun n => (n, 0)))

/-- The row of a participant, with the counters of the messages that are sent and received. -/
def interactionRow (sent received : Table Nat) (p : Element) : List String :=
  [cell p.label, toString (sent.getD p.id 0), toString (received.getD p.id 0)]

/-- The section of the messages; without messages there is none. -/
def messageSection (messages : List Message) : Page :=
  if messages = [] then []
  else
    chapter "Message Sequence" ++
      [.table ["#", "From", "To", "Message", "Type"]
        (messages.zipIdx.map fun (m, i) => messageRow i m), .blank]

end Page

open Page in
/-- The page of a sequence diagram and its source. -/
def Diagram.sequencePage (d : Diagram) (code : String) : Page :=
  let participants := d.parties
  let sent := tally (participants.map Element.id) (d.messages.map Message.source)
  let received := tally (participants.map Element.id) (d.messages.map Message.target)
  [.heading 1 "Sequence Diagram Documentation", .blank, .heading 2 "Overview", .blank,
    .line ("This **Sequence Diagram** shows the interactions between " ++
      toString participants.length ++ " participant(s)."),
    .blank,
    .items [count "Participants" participants.length, count "Messages" d.messages.length],
    .blank] ++
    chapter "Participants" ++
    [.table ["ID", "Name", "Type"] (participants.map participantRow), .blank] ++
    messageSection d.messages ++
    chapter "Interaction Summary" ++
    [.table ["Participant", "Messages Sent", "Messages Received"]
      (participants.map (interactionRow sent received)), .blank] ++
    source "Original Mermaid Code" code

end Diagrams
