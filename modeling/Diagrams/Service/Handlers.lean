import Diagrams.Check.Review
import Diagrams.Conversion
import Diagrams.Diagram.Record
import Diagrams.Layout
import Diagrams.Parse
import Diagrams.Service.Index
import Diagrams.Service.Route
import Diagrams.Service.Value

/-!
# What is done with requests

* `Received` — what is sent along with a request, once it is read.
* `Submission` — the text of a diagram in it, with a title.
* `Response` — what is answered, `Failure` — why there is no answer of the usual kind.
* `Route.handle` — what comes of a request for a route.

A request for a conversion is a record with the text in `code`. Whatever is wrong with it is refused
with the reason. A title that cannot be written, a wrong setting when no title is given, and a
flowchart that is too wide are failures. A string with halves of characters is no text that could be
read as a diagram; what becomes of it is not told here (`Failure.half`).
-/

namespace Diagrams.Service

/-! ## Answers -/

/-- What an answer holds. -/
inductive Content where
  | value (j : Json)
  | text (s : String)
  /-- Nothing, because only the head of the answer is asked for. -/
  | nothing
  deriving Repr

/-- What is answered. -/
structure Response where
  /-- The status. -/
  status : Nat := 200
  /-- The type of the content. -/
  contentType : String
  /-- The content. -/
  content : Content
  deriving Repr

namespace Response

/-- An answer that is a value. -/
def ofValue (j : Json) : Response := { contentType := "application/json", content := .value j }

/-- An answer that is a text of a type. -/
def ofText (contentType text : String) : Response := { contentType, content := .text text }

/-- An answer that gives the reason of a refusal. -/
def refusal (status : Nat) (reason : String) : Response :=
  { ofValue (.obj [("detail", .str reason)]) with status }

/-- The answer when something went wrong inside. -/
def internalError : Response :=
  { ofText "text/plain; charset=utf-8" "Internal Server Error" with status := 500 }

/-- The answer to what is not offered. -/
def notOffered : Response :=
  { ofText "text/plain; charset=utf-8" "Not Implemented" with status := 501 }

end Response

/-- Why a request gets no answer of the usual kind. -/
inductive Failure where
  /-- It is refused. -/
  | refused (status : Nat) (reason : String)
  /-- Something goes wrong inside. -/
  | failed
  /-- The text of the diagram has half of a character in it. -/
  | half (code : Points)
  deriving DecidableEq, Repr

/-! ## Submissions -/

/-- What is sent along with a request. -/
inductive Received where
  | value (v : Value)
  /-- It is no value. -/
  | nothing
  /-- Reading it goes wrong. -/
  | failed
  deriving Repr

/-- The diagram in a request, with a title. -/
structure Submission where
  /-- The text of the diagram. -/
  code : String
  /-- The title, as it was sent. -/
  title : Value
  deriving Repr

namespace Submission

/-- The submission in what was received. -/
def ofReceived : Received → Except Failure Submission
  | .failed => .error .failed
  | .nothing => .error (.refused 400 "Request body must be JSON")
  | .value (.obj fields) =>
    match Value.get? fields "code" with
    | some (.str points) =>
      if points = [] then .error (.refused 400 "code is required")
      else
        match points.text? with
        | some code => .ok ⟨code, (Value.get? fields "name").getD .null⟩
        | none => .error (.half points)
    | _ => .error (.refused 400 "code is required")
  | .value _ => .error (.refused 400 "Request body must be a JSON object")

/-- The diagram of a submission, or the refusal. -/
def diagram (s : Submission) : Except Failure Diagram :=
  (Diagram.parse s.code).mapError fun e => .refused 400 e.message

/-- Whether a string is one of the characters that titles are not written with. -/
def isEscape (ps : Points) : Bool := Xml.escapes.any fun c => ps == [.char c]

/-- Whether a value that is no string can be a title: a list or a record that has none of the
characters with an escape as an item or a name. -/
def isTitle : Value → Bool
  | .arr items => !items.any fun
    | .str ps => isEscape ps
    | _ => false
  | .obj fields => !fields.any fun f => isEscape f.1
  | _ => false

/-- The drawing of a diagram under the submitted title. One that counts as absent is replaced by the
one that is set. No document with half of a character in its title can be answered. -/
def drawing (s : Submission) (d : Diagram) (env : Environment) (stamp : Drawio.Stamp) :
    Except Failure String :=
  match s.title with
  | .str points =>
    match points.text? with
    | some title => under (some title)
    | none => .error .failed
  | v =>
    if v.isEmpty then under none
    else if isTitle v then (d.drawingUnder v.displayed stamp).mapError fun _ => .failed
    else .error .failed
where
  /-- The drawing under a title that is a text, or under the one that is set. -/
  under (title : Option String) : Except Failure String := do
    let title ← (titleFor env title).mapError fun _ => .failed
    (d.drawing (some title) stamp).mapError fun _ => .failed

end Submission

/-! ## Routes -/

/-- The boxes of the parts of a diagram as a record. -/
def positions (boxes : Table Box) : Json := .obj (boxes.map fun b => (b.1, b.2.toJson))

/-- The diagram as a record, and the boxes of its parts. -/
def parsed (r : Received) : Except Failure Response := do
  let d ← (← Submission.ofReceived r).diagram
  let boxes ← (d.layout .binary64).mapError fun _ => .failed
  return .ofValue (.obj [("diagram", d.toJson), ("positions", positions boxes)])

/-- The review of a text. -/
def validated (r : Received) : Except Failure Response := do
  let s ← Submission.ofReceived r
  return .ofValue (Check.review (.str s.code)).toJson

/-- The drawing of a diagram. -/
def drawn (env : Environment) (stamp : Drawio.Stamp) (r : Received) :
    Except Failure Response := do
  let s ← Submission.ofReceived r
  let d ← s.diagram
  return .ofText "application/xml" (← s.drawing d env stamp)

/-- The page of a diagram. -/
def documented (r : Received) : Except Failure Response := do
  let s ← Submission.ofReceived r
  let d ← s.diagram
  let text ← (d.documentation s.code).mapError fun _ => .failed
  return .ofText "text/markdown; charset=utf-8" text

/-- The page of a diagram as it would be shown; this needs a renderer, which is not offered. -/
def previewed (r : Received) : Except Failure Response := do
  let _ ← (← Submission.ofReceived r).diagram
  return .notOffered

/-- What comes of a request for a route. Of the pages that describe the service only the head is
offered. -/
def Route.handle (env : Environment) (stamp : Drawio.Stamp) (r : Received) :
    Route → Except Failure Response
  | index => .ok (.ofText "text/html; charset=utf-8" indexPage)
  | health => .ok (.ofValue (.obj [("status", .str "ok")]))
  | parse => parsed r
  | validate => validated r
  | drawio => drawn env stamp r
  | markdown => documented r
  | preview => previewed r
  | schema | console | login | reference => .ok .notOffered

end Diagrams.Service
