import Diagrams.Json.Reader
import Diagrams.Service.Framework
import Diagrams.Service.Schema
import Diagrams.Service.Target

/-!
# A plain server

* `Framework.plain` — a framework that reads what is sent along as a text.
* `Request`, `Service.respond` — what is asked of the server, and its answer.

The server knows the routes and their methods, and a description of itself. Strings with halves of
characters are none for it.
-/

namespace Diagrams.Service

/-! ## A plain framework -/

/-- The text that is sent along, without a mark of byte order at its start. Its bytes may show
another encoding than the usual one, which then counts; there is no text when it does not fit. -/
def bodyText? (body : Option String) : Option (List Char) :=
  match (body.getD "").toList with
  | '\uFEFF' :: cs => some cs
  | cs => Text.reread? cs

/-- What is read of a text that is sent along. -/
def receivePlain (body : Option String) : Received :=
  match bodyText? body with
  | none => .nothing
  | some cs =>
    match Json.read cs with
    | .ok j => .value (.ofJson j)
    | .error .half => .failed
    | .error _ => .nothing

/-- The framework that reads what is sent along as a text, and can send everything. -/
def Framework.plain : Framework where
  Body := Option String
  receive := receivePlain
  canSend _ := true
  answerHalf _ _ := .internalError
  canSend_text _ := rfl
  canSend_value _ := rfl

/-! ## The server -/

/-- What is asked. -/
structure Request where
  /-- The method. -/
  method : String
  /-- What is asked for, as a reference. -/
  target : String
  /-- The text that is sent along. -/
  body : Option String := none
  deriving DecidableEq, Repr

/-- The answer to a request by the right method for its route. The server describes itself; of the
pages that do so it offers only the head. -/
def answer (env : Environment) (stamp : Drawio.Stamp) (q : Request) : Route → Response
  | .schema => .ofValue schema
  | .console | .login | .reference =>
    if q.method = Route.headMethod then .ofText "text/html; charset=utf-8" "" else .notOffered
  | route => Framework.plain.answer env stamp route q.body

/-- The answer to a request. -/
def respond (env : Environment) (stamp : Drawio.Stamp) (q : Request) :
    Except TargetError Response := do
  let r := match Route.ofPath? (← Target.path q.target) with
    | none => .refusal 404 "Not Found"
    | some route =>
      if q.method ∈ route.methods then answer env stamp q route
      else .refusal 405 "Method Not Allowed"
  return if q.method = Route.headMethod then { r with content := .nothing } else r

end Diagrams.Service
