import Diagrams.Service.Handlers

/-!
# Frameworks

A framework stands between the service and whoever asks: it reads what is sent along with a request
and puts answers into bytes.

* `Framework` — whatever does this. Of its encodings only the laws are known: a text can be put into
  bytes, and so can a value in which all numbers are of finite size.
* `Framework.answer` — the answer to a request. What cannot be put into bytes becomes an internal
  error, as every other failure inside does.
-/

namespace Diagrams.Service

/-- Whatever serves requests. -/
structure Framework where
  /-- What may be sent along with a request. -/
  Body : Type
  /-- What is read of it. -/
  receive : Body → Received
  /-- Whether a content can be put into bytes. -/
  canSend : Content → Bool
  /-- What is answered when the text of a diagram has half of a character in it. -/
  answerHalf : Route → Points → Response
  /-- Every text can be put into bytes. -/
  canSend_text : ∀ s, canSend (.text s) = true
  /-- Every value without infinite and undefined numbers can be put into bytes. -/
  canSend_value : ∀ {j : Json}, j.IsFinite → canSend (.value j) = true

namespace Framework

/-- What becomes of a response or a failure. -/
def close (F : Framework) (route : Route) : Except Failure Response → Response
  | .ok r => if F.canSend r.content then r else .internalError
  | .error (.refused status reason) => .refusal status reason
  | .error .failed => .internalError
  | .error (.half code) => F.answerHalf route code

/-- The answer to a request for a route. -/
def answer (F : Framework) (env : Environment) (stamp : Drawio.Stamp) (route : Route)
    (body : F.Body) : Response :=
  F.close route (route.handle env stamp (F.receive body))

end Framework

end Diagrams.Service
