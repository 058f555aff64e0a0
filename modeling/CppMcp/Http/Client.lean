import CppMcp.Http.Parser
import CppMcp.Http.Sse

namespace CppMcp

/-- What `handle_response` does: its calls of the message and the error handler, and whether
    it opens the GET stream. -/
structure ResponseHandling where
  messages : List Json := []
  errors : List String := []
  opensStream : Bool := false

/-- The code of the error that stands for an HTTP failure. -/
def failureCode (status : Nat) : Int :=
  if status = 404 then Protocol.clientNotConnected
  else if status = 400 then Protocol.invalidRequest
  else if status = 429 then Protocol.requestFailed
  else Protocol.internalError

def failureText (status : Nat) : String :=
  "http server returned status " ++ toString status ++
    if status = 404 then " (session not found — reconnect required)" else ""

namespace JsonCodec

variable (codec : JsonCodec)

/-- The error response made of an HTTP failure; a body that parses becomes its data. -/
def failureMessage (r : ClientResponse) : Json :=
  let body := (codec.parse r.body).getD (.object [])
  makeErrorResponseNullId (failureCode r.status) (failureText r.status)
    (if body.isEmpty then none else some body)

def isEventStream (headers : Headers) : Bool :=
  (headers.valueOf "content-type").has "text/event-stream"

/-- `handle_response`. `attached` says that the transport has its handlers, `sseOpen` that the
    GET stream is open or about to be. -/
def handleResponse (attached sseOpen : Bool) (r : ClientResponse) : ResponseHandling :=
  let called (messages : List Json) := if attached then messages else []
  if r.status = 200 ∨ r.status = 202 then
    let opensStream := !sseOpen && !r.sessionId.isEmpty
    if isEventStream r.headers then
      { messages := called ((frameTexts r.body).filterMap codec.parse), opensStream }
    else if r.body.isEmpty then {}
    else
      match codec.parse r.body with
      | some message => { messages := called [message], opensStream }
      | none => { errors := ["http body parse error"] }
  else
    { messages := called [codec.failureMessage r]
      errors := ["http server returned status " ++ toString r.status] }

end JsonCodec

theorem failureCode_fits (status : Nat) :
    -2 ^ 31 ≤ failureCode status ∧ failureCode status < 2 ^ 31 := by
  unfold failureCode
  split
  · decide
  · split
    · decide
    · split <;> decide

end CppMcp
