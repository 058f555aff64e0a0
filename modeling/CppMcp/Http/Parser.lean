import CppMcp.Http.Message
import CppMcp.Lib.Feed

namespace CppMcp

open Lib

/-- What llhttp calls back while it reads a message. -/
inductive Callback where
  | method (span : Bytes)
  | url (span : Bytes)
  | headerField (span : Bytes)
  | headerValue (span : Bytes)
  | headersComplete (statusCode : Nat)
  | body (span : Bytes)
  | messageComplete
deriving DecidableEq

def Callback.endsMessage : Callback → Bool
  | messageComplete => true
  | _ => false

def Callback.readsHeader : Callback → Bool
  | headerField _ | headerValue _ | headersComplete _ => true
  | _ => false

/-- Append a span, or fail when the whole grows past the limit. -/
def appendWithin (limit : Option Nat) (s span : Bytes) : Option Bytes :=
  if limit.any (· < s.length + span.length) then none else some (s ++ span)

/-- How a side reads headers: the server limits them, the client captures a session id. -/
structure HeaderRules where
  maxCount : Option Nat := none
  maxLine : Option Nat := none
  captures : Bool := false

/-- `current_header_field`, `current_header_value` and the headers flushed so far. -/
structure HeaderBuffer where
  field : Bytes := []
  value : Bytes := []
  headers : Headers := []
  sessionId : SessionId := []
deriving DecidableEq

namespace HeaderBuffer

variable (rules : HeaderRules)

/-- `flush_header`, which the server has inline. -/
def flush (b : HeaderBuffer) : HeaderBuffer :=
  if b.field.isEmpty then b
  else
    let name := lowerBytes b.field
    { headers := insertSorted name b.value b.headers
      sessionId :=
        if rules.captures && name == ascii "mcp-session-id" && !b.value.isEmpty then b.value
        else b.sessionId }

/-- `on_header_field`: a new field flushes the header before it. -/
def onField (b : HeaderBuffer) (span : Bytes) : Option HeaderBuffer :=
  let b := b.flush rules
  if rules.maxCount.any (· ≤ b.headers.length) then none
  else (appendWithin rules.maxLine b.field span).map fun field => { b with field }

/-- `on_header_value`. -/
def onValue (b : HeaderBuffer) (span : Bytes) : Option HeaderBuffer :=
  (appendWithin rules.maxLine b.value span).map fun value => { b with value }

end HeaderBuffer

structure ParserLimits where
  maxBodySize : Nat := 1024 * 1024
  maxHeaderCount : Nat := 100
  maxHeaderLineSize : Nat := 16 * 1024

def ParserLimits.rules (limits : ParserLimits) : HeaderRules :=
  ⟨some limits.maxHeaderCount, some limits.maxHeaderLineSize, false⟩

/-- The members of an `HttpConnection` that its parser writes. -/
structure HttpConnection where
  currentUrl : Bytes := []
  currentMethod : Bytes := []
  currentBody : Bytes := []
  header : HeaderBuffer := {}
  requestComplete : Bool := false
deriving DecidableEq

/-- The callbacks of `HttpConnection`; one that fails stops the parser. -/
def HttpConnection.on (limits : ParserLimits) (c : HttpConnection) :
    Callback → Option HttpConnection
  | .url span => (appendWithin (some limits.maxHeaderLineSize) c.currentUrl span).map
      fun currentUrl => { c with currentUrl }
  | .method span => (appendWithin none c.currentMethod span).map
      fun currentMethod => { c with currentMethod }
  | .body span => (appendWithin (some limits.maxBodySize) c.currentBody span).map
      fun currentBody => { c with currentBody }
  | .headerField span => (c.header.onField limits.rules span).map fun header => { c with header }
  | .headerValue span => (c.header.onValue limits.rules span).map fun header => { c with header }
  | .headersComplete _ => some { c with header := c.header.flush limits.rules }
  | .messageComplete => some { c with requestComplete := true }

/-- What reaches `handle_request` when the parser paused at a message. -/
def HttpConnection.take (c : HttpConnection) : Option HttpRequest :=
  if c.requestComplete && !c.currentMethod.isEmpty then
    some ⟨c.currentMethod, c.currentUrl, c.header.headers, c.currentBody⟩
  else none

/-- What `handle_response` reads of a response, and the session id captured by then. -/
structure ClientResponse where
  status : Nat
  headers : Headers
  body : Bytes
  sessionId : SessionId
deriving DecidableEq

/-- The members of an `HttpClientTransport` that its parser writes. -/
structure ResponseParser where
  header : HeaderBuffer := {}
  responseBody : Bytes := []
  responseStatus : Nat := 0
  messageComplete : Bool := false
deriving DecidableEq

def clientRules : HeaderRules := { captures := true }

/-- The callbacks of `init_parser`. -/
def ResponseParser.on (maxBodySize : Nat) (p : ResponseParser) : Callback → Option ResponseParser
  | .url _ | .method _ => some p
  | .headerField span => (p.header.onField clientRules span).map fun header => { p with header }
  | .headerValue span => (p.header.onValue clientRules span).map fun header => { p with header }
  | .headersComplete statusCode =>
    some { p with responseStatus := statusCode, header := p.header.flush clientRules }
  | .body span => (appendWithin (some maxBodySize) p.responseBody span).map
      fun responseBody => { p with responseBody }
  | .messageComplete => some { p with messageComplete := true }

def ResponseParser.take (p : ResponseParser) : Option ClientResponse :=
  if p.messageComplete then
    some ⟨p.responseStatus, p.header.headers, p.responseBody, p.header.sessionId⟩
  else none

/-- What `on_read` clears after a response: a field or value still being read stays. -/
def ResponseParser.reset (p : ResponseParser) : ResponseParser :=
  { header := { p.header with headers := [] } }

/-- How the handling of a message ends: the read loop goes on, asks for no further read, or
    is left by an exception. -/
inductive HandlerEnd where
  | continues
  | stops
  | throws
deriving DecidableEq

/-- The parser of one side. -/
structure ParserHooks (π μ : Type) where
  on : π → Callback → Option π
  take : π → Option μ
  reset : π → π

def serverHooks (limits : ParserLimits) : ParserHooks HttpConnection HttpRequest :=
  ⟨HttpConnection.on limits, HttpConnection.take, fun _ => {}⟩

def clientHooks (maxBodySize : Nat) : ParserHooks ResponseParser ClientResponse :=
  ⟨ResponseParser.on maxBodySize, ResponseParser.take, ResponseParser.reset⟩

/-- A read loop: no parser once it failed or was left, and `reading` while it asks for more
    (`active` on the server, not `stopping_` on the client). -/
structure ReadLoop (π τ μ : Type) where
  parser : Option π
  world : τ
  reading : Bool := true
  dispatched : List μ := []

def ReadLoop.stopped {π τ μ : Type} (s : ReadLoop π τ μ) : Bool := s.parser.isNone || !s.reading

namespace ParserHooks

variable {π τ μ : Type} (hooks : ParserHooks π μ) (handle : τ → μ → τ × HandlerEnd)

/-- What the loop does when the parser paused at a message. -/
def dispatch (s : ReadLoop π τ μ) (p : π) : ReadLoop π τ μ :=
  match hooks.take p with
  | none => { s with parser := some (hooks.reset p) }
  | some message =>
    let (world, ends) := handle s.world message
    { parser := if ends = .throws then none else some (hooks.reset p)
      world
      reading := s.reading && ends == .continues
      dispatched := s.dispatched ++ [message] }

def step (s : ReadLoop π τ μ) (callback : Callback) : ReadLoop π τ μ :=
  match s.parser with
  | none => s
  | some p =>
    match hooks.on p callback with
    | none => { s with parser := none }
    | some p =>
      if callback.endsMessage then hooks.dispatch handle s p else { s with parser := some p }

/-- The reads of a connection, each given by what llhttp calls back during it. -/
def receive (s : ReadLoop π τ μ) (reads : List (List Callback)) : ReadLoop π τ μ :=
  feed (hooks.step handle) ReadLoop.stopped s reads

end ParserHooks

end CppMcp
