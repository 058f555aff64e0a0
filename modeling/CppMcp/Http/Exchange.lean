import CppMcp.Client.Errored
import CppMcp.Client.Outgoing
import CppMcp.Http.Client
import CppMcp.Http.Post
import CppMcp.JsonRpc.Reread
import CppMcp.Server.History

namespace CppMcp

open Lib

variable {υ : Type}

/-- Both ends of an HTTP connection, with the JSON library they share. A text that was dumped
    is read back as `Json.reread` says. -/
structure ExchangeEnv (υ : Type) where
  client : ClientEnv := {}
  info : ServerInfo := {}
  config : HttpTransportConfig := {}
  codec : JsonCodec
  rereads : ∀ j j', codec.parse (codec.dump j) = some j' → j' = j.reread

/-- The server's end: an `HttpTransport` with an `McpServer` as its message handler. -/
def ExchangeEnv.http (env : ExchangeEnv υ) : HttpEnv (Server υ) where
  config := env.config
  parse body := match env.codec.parse body with
    | some j => .value j
    | none => .parseError
  dump := env.codec.dump
  messageHandler := some (serverHandler env.info)

/-- `build_post_request`, as the parser hands it to the server. -/
def ExchangeEnv.postRequest (env : ExchangeEnv υ) (sessionId : SessionId) (message : Json) :
    HttpRequest where
  method := ascii "POST"
  url := env.config.path
  headers := [(ascii "accept", ascii "application/json, text/event-stream"),
    (ascii "content-type", applicationJson), (ascii "mcp-session-id", sessionId)]
  body := env.codec.dump message

/-- A client and a server with everything in flight between them. A message that is lost is
    one that no step takes. `downlink` says of each response whether it came back for an answer
    of the client's, `origins` the same of the messages on the client's strand; `refusals` are
    the requests that `handle_post` itself answers with an error. -/
structure Exchange (υ : Type) where
  client : Client
  server : HttpTransport (Server υ)
  uplink : List Json := []
  downlink : List (HttpResponse × Bool) := []
  pushes : List Json := []
  origins : List Bool := []
  refusals : List RequestId := []

/-- What can happen next. `serves` is a step of the server on its own, `notifies` a
    notification it sends; messages in flight are taken in any order. -/
inductive ExchangeEvent (υ : Type) where
  | client (event : ClientEvent)
  | handles (place : Nat) (newId sessionId : SessionId)
  | serves (event : ServerEvent υ)
  | notifies (notif : JsonRpcNotification)
  | receives (place : Nat) (attached sseOpen : Bool)
  | pushed (place : Nat)

def Task.message? : Task → Option Json
  | .message m => some m
  | _ => none

/-- The messages that wait on the strand. -/
def Client.messages (c : Client) : List Json := c.strand.filterMap Task.message?

def HttpWrite.response? : HttpWrite → Option HttpResponse
  | .response r => some r
  | .stream _ _ => none

/-- The response as the client's parser hands it to `handle_response`. -/
def HttpResponse.received (r : HttpResponse) : ClientResponse where
  status := r.status
  headers := [(ascii "content-type", r.contentType)]
  body := r.body
  sessionId := (r.extraHeaders.lookup (ascii "mcp-session-id")).getD []


/-- The requests among the messages posted that the parser of `handle_post` rejects. -/
def ExchangeEnv.refused (env : ExchangeEnv υ) (message : Json) : List RequestId :=
  match (env.codec.parse (env.codec.dump message)).map parseMessage with
  | some (.error resp) => if message.contains "method" then [resp.id] else []
  | _ => []

/-- Messages are posted onto the client's strand, all of one origin. -/
def Exchange.deliver (x : Exchange υ) (answering : Bool) (messages : List Json) : Exchange υ :=
  { x with
    client := { x.client with strand := x.client.strand ++ messages.map .message }
    origins := x.origins ++ messages.map fun _ => answering }

/-- The client takes a step, and what it sends is in flight. -/
def Exchange.after (x : Exchange υ) (event : ClientEvent) (c : Client) : Exchange υ :=
  { x with
    client := c
    uplink := x.uplink ++ c.sent.drop x.client.sent.length
    origins := if event = .runTask ∧ (x.client.strand.head?.bind Task.message?).isSome
      then x.origins.tail else x.origins }

/-- The server takes a message that the client posted. -/
def Exchange.handle (env : ExchangeEnv υ) (x : Exchange υ) (message : Json)
    (newId sessionId : SessionId) : Exchange υ :=
  let handled := env.http.handlePost x.server newId (env.postRequest sessionId message)
  { x with
    server := handled.transport
    downlink := x.downlink ++
      (handled.written.filterMap HttpWrite.response?).map fun r => (r, !message.contains "method")
    pushes := x.pushes ++ handled.pushed.map Prod.snd
    refusals := x.refusals ++ env.refused message }

/-- The server takes a step of its own; the response to a deferred request goes out. -/
def Exchange.serve (env : ExchangeEnv υ) (x : Exchange υ) (event : ServerEvent υ)
    (s : Server υ) : Exchange υ :=
  { x with
    server := { x.server with world := s }
    downlink := x.downlink ++
      (x.server.world.answered s).map fun answer => (env.http.jsonResponse 200 answer, false)
    pushes := x.pushes ++ x.server.world.asked s event }

def Exchange.step (env : ExchangeEnv υ) (x : Exchange υ) : ExchangeEvent υ → Option (Exchange υ)
  | .client (.arrives _) => none
  | .client event => (x.client.step env.client event).map (x.after event)
  | .handles place newId sessionId =>
    match x.uplink[place]? with
    | some message =>
      if x.server.world.stopping then none
      else some ({ x with uplink := x.uplink.eraseIdx place }.handle env message newId sessionId)
    | none => none
  | .serves (.arrives _ _ _) => none
  | .serves event => (x.server.world.step env.info event).map (x.serve env event)
  | .notifies notif => some { x with pushes := x.pushes ++ [serializeNotification notif] }
  | .receives place attached sseOpen =>
    match x.downlink[place]? with
    | some (r, answering) =>
      some ({ x with downlink := x.downlink.eraseIdx place }.deliver answering
        (env.codec.handleResponse attached sseOpen r.received).messages)
    | none => none
  | .pushed place =>
    match x.pushes[place]? with
    | some message =>
      some ({ x with pushes := x.pushes.eraseIdx place }.deliver false
        (env.codec.parse (env.codec.dump message)).toList)
    | none => none

def Exchange.initial (user : υ) : Exchange υ where
  client := Client.initial true
  server := { world := Server.initial user }

/-- The requests the server's end has answered with an error: those that `handle_post` rejects,
    and those to which the server's answer reads as an error. -/
def Exchange.Refused (x : Exchange υ) (id : RequestId) : Prop :=
  id ∈ x.refusals ∨ ∃ sink raw req response resp,
    x.server.world.arrivals[sink]? = some raw ∧ parseMessage raw = .request req ∧ req.id = id ∧
      (sink, response) ∈ x.server.world.answers ∧
      parseMessageClient response.reread = .error resp ∧ resp.id = id

/-- The message is a response that carries the key of a request the client has stored. -/
def Client.answersStored (c : Client) (message : Json) : Bool :=
  match parseMessageClient message with
  | .success resp => (c.pendingMap.lookup resp.id).isSome
  | .error resp => (c.pendingMap.lookup resp.id).isSome
  | _ => false

/-- The client is about to handle what came back for an answer of its own, and this carries
    the key of a request of its own. -/
def Exchange.crosses (x : Exchange υ) : ExchangeEvent υ → Bool
  | .client .runTask =>
    match x.client.strand with
    | .message message :: _ => x.origins.head? == some true && x.client.answersStored message
    | _ => false
  | _ => false

/-- The client is about to refuse the result of an `initialize` request. -/
def Exchange.refusesHandshake (x : Exchange υ) : ExchangeEvent υ → Bool
  | .client .runTask =>
    match x.client.strand with
    | .message message :: _ => x.client.refusesMessage message
    | _ => false
  | _ => false

def ExchangeEvent.keepsTokensApart : ExchangeEvent υ → Bool
  | .client event => event.keepsTokensApart
  | _ => true

/-- A step that neither crosses the two id spaces, nor takes an integer token of the user's,
    nor refuses the server's side of the handshake. -/
def Exchange.Orderly (x : Exchange υ) (event : ExchangeEvent υ) : Prop :=
  event.keepsTokensApart = true ∧ x.crosses event = false ∧ x.refusesHandshake event = false

instance (x : Exchange υ) (event : ExchangeEvent υ) : Decidable (x.Orderly event) :=
  inferInstanceAs (Decidable (_ ∧ _ ∧ _))

/-- The steps that make an answer to a request of the server's, carry it over, and take what
    the server sends back for it. -/
def Exchange.concernsAnswer (x : Exchange υ) : ExchangeEvent υ → Bool
  | .client (.runJob _) => true
  | .client .runTask =>
    match x.client.strand with
    | .send _ :: _ => true
    | .message message :: _ =>
      match parseMessageClient message with
      | .request _ => true
      | _ => x.origins.head? == some true
    | _ => false
  | .handles place _ _ => x.uplink[place]?.any fun message => !message.contains "method"
  | .receives place _ _ => x.downlink[place]?.any Prod.snd
  | _ => false

end CppMcp
