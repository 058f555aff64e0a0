import Mathlib.Logic.Function.Basic
import CppMcp.Peers.Tokens
import CppMcp.Server.Context
import CppMcp.Server.History

namespace CppMcp

open Lib

variable {υ : Type}

/-- Clients and a server on a transport that brings each message to its peer. A client goes by
    the id of its session; on a transport without sessions the only one has the empty id. -/
structure PeersEnv where
  client : SessionId → ClientEnv := fun _ => {}
  info : ServerInfo := {}

/-- A call of `report_progress` on the context of a request. -/
structure ProgressReport where
  context : RequestContext
  progress : Double
  total : Option Double
deriving DecidableEq

def ProgressReport.notification (report : ProgressReport) : Json :=
  serializeNotification ⟨Protocol.notifProgress,
    some (progressParams report.context.progressToken report.progress report.total)⟩

/-- The peers with all that is in flight between them. A message that is lost is one that no
    step takes. `sinks` holds the sessions of the server's arrivals, and `reports` is a ghost. -/
structure Peers (υ : Type) where
  clients : SessionId → Client := fun _ => Client.initial true
  server : Server υ
  sinks : List SessionId := []
  uplink : List (SessionId × Json) := []
  downlink : List (SessionId × Json) := []
  reports : List ProgressReport := []

/-- What can happen next. A handler `reports` on the request that arrived at a sink, and the
    server `notifies` a client of anything else; messages in flight are taken in any order. -/
inductive PeersEvent (υ : Type) where
  | client (id : SessionId) (event : ClientEvent)
  | handles (place : Nat)
  | serves (event : ServerEvent υ)
  | notifies (id : SessionId) (notif : JsonRpcNotification)
  | reports (sink : Nat) (progress : Double) (total : Option Double)
  | receives (place : Nat)

/-- The peer that a message is for. -/
def Sending.routed : Sending → SessionId × Json
  | .message m => ([], m)
  | .toSession id m => (id, m)

def ServerEvent.sessionId : ServerEvent υ → SessionId
  | .requestsSampling _ _ sessionId _ | .requestsElicitation _ _ sessionId _ => sessionId
  | .requestsRoots _ sessionId _ => sessionId
  | _ => []

/-- The new answers of the server's sinks, each for the peer that the sink belongs to. -/
def Peers.answered (x : Peers υ) (s : Server υ) : List (SessionId × Json) :=
  (s.answers.drop x.server.answers.length).filterMap fun answer =>
    (x.sinks[answer.1]?).map fun id => (id, answer.2)

/-- A client takes a step, and what it sends is in flight. -/
def Peers.after (x : Peers υ) (id : SessionId) (c : Client) : Peers υ :=
  { x with
    clients := Function.update x.clients id c
    uplink := x.uplink ++ (c.sent.drop (x.clients id).sent.length).map fun m => (id, m) }

/-- The server takes a message of a client. -/
def Peers.handle (env : PeersEnv) (x : Peers υ) (id : SessionId) (message : Json) : Peers υ :=
  let s := x.server.onMessage env.info message.reread id false
  let x := { x with sinks := x.sinks ++ [id] }
  { x with server := s, downlink := x.downlink ++ x.answered s }

/-- The server takes a step of its own. -/
def Peers.serve (x : Peers υ) (event : ServerEvent υ) (s : Server υ) : Peers υ :=
  { x with
    server := s
    downlink := x.downlink ++ x.answered s ++
      (x.server.asked s event).map fun m => (event.sessionId, m) }

/-- The context of the request that arrived at a sink, when its method has one. -/
def Peers.contextOf (x : Peers υ) (sink : Nat) : Option RequestContext :=
  match x.server.arrivals[sink]?, x.sinks[sink]? with
  | some raw, some id =>
    match parseMessage raw with
    | .request req => if isDeferrable req.method then some (requestContext req id) else none
    | _ => none
  | _, _ => none

def Peers.report (x : Peers υ) (progress : Double) (total : Option Double)
    (ctx : RequestContext) : Peers υ :=
  { x with
    reports := x.reports ++ [⟨ctx, progress, total⟩]
    downlink := x.downlink ++ (ctx.reportProgress x.server progress total).map Sending.routed }

/-- A client is handed a message, which it handles on its strand. -/
def Peers.deliver (x : Peers υ) (id : SessionId) (message : Json) : Peers υ :=
  { x with
    clients := Function.update x.clients id ((x.clients id).post (.message message.reread)) }

def Peers.step (env : PeersEnv) (x : Peers υ) : PeersEvent υ → Option (Peers υ)
  | .client _ (.arrives _) => none
  | .client id event => ((x.clients id).step (env.client id) event).map (x.after id)
  | .handles place =>
    match x.uplink[place]? with
    | some (id, message) =>
      if x.server.stopping then none
      else some ({ x with uplink := x.uplink.eraseIdx place }.handle env id message)
    | none => none
  | .serves (.arrives _ _ _) => none
  | .serves event => (x.server.step env.info event).map (x.serve event)
  | .notifies id notif =>
    some { x with downlink := x.downlink ++ [(id, serializeNotification notif)] }
  | .reports sink progress total => (x.contextOf sink).map (x.report progress total)
  | .receives place =>
    match x.downlink[place]? with
    | some (id, message) =>
      some ({ x with downlink := x.downlink.eraseIdx place }.deliver id message)
    | none => none

def Peers.initial (user : υ) : Peers υ := { server := Server.initial user }

/-- The steps again, one constructor for each kind of event. -/
inductive Peers.Stepped (env : PeersEnv) (x : Peers υ) : PeersEvent υ → Peers υ → Prop where
  | client (id : SessionId) (event : ClientEvent) (c : Client)
      (other : ∀ m, event ≠ .arrives m)
      (stepped : (x.clients id).step (env.client id) event = some c) :
      Stepped env x (.client id event) (x.after id c)
  | handles (place : Nat) (id : SessionId) (message : Json)
      (sent : (id, message) ∈ x.uplink) (working : x.server.stopping = false) :
      Stepped env x (.handles place)
        ({ x with uplink := x.uplink.eraseIdx place }.handle env id message)
  | serves (event : ServerEvent υ) (s : Server υ)
      (other : ∀ message sessionId batch, event ≠ .arrives message sessionId batch)
      (stepped : x.server.step env.info event = some s) :
      Stepped env x (.serves event) (x.serve event s)
  | notifies (id : SessionId) (notif : JsonRpcNotification) :
      Stepped env x (.notifies id notif)
        { x with downlink := x.downlink ++ [(id, serializeNotification notif)] }
  | reports (sink : Nat) (progress : Double) (total : Option Double) (ctx : RequestContext)
      (given : x.contextOf sink = some ctx) :
      Stepped env x (.reports sink progress total) (x.report progress total ctx)
  | receives (place : Nat) (id : SessionId) (message : Json)
      (sent : (id, message) ∈ x.downlink) : Stepped env x (.receives place)
        ({ x with downlink := x.downlink.eraseIdx place }.deliver id message)

theorem peers_step_cases {env : PeersEnv} {x x' : Peers υ} {event : PeersEvent υ}
    (h : x.step env event = some x') : x.Stepped env event x' := by
  cases event with
  | client id event =>
    have other : ∀ m, event ≠ .arrives m := by
      rintro m rfl
      cases h
    have took : ((x.clients id).step (env.client id) event).map (x.after id) = some x' := by
      cases event with
      | arrives m => exact absurd rfl (other m)
      | _ => exact h
    obtain ⟨c, stepped, rfl⟩ := Option.map_eq_some_iff.mp took
    exact .client id event c other stepped
  | handles place =>
    simp only [Peers.step] at h
    split at h
    · rename_i id message found
      simp only [Option.ite_none_left_eq_some, Option.some.injEq, Bool.not_eq_true] at h
      obtain ⟨working, rfl⟩ := h
      exact .handles place id message (List.mem_of_getElem? found) working
    · cases h
  | serves event =>
    have other : ∀ message sessionId batch, event ≠ .arrives message sessionId batch := by
      rintro message sessionId batch rfl
      cases h
    have took : (x.server.step env.info event).map (x.serve event) = some x' := by
      cases event with
      | arrives message sessionId batch => exact absurd rfl (other message sessionId batch)
      | _ => exact h
    obtain ⟨s, stepped, rfl⟩ := Option.map_eq_some_iff.mp took
    exact .serves event s other stepped
  | notifies id notif =>
    cases h
    exact .notifies id notif
  | reports sink progress total =>
    obtain ⟨ctx, given, rfl⟩ := Option.map_eq_some_iff.mp h
    exact .reports sink progress total ctx given
  | receives place =>
    simp only [Peers.step] at h
    split at h
    · rename_i id message found
      cases h
      exact .receives place id message (List.mem_of_getElem? found)
    · cases h

/-- The users of the clients keep to the rules. -/
def Peers.orderly (x : Peers υ) : PeersEvent υ → Bool
  | .client id event => (x.clients id).orderly event
  | _ => true

end CppMcp
