import CppMcp.Client.Conversation
import CppMcp.Client.Results
import CppMcp.Peers.Progress
import CppMcp.Server.Queues

namespace CppMcp

open Lib

variable {υ : Type}

/-- The id of a message that the server takes for a request. -/
def requestOf (m : Json) : Option RequestId :=
  match parseMessage m.reread with
  | .request req => some req.id
  | _ => none

/-- The requests that are on their way to the server or wait in its pool. -/
def Peers.pending (x : Peers υ) : List (SessionId × RequestId) :=
  (x.uplink.filterMap fun message => (requestOf message.2).map fun n => (message.1, n)) ++
    x.server.jobs.map fun job => (job.sessionId, job.request.id)

/-- The step in which the server computes the answer to a request of a client, from this state of
    its own. -/
inductive Peers.Serves (x : Peers υ) (id : SessionId) (req : JsonRpcRequest) :
    Server υ → PeersEvent υ → Prop where
  | inline (place : Nat) (message : Json) (taken : x.uplink[place]? = some (id, message))
      (parsed : parseMessage message.reread = .request req)
      (prompt : (x.server.executor && isDeferrable req.method) = false) :
      Serves x id req (x.server.arrived message.reread) (.handles place)
  | pooled (place sink : Nat) (found : x.server.jobs[place]? = some ⟨sink, req, id⟩) :
      Serves x id req { x.server with jobs := x.server.jobs.eraseIdx place }
        (.serves (.runsJob place))

/-- A user thread builds a request from these arguments, to be sent with these params. -/
structure Peers.Builds (x : Peers υ) (id : SessionId) (pr : Nat) (args : SubmitArgs)
    (params : Option Json) (event : PeersEvent υ) : Prop where
  tested : ∃ thread, event = .client id (.builds thread) ∧
    (x.clients id).submissions.lookup thread = some (.tested args)
  place : pr = (x.clients id).requests.length
  sent : args.sentParams (x.clients id).nextId = .ok params

theorem notification_asks_nothing (notif : JsonRpcNotification) (req : JsonRpcRequest) :
    parseMessage (serializeNotification notif).reread ≠ .request req := by
  intro parsed
  obtain ⟨id, found, -⟩ := (parseMessage_isRequest parsed).id
  rw [Json.find?_reread] at found
  unfold serializeNotification at found
  cases given : notif.params <;> simp [given, find?_mk] at found

theorem response_asks_nothing {m : Json} (response : isResponse m = true) (req : JsonRpcRequest) :
    parseMessage m.reread ≠ .request req := by
  intro parsed
  have named := (parseMessage_isRequest parsed).method
  have plain : m.reread.contains "method" = false := by
    rw [contains_reread]
    simpa [isResponse] using response
  simp [Json.contains, named] at plain

/-- A request that is read has the id it was written with. -/
theorem serializeRequest_id {id : RequestId} (fits : id.Fits) {method : String}
    {params : Option Json} {req : JsonRpcRequest}
    (parsed : parseMessage (serializeRequest ⟨id, method, params⟩).reread = .request req) :
    req.id = id := by
  obtain ⟨j, found, typed⟩ := (parseMessage_isRequest parsed).id
  have written : (serializeRequest ⟨id, method, params⟩).find? "id" = some (requestIdToJson id) := by
    unfold serializeRequest
    cases params <;> simp [find?_mk]
  rw [Json.find?_reread, written] at found
  obtain rfl := Option.some.inj found
  have read := (fromJson_iff _ _).mpr (.inl typed)
  rw [requestId_reread fits] at read
  exact (Except.ok.inj read).symm

section
variable {env : ClientEnv} {c c' : Client} {event : ClientEvent}

/-- The number of a request is no null and fits. -/
theorem Enrolled.number (enrolled : Enrolled c) {pr : Nat} {r : PendingRequest}
    (present : c.requests[pr]? = some r) : r.id ≠ .null := by
  obtain ⟨n, id, -⟩ := enrolled.correlated.ids pr r present
  rw [id]
  exact nofun

/-- What a step of a client sends is one message, or none. -/
theorem step_news (protocol : InProtocol c) (apart : event.keepsTokensApart = true)
    (h : c.step env event = some c') : c'.sent.drop c.sent.length = [] ∨
      ∃ one, c.Speaking (some one) c' ∧ c'.sent.drop c.sent.length = [one.message] := by
  obtain ⟨-, turns⟩ := step_keepsProtocol env protocol apart h
  cases turns with
  | speaks said speaking =>
    have sent := speaking.adds.sent
    cases said with
    | none => exact .inl (by simp [sent])
    | some one =>
      cases there : c.transport with
      | true => exact .inr ⟨one, speaking, by simp [sent, there]⟩
      | false => exact .inl (by simp [sent, there])
  | builds r sent => exact .inl (by simp [sent])
  | leaves sent => exact .inl (by simp [sent])

/-- The one request that a step may send is the one whose registration runs. -/
theorem step_sends_request (enrolled : Enrolled c) (voiced : Voiced c) (protocol : InProtocol c)
    (apart : event.keepsTokensApart = true) (h : c.step env event = some c') {m : Json}
    (new : m ∈ c'.sent.drop c.sent.length) {req : JsonRpcRequest}
    (parsed : parseMessage m.reread = .request req) :
    c'.sent.drop c.sent.length = [m] ∧ event = .runTask ∧ ∃ rest pr params r r',
      c.strand = .register pr params :: rest ∧ c.requests[pr]? = some r ∧ r.registered = false ∧
      c'.requests[pr]? = some r' ∧ r'.id = r.id ∧ r'.registered = true ∧
      req = ⟨r.id, r.method, params.map Json.reread⟩ := by
  rcases step_news protocol apart h with none | ⟨one, speaking, news⟩
  · rw [none] at new
    cases new
  rw [news] at new ⊢
  obtain rfl := List.mem_singleton.mp new
  cases one with
  | cancels id reason => exact absurd parsed (notification_asks_nothing _ req)
  | greets id => exact absurd parsed (notification_asks_nothing _ req)
  | answers response => exact absurd parsed (response_asks_nothing (speaking.allowed _ rfl) req)
  | asks id method params =>
    obtain ⟨s, inside, rfl, rfl, unsent⟩ := speaking.allowed _ rfl
    obtain ⟨place, there⟩ := List.getElem?_of_mem inside
    have own := serializeRequest_id (enrolled.fits place s there) parsed
    -- The number was not sent before, so the message comes of the task at the head.
    have fresh : (Said.asks s.id s.method params).message ∉ c.sent := by
      intro before
      obtain ⟨pr, r, present, registered, same, -⟩ := maySay_request enrolled.fits
        (fun _ _ present => enrolled.number present) (voiced.sent _ before) parsed
      obtain rfl := enrolled.correlated.distinct pr place r s present there (same.trans own)
      obtain rfl := Option.some.inj (present.symm.trans there)
      simp [unsent] at registered
    have origin : c.Utters (fun m => (∀ req, parseMessage m.reread ≠ .request req) ∨
        event = .runTask ∧ ∃ rest pr params r, c.strand = .register pr params :: rest ∧
          c.requests[pr]? = some r ∧ m = serializeRequest ⟨r.id, r.method, params⟩)
        (fun _ => True) c' := by
      apply step_utters env ⟨fun notif => .inl (notification_asks_nothing notif), ?_, ?_⟩ h
        (fun m member => .inl (response_asks_nothing (protocol.sends m member)))
        (fun _ _ => True.intro) fun _ _ _ _ => True.intro
      · exact fun pr params rest r at_head head present =>
          .inr ⟨at_head, rest, pr, params, r, head, present, rfl⟩
      · exact fun id result _ => .inl (response_asks_nothing (makeSuccessResponse_responds id result))
      · exact fun id code message data _ =>
          .inl (response_asks_nothing (makeErrorResponse_responds id code message data))
    have member : (Said.asks s.id s.method params).message ∈ c'.sent :=
      List.mem_of_mem_drop (news ▸ List.mem_singleton_self _)
    rcases origin.sent _ member with before | other | ⟨at_head, rest, pr, params', r, head, present, same⟩
    · exact absurd before fresh
    · exact absurd parsed (other req)
    · obtain ⟨r₀, present₀, unregistered, -, carries⟩ :=
        enrolled.queued pr params' (head ▸ List.mem_cons_self)
      obtain rfl := Option.some.inj (present.symm.trans present₀)
      have structured : Structured params' := fun p given => .inl (carries.1 p given)
      have reads : IsRequest (serializeRequest ⟨r.id, r.method, params'⟩).reread
          ⟨r.id, r.method, params'.map Json.reread⟩ :=
        serializeRequest_reread (enrolled.fits pr r present) (enrolled.number present) structured
      rw [same, parseMessage_request reads] at parsed
      cases parsed
      obtain ⟨r', after, each⟩ := speaking.adds.requests pr r present
      have said : r.id = s.id := own
      exact ⟨rfl, at_head, rest, pr, params', r, r', head, present, unregistered, after, each.id,
        each.registered.mpr (.inr (by simp [Said.asked, said])), rfl⟩

end

variable {env : PeersEnv} {user : υ}

/-- What a step does to one client is nothing, or a step of its own. -/
theorem peers_client_step {x x' : Peers υ} {event : PeersEvent υ}
    (h : x.step env event = some x') (id : SessionId) : x'.clients id = x.clients id ∨
      ∃ move, (x.clients id).step (env.client id) move = some (x'.clients id) ∧
        ((∃ m, move = .arrives m) ∨ event = .client id move) := by
  cases peers_step_cases h with
  | client other move c _ stepped =>
    by_cases same : id = other
    · subst same
      refine .inr ⟨move, ?_, .inr rfl⟩
      rw [stepped]
      exact congrArg some (Function.update_self id c x.clients).symm
    · exact .inl (Function.update_of_ne same _ _)
  | receives place other message =>
    by_cases same : id = other
    · subst same
      refine .inr ⟨.arrives message.reread, ?_, .inl ⟨_, rfl⟩⟩
      exact congrArg some (Function.update_self id _ x.clients).symm
    · exact .inl (Function.update_of_ne same _ _)
  | _ => exact .inl rfl

theorem peers_step_apart {x x' : Peers υ} {event : PeersEvent υ}
    (orderly : x.orderly event = true) (h : x.step env event = some x') (id : SessionId) :
    x'.clients id = x.clients id ∨ ∃ move, move.keepsTokensApart = true ∧
      (x.clients id).step (env.client id) move = some (x'.clients id) := by
  refine (peers_client_step h id).imp_right ?_
  rintro ⟨move, stepped, ⟨m, rfl⟩ | rfl⟩
  · exact ⟨_, rfl, stepped⟩
  · exact ⟨move, orderly_apart orderly, stepped⟩

/-- A request of a client keeps its id and its method, and stays sent. -/
def Client.Carried (c c' : Client) : Prop :=
  ∀ (pr : Nat) r, c.requests[pr]? = some r → ∃ r', c'.requests[pr]? = some r' ∧ r'.id = r.id ∧
    r'.method = r.method ∧ (r.registered = true → r'.registered = true)

theorem step_keepsRequests {client : ClientEnv} {c c' : Client} {event : ClientEvent}
    (protocol : InProtocol c) (apart : event.keepsTokensApart = true)
    (h : c.step client event = some c') : c.Carried c' := by
  intro pr r present
  obtain ⟨-, turns⟩ := step_keepsProtocol client protocol apart h
  cases turns with
  | speaks said speaking =>
    obtain ⟨r', after, each⟩ := speaking.adds.requests pr r present
    exact ⟨r', after, each.id, each.method, fun sent => each.registered.mpr (.inl sent)⟩
  | builds s sent transport requests =>
    have bound := (List.getElem?_eq_some_iff.mp present).1
    exact ⟨r, by rw [requests, List.getElem?_append_left bound, present], rfl, rfl, id⟩
  | leaves sent transport requests => exact ⟨r, requests ▸ present, rfl, rfl, id⟩

/-- The client has sent a request with this id. -/
def Peers.Sent (x : Peers υ) (key : SessionId × RequestId) : Prop :=
  ∃ r ∈ (x.clients key.1).requests, r.id = key.2 ∧ r.registered = true

/-- A request on its way to the server, or waiting there, was sent by its client, and is there
    once. -/
structure Peers.Traced (env : PeersEnv) (user : υ) (x : Peers υ) : Prop where
  sound : x.Sound env user
  protocol : ∀ id, InProtocol (x.clients id)
  sinks : ∀ job ∈ x.server.jobs, x.sinks[job.sink]? = some job.sessionId
  replies : ∀ delivery ∈ x.server.deliveries, delivery.1 < x.sinks.length
  once : x.pending.Nodup
  sent : ∀ key ∈ x.pending, x.Sent key

theorem eraseIdx_perm {α : Type} {xs : List α} {place : Nat} {a : α} (found : xs[place]? = some a) :
    (a :: xs.eraseIdx place).Perm xs := by
  obtain ⟨bound, rfl⟩ := List.getElem?_eq_some_iff.mp found
  exact List.getElem_cons_eraseIdx_perm bound


/-- The key of a message in flight, when the server takes it for a request. -/
def keyOf (id : SessionId) (m : Json) : Option (SessionId × RequestId) :=
  (requestOf m).map fun n => (id, n)

theorem pending_eq (x : Peers υ) : x.pending =
    (x.uplink.filterMap fun message => keyOf message.1 message.2) ++
      x.server.jobs.map fun job => (job.sessionId, job.request.id) := rfl

/-- A message that is taken from the uplink. -/
theorem pending_taken {x : Peers υ} {place : Nat} {id : SessionId} {m : Json}
    (taken : x.uplink[place]? = some (id, m)) :
    ((keyOf id m).toList ++ { x with uplink := x.uplink.eraseIdx place }.pending).Perm
      x.pending := by
  have kept := (eraseIdx_perm taken).filterMap fun message => keyOf message.1 message.2
  rw [pending_eq, pending_eq, ← List.append_assoc]
  refine List.Perm.append_right _ (.trans ?_ kept)
  rw [List.filterMap_cons]
  cases keyOf id m <;> exact .refl _

/-- A message that the server handles is a request and waits for a worker, or leaves the pool alone. -/
theorem handle_pending (x : Peers υ) (id : SessionId) (m : Json) :
    (x.handle env id m).pending = x.pending ∨
      (x.handle env id m).pending = x.pending ++ (keyOf id m).toList := by
  have split : (x.handle env id m).pending =
      (x.uplink.filterMap fun message => keyOf message.1 message.2) ++
        (x.server.onMessage env.info m.reread id false).jobs.map fun job =>
          (job.sessionId, job.request.id) := rfl
  have same (jobs : (x.server.onMessage env.info m.reread id false).jobs = x.server.jobs) :
      (x.handle env id m).pending = x.pending := by rw [split, jobs, pending_eq]
  cases onMessage_takes env.info x.server m.reread id with
  | answers req parsed prompt queues => exact .inl (same (congrArg (·.1) queues))
  | echoes resp parsed queues => exact .inl (same (congrArg (·.1) queues))
  | hears other queues => exact .inl (same (congrArg (·.1) queues))
  | defers req parsed deferred queues =>
    right
    have key : keyOf id m = some (id, req.id) := by simp [keyOf, requestOf, parsed]
    have jobs : (x.server.onMessage env.info m.reread id false).jobs = _ := congrArg (·.1) queues
    rw [split, jobs, pending_eq]
    simp [key, List.append_assoc]

theorem handles_cases {x x' : Peers υ} {place : Nat} (h : x.step env (.handles place) = some x') :
    ∃ id m, x.uplink[place]? = some (id, m) ∧
      x' = { x with uplink := x.uplink.eraseIdx place }.handle env id m := by
  simp only [Peers.step] at h
  split at h
  · rename_i id m found
    simp only [Option.ite_none_left_eq_some, Option.some.injEq] at h
    exact ⟨id, m, found, h.2.symm⟩
  · cases h

/-- Only a step of a client puts a request on its way. -/
theorem pending_fewer {x x' : Peers υ} {event : PeersEvent υ}
    (other : ∀ id move, event ≠ .client id move) (h : x.step env event = some x') :
    x'.pending.Subperm x.pending := by
  cases event with
  | client id move => exact absurd rfl (other id move)
  | handles place =>
    obtain ⟨id, m, taken, rfl⟩ := handles_cases h
    refine List.Subperm.trans ?_ (pending_taken taken).subperm
    let taken : Peers υ := { x with uplink := x.uplink.eraseIdx place }
    rcases (handle_pending taken id m : (taken.handle env id m).pending = _ ∨ _) with same | more
    · rw [same]
      exact (List.sublist_append_right _ _).subperm
    · rw [more]
      exact List.perm_append_comm.subperm
  | serves event =>
    cases peers_step_cases h with
    | serves _ s others stepped =>
      exact ((List.Sublist.refl _).append ((step_jobs_sublist others stepped).map _)).subperm
  | notifies | reports | receives =>
    cases peers_step_cases h
    exact .refl _

/-- A request that is computed is not on its way any more. -/
theorem serves_pending {x x' : Peers υ} {event : PeersEvent υ} {id : SessionId}
    {req : JsonRpcRequest} {s : Server υ} (serves : x.Serves id req s event)
    (h : x.step env event = some x') : ((id, req.id) :: x'.pending).Perm x.pending := by
  cases serves with
  | inline place m taken parsed prompt =>
    obtain ⟨id', m', taken', rfl⟩ := handles_cases h
    obtain ⟨rfl, rfl⟩ := Prod.mk.inj (Option.some.inj (taken.symm.trans taken'))
    have key : keyOf id m = some (id, req.id) := by simp [keyOf, requestOf, parsed]
    have perm := pending_taken taken
    rw [key] at perm
    refine .trans (.cons _ (.of_eq ?_)) perm
    have jobs : (x.server.onMessage env.info m.reread id false).jobs = x.server.jobs := by
      cases onMessage_takes env.info x.server m.reread id with
      | answers _ _ _ queues => exact congrArg (·.1) queues
      | echoes _ _ queues => exact congrArg (·.1) queues
      | hears _ queues => exact congrArg (·.1) queues
      | defers req' parsed' deferred queues =>
        rw [parsed, ParsedMessage.request.injEq] at parsed'
        rw [← parsed', prompt] at deferred
        cases deferred
    exact congrArg (fun jobs => _ ++ List.map _ jobs) jobs
  | pooled place sink found =>
    cases peers_step_cases h with
    | serves _ s others stepped =>
      simp only [Server.step, found, Option.some.injEq] at stepped
      subst stepped
      obtain ⟨-, -, -, jobs, -⟩ := runJob_queues env.info
        { x.server with jobs := x.server.jobs.eraseIdx place } ⟨sink, req, id⟩
      have kept := (eraseIdx_perm found).map fun job => (job.sessionId, job.request.id)
      rw [pending_eq, pending_eq]
      refine .trans List.perm_middle.symm (List.Perm.append_left _ (.trans (.cons _ ?_) kept))
      exact .of_eq (congrArg (List.map _) jobs)

/-- The requests among what a client sends in a step are none, or the one it registers. -/
theorem sent_asks {client : ClientEnv} {c c' : Client} {event : ClientEvent}
    (enrolled : Enrolled c) (voiced : Voiced c) (protocol : InProtocol c)
    (apart : event.keepsTokensApart = true) (h : c.step client event = some c') :
    (c'.sent.drop c.sent.length).filterMap requestOf = [] ∨ ∃ (pr : Nat) (r r' : PendingRequest),
      (c'.sent.drop c.sent.length).filterMap requestOf = [r.id] ∧ c.requests[pr]? = some r ∧
      r.registered = false ∧ c'.requests[pr]? = some r' ∧ r'.id = r.id ∧ r'.registered = true := by
  by_cases asks : ∃ m ∈ c'.sent.drop c.sent.length, ∃ req, parseMessage m.reread = .request req
  · obtain ⟨m, new, req, parsed⟩ := asks
    obtain ⟨one, -, _, pr, _, r, r', -, present, unregistered, after, id, registered, rfl⟩ :=
      step_sends_request enrolled voiced protocol apart h new parsed
    have number : requestOf m = some r.id := by simp [requestOf, parsed]
    exact .inr ⟨pr, r, r', by simp [one, number], present, unregistered, after, id, registered⟩
  · push Not at asks
    left
    refine List.filterMap_eq_nil_iff.mpr fun m new => ?_
    unfold requestOf
    split
    · rename_i req parsed
      exact absurd parsed (asks m new req)
    · rfl

theorem after_pending (x : Peers υ) (id : SessionId) (c : Client) : (x.after id c).pending.Perm
    (((c.sent.drop (x.clients id).sent.length).filterMap requestOf).map (fun n => (id, n)) ++
      x.pending) := by
  have news : ((c.sent.drop (x.clients id).sent.length).map fun m => (id, m)).filterMap
      (fun message => keyOf message.1 message.2) =
      ((c.sent.drop (x.clients id).sent.length).filterMap requestOf).map fun n => (id, n) := by
    rw [List.filterMap_map, List.map_filterMap]
    rfl
  have whole : (x.after id c).pending =
      (x.uplink ++ (c.sent.drop (x.clients id).sent.length).map fun m => (id, m)).filterMap
        (fun message => keyOf message.1 message.2) ++
          x.server.jobs.map fun job => (job.sessionId, job.request.id) := rfl
  rw [whole, List.filterMap_append, news, pending_eq, ← List.append_assoc]
  exact List.perm_append_comm.append_right _

namespace Peers.Traced

theorem carried {x x' : Peers υ} {event : PeersEvent υ} (inv : x.Traced env user)
    (orderly : x.orderly event = true) (h : x.step env event = some x') (id : SessionId) :
    (x.clients id).Carried (x'.clients id) := by
  rcases peers_step_apart orderly h id with same | ⟨move, apart, stepped⟩
  · rw [same]
    exact fun pr r present => ⟨r, present, rfl, rfl, fun sent => sent⟩
  · exact step_keepsRequests (inv.protocol id) apart stepped

/-- What waits in the server belongs to a sink of the peer that it came from. -/
theorem sunk {x x' : Peers υ} {event : PeersEvent υ} (inv : x.Traced env user)
    (h : x.step env event = some x') :
    (∀ job ∈ x'.server.jobs, x'.sinks[job.sink]? = some job.sessionId) ∧
      ∀ delivery ∈ x'.server.deliveries, delivery.1 < x'.sinks.length := by
  cases event with
  | handles place =>
    obtain ⟨id, m, taken, rfl⟩ := handles_cases h
    have jobs : ∀ job ∈ x.server.jobs, (x.sinks ++ [id])[job.sink]? = some job.sessionId := by
      intro job member
      have found := inv.sinks job member
      rw [List.getElem?_append_left (List.getElem?_eq_some_iff.mp found).1, found]
    have replies : ∀ delivery ∈ x.server.deliveries, delivery.1 < (x.sinks ++ [id]).length := by
      intro delivery member
      have bound := inv.replies delivery member
      simp only [List.length_append, List.length_singleton]
      omega
    have kept {waiting : List Job} {answers : List (Nat × Json)}
        (queues : (x.server.onMessage env.info m.reread id false).queues =
          (waiting, x.server.deliveries, answers))
        (all : ∀ job ∈ waiting, (x.sinks ++ [id])[job.sink]? = some job.sessionId) :
        (∀ job ∈ (x.server.onMessage env.info m.reread id false).jobs,
          (x.sinks ++ [id])[job.sink]? = some job.sessionId) ∧
        ∀ delivery ∈ (x.server.onMessage env.info m.reread id false).deliveries,
          delivery.1 < (x.sinks ++ [id]).length := by
      simp only [Server.queues, Prod.mk.injEq] at queues
      rw [queues.1, queues.2.1]
      exact ⟨all, replies⟩
    show (∀ job ∈ (x.server.onMessage env.info m.reread id false).jobs, _) ∧ _
    cases onMessage_takes env.info x.server m.reread id with
    | answers _ _ _ queues => exact kept queues jobs
    | echoes _ _ queues => exact kept queues jobs
    | hears _ queues => exact kept queues jobs
    | defers req parsed deferred queues =>
      refine kept queues fun job member => ?_
      rcases List.mem_append.mp member with old | new
      · exact jobs job old
      · cases List.mem_singleton.mp new
        simp [← inv.sound.sinks]
  | serves event =>
    cases peers_step_cases h with
    | serves _ s other stepped =>
      show (∀ job ∈ s.jobs, _) ∧ ∀ delivery ∈ s.deliveries, _
      cases step_passes env.info other stepped with
      | computes place job works found queues =>
        simp only [Server.queues, Prod.mk.injEq] at queues
        rw [queues.1, queues.2.1]
        refine ⟨fun job member => inv.sinks job (List.mem_of_mem_eraseIdx member), ?_⟩
        intro delivery member
        rcases List.mem_append.mp member with old | new
        · exact inv.replies delivery old
        · cases List.mem_singleton.mp new
          have sink := inv.sinks job (List.mem_of_getElem? found)
          exact (List.getElem?_eq_some_iff.mp sink).1
      | delivers place delivery found queues =>
        simp only [Server.queues, Prod.mk.injEq] at queues
        rw [queues.1, queues.2.1]
        exact ⟨inv.sinks, fun delivery member =>
          inv.replies delivery (List.mem_of_mem_eraseIdx member)⟩
      | drops queues =>
        simp only [Server.queues, Prod.mk.injEq] at queues
        rw [queues.1, queues.2.1]
        exact ⟨fun job member => absurd member List.not_mem_nil,
          fun delivery member => absurd member List.not_mem_nil⟩
      | rests queues =>
        simp only [Server.queues, Prod.mk.injEq] at queues
        rw [queues.1, queues.2.1]
        exact ⟨inv.sinks, inv.replies⟩
  | client id move =>
    cases peers_step_cases h
    exact ⟨inv.sinks, inv.replies⟩
  | notifies | reports | receives =>
    cases peers_step_cases h
    exact ⟨inv.sinks, inv.replies⟩

theorem stays {x x' : Peers υ} {event : PeersEvent υ} (inv : x.Traced env user)
    (orderly : x.orderly event = true) (h : x.step env event = some x')
    {key : SessionId × RequestId} (sent : x.Sent key) : x'.Sent key := by
  obtain ⟨r, inside, own, registered⟩ := sent
  obtain ⟨pr, present⟩ := List.getElem?_of_mem inside
  obtain ⟨r', after, id, -, kept⟩ := inv.carried orderly h key.1 pr r present
  exact ⟨r', List.mem_of_getElem? after, id.trans own, kept registered⟩

/-- A step puts no request on its way, or one that was not sent before. -/
theorem fresh {x x' : Peers υ} {event : PeersEvent υ} (inv : x.Traced env user)
    (orderly : x.orderly event = true) (h : x.step env event = some x') :
    x'.pending.Subperm x.pending ∨
      ∃ key, x'.pending.Perm (key :: x.pending) ∧ ¬ x.Sent key ∧ x'.Sent key := by
  by_cases own : ∃ id move, event = .client id move
  · obtain ⟨id, move, rfl⟩ := own
    cases peers_step_cases h with
    | client _ _ c _ stepped =>
      have perm := after_pending x id c
      rcases sent_asks (inv.sound.enrolled id) (inv.sound.voiced id) (inv.protocol id)
        (orderly_apart orderly) stepped with none | ⟨pr, r, r', one, present, unregistered, after,
          same, registered⟩
      · rw [none] at perm
        exact .inl perm.subperm
      · rw [one] at perm
        refine .inr ⟨(id, r.id), perm, ?_, r', List.mem_of_getElem? (i := pr) ?_, same, registered⟩
        · rintro ⟨s, inside, number, sent⟩
          obtain ⟨place, there⟩ := List.getElem?_of_mem inside
          obtain rfl := (inv.sound.enrolled id).correlated.distinct place pr s r there present number
          obtain rfl := Option.some.inj (there.symm.trans present)
          simp [unregistered] at sent
        · exact (congrArg (·.requests[pr]?) (Function.update_self id c x.clients)).trans after
  · push Not at own
    exact .inl (pending_fewer own h)

theorem step {x x' : Peers υ} {event : PeersEvent υ} (inv : x.Traced env user)
    (orderly : x.orderly event = true) (h : x.step env event = some x') : x'.Traced env user := by
  have protocol : ∀ id, InProtocol (x'.clients id) := by
    intro id
    rcases peers_step_apart orderly h id with same | ⟨move, apart, stepped⟩
    · exact same ▸ inv.protocol id
    · exact (step_keepsProtocol _ (inv.protocol id) apart stepped).1
  have keys : x'.pending.Nodup ∧ ∀ key ∈ x'.pending, x'.Sent key := by
    rcases inv.fresh orderly h with ⟨keys, perm, fewer⟩ | ⟨key, perm, unsent, sent⟩
    · exact ⟨perm.nodup_iff.mp (inv.once.sublist fewer), fun key member =>
        inv.stays orderly h (inv.sent key (fewer.subset (perm.symm.subset member)))⟩
    · refine ⟨perm.nodup_iff.mpr (List.nodup_cons.mpr ⟨fun member => ?_, inv.once⟩), ?_⟩
      · exact unsent (inv.sent key member)
      · intro other member
        rcases List.mem_cons.mp (perm.subset member) with rfl | old
        · exact sent
        · exact inv.stays orderly h (inv.sent other old)
  obtain ⟨sinks, replies⟩ := inv.sunk h
  exact ⟨inv.sound.step orderly h, protocol, sinks, replies, keys.1, keys.2⟩

end Peers.Traced

theorem initial_traced (env : PeersEnv) (user : υ) : (Peers.initial user).Traced env user where
  sound := peers_initial_sound
  protocol _ := initial_inProtocol true
  sinks := by simp [Peers.initial, Server.initial]
  replies := by simp [Peers.initial, Server.initial]
  once := by simp [Peers.pending, Peers.initial, Server.initial]
  sent := by simp [Peers.pending, Peers.initial, Server.initial]

theorem run_traced {events : List (PeersEvent υ)} {x : Peers υ}
    (orderly : Meets (Peers.step env) (fun x event => x.orderly event = true) (Peers.initial user)
      events)
    (h : run (Peers.step env) (Peers.initial user) events = some x) : x.Traced env user :=
  run_invariant (fun _ _ _ inv orderly h => inv.step orderly h) (initial_traced env user) orderly h

/-- A request has been sent and is not on its way any more. -/
def Peers.Spent (x : Peers υ) (key : SessionId × RequestId) : Prop :=
  key ∉ x.pending ∧ x.Sent key

namespace Peers.Traced

theorem serves_spends {x x' : Peers υ} {event : PeersEvent υ} {id : SessionId}
    {req : JsonRpcRequest} {s : Server υ} (inv : x.Traced env user)
    (orderly : x.orderly event = true) (h : x.step env event = some x')
    (serves : x.Serves id req s event) : x'.Spent (id, req.id) := by
  have perm := serves_pending serves h
  have sent := inv.sent (id, req.id) (perm.subset List.mem_cons_self)
  have once := perm.nodup_iff.mpr inv.once
  exact ⟨(List.nodup_cons.mp once).1, inv.stays orderly h sent⟩

theorem spent_stays {x x' : Peers υ} {event : PeersEvent υ} (inv : x.Traced env user)
    (orderly : x.orderly event = true) (h : x.step env event = some x')
    {key : SessionId × RequestId} (spent : x.Spent key) : x'.Spent key := by
  obtain ⟨gone, sent⟩ := spent
  refine ⟨fun member => ?_, inv.stays orderly h sent⟩
  rcases inv.fresh orderly h with fewer | ⟨other, perm, unsent, -⟩
  · exact gone (fewer.subset member)
  · rcases List.mem_cons.mp (perm.subset member) with rfl | old
    · exact unsent sent
    · exact gone old

end Peers.Traced

theorem serves_waiting {x : Peers υ} {id : SessionId} {req : JsonRpcRequest} {s : Server υ}
    {event : PeersEvent υ} (serves : x.Serves id req s event) : (id, req.id) ∈ x.pending := by
  cases serves with
  | inline place m taken parsed =>
    refine List.mem_append_left _ (List.mem_filterMap.mpr ⟨_, List.mem_of_getElem? taken, ?_⟩)
    simp [requestOf, parsed]
  | pooled place sink found =>
    exact List.mem_append_right _ (List.mem_map.mpr ⟨_, List.mem_of_getElem? found, rfl⟩)

/-- What a client asks under one id is computed at one place of a run at most. -/
theorem serves_once {front front' back back' : List (PeersEvent υ)} {e e' : PeersEvent υ}
    {t t' : Peers υ} {id : SessionId} {req req' : JsonRpcRequest} {s s' : Server υ}
    (orderly : Meets (Peers.step env) (fun x event => x.orderly event = true) (Peers.initial user)
      (front ++ e :: back))
    (same : front ++ e :: back = front' ++ e' :: back')
    (reached : run (Peers.step env) (Peers.initial user) front = some t)
    (serves : t.Serves id req s e)
    (reached' : run (Peers.step env) (Peers.initial user) front' = some t')
    (serves' : t'.Serves id req' s' e') (ids : req'.id = req.id) : front = front' := by
  apply @run_once _ _ (Peers.step env) (fun x event => x.orderly event = true)
    (fun x => x.Traced env user) (fun x => x.Spent (id, req.id))
    (fun x event => ∃ asked state, asked.id = req.id ∧ x.Serves id asked state event)
    (fun _ _ _ inv orderly h => inv.step orderly h) _
    (fun _ _ _ inv orderly spent h => inv.spent_stays orderly h spent) _
    _ _ _ _ _ _ _ _ _ (initial_traced env user) orderly same reached ⟨req, s, rfl, serves⟩ reached'
    ⟨req', s', ids, serves'⟩
  · rintro x event x' inv orderly ⟨asked, state, id, serves⟩ h
    exact id ▸ inv.serves_spends orderly h serves
  · rintro x event inv spent ⟨asked, state, id, serves⟩
    exact spent.1 (id ▸ serves_waiting serves)

end CppMcp
