import CppMcp.Peers.Service

namespace CppMcp

open Lib

variable {υ : Type} {env : PeersEnv} {user : υ}

/-- A message for a client is ready in the server, on its way, or on the client's strand. -/
def Peers.Holds (x : Peers υ) (id : SessionId) (m : Json) : Prop :=
  .message m ∈ (x.clients id).strand ∨ ∃ raw, m = raw.reread ∧ ((id, raw) ∈ x.downlink ∨
    ∃ sink, (sink, raw) ∈ x.server.deliveries ∧ x.sinks[sink]? = some id)

/-- The step makes an answer for a client: it computes the answer to a request, or it takes an
    error response of the client that it has no use for. -/
inductive Peers.Makes (env : PeersEnv) (x : Peers υ) (id : SessionId) :
    Json → PeersEvent υ → Prop where
  | serves {req : JsonRpcRequest} {s : Server υ} {event : PeersEvent υ}
      (serves : x.Serves id req s event) : Makes env x id (processRequest env.info req id s).1 event
  | echoes {place : Nat} {message : Json} {resp : JsonRpcErrorResponse}
      (taken : x.uplink[place]? = some (id, message))
      (parsed : parseMessage message.reread = .error resp) : Makes env x id
        (makeErrorResponse resp.id resp.error.code resp.error.message resp.error.data)
        (.handles place)

/-- The message can end a request of the client that gets it. -/
def Settling (m : Json) : Prop := ∃ id method o, id ≠ .null ∧ Resolves m id method o

theorem Resolves.id? {m : Json} {id : RequestId} {method : String} {o : McpOutcome}
    (resolves : Resolves m id method o) : (parseMessageClient m).id? = some id := by
  cases resolves with
  | succeeds parsed | fails parsed | misfits parsed =>
    rw [parsed]
    rfl

/-- An answer ends the request whose id it was written with. -/
theorem resolves_own {m : Json} {id id' : RequestId} {method : String} {o : McpOutcome}
    (fits : id.Fits) (own : m.find? "id" = some (requestIdToJson id))
    (resolves : Resolves m.reread id' method o) (given : id' ≠ .null) : id' = id := by
  rcases parseMessageClient_id resolves.id? with null | ⟨j, found, read⟩
  · exact absurd null given
  · rw [Json.find?_reread, own] at found
    obtain rfl := Option.some.inj found
    rw [requestId_reread fits] at read
    exact (Except.ok.inj read).symm

theorem notification_unsettling (notif : JsonRpcNotification) :
    ¬ Settling (serializeNotification notif).reread := by
  rintro ⟨id, method, o, given, resolves⟩
  rcases parseMessageClient_id resolves.id? with null | ⟨j, found, -⟩
  · exact given null
  · rw [Json.find?_reread] at found
    unfold serializeNotification at found
    cases params : notif.params <;> simp [params, find?_mk] at found

/-- The server's own requests end none of the client. -/
theorem asks_unsettling {m : Json} (asks : Asks m) : ¬ Settling m.reread := by
  obtain ⟨rid, method, params, keyed, rfl⟩ := asks
  obtain ⟨k, typed⟩ := isId_ofInt rid
  have is : IsRequest (serializeRequest ⟨.int rid, method, some params⟩).reread
      ⟨.int k, method, some params.reread⟩ := by
    refine ⟨?_, ⟨_, ?_, typed⟩, ?_, ?_⟩
    · simp [Enveloped, serializeRequest, Json.find?_reread, find?_mk, Json.reread]
    · simp [serializeRequest, Json.find?_reread, find?_mk, requestIdToJson]
    · simp [serializeRequest, Json.find?_reread, find?_mk, Json.reread]
    · have structured : Structured (some params) := fun p same => .inl (Option.some.inj same ▸ keyed)
      apply hasParams_written (structured_reread structured)
      simp [serializeRequest, Json.find?_reread, find?_mk]
  rintro ⟨id, method, o, -, resolves⟩
  cases resolves with
  | succeeds parsed | fails parsed | misfits parsed =>
    rw [parseMessageClient_request is] at parsed
    cases parsed

theorem mem_filterMap_singleton {α β : Type} {f : α → Option β} {a : α} {b : β}
    (member : b ∈ [a].filterMap f) : f a = some b := by
  simpa using member

/-- A client puts nothing on its strand that it has to handle. -/
theorem step_hears {client : ClientEnv} {c c' : Client} {event : ClientEvent}
    (other : ∀ m, event ≠ .arrives m) (h : c.step client event = some c') {m : Json}
    (queued : .message m ∈ c'.strand) : .message m ∈ c.strand := by
  obtain ⟨old, tasks, strand, may, which⟩ := step_strand client h
  rw [strand] at queued
  rcases List.mem_append.mp queued with member | member
  · rcases which with rfl | ⟨-, task, head⟩
    · exact member
    · exact head ▸ List.mem_cons_of_mem task member
  · have posted := may _ member
    cases event with
    | arrives m => exact absurd rfl (other m)
    | _ => exact posted.elim

/-- The answer that the server makes to a message it handles is for the peer of the message. -/
theorem handle_answered {x : Peers υ} {place : Nat} {id id' : SessionId} {m raw : Json}
    (inv : x.Traced env user) (taken : x.uplink[place]? = some (id, m))
    (member : (id', raw) ∈ Peers.answered { x with sinks := x.sinks ++ [id] }
      (x.server.onMessage env.info m.reread id false)) :
    id' = id ∧ x.Makes env id raw (.handles place) := by
  have sink : (x.sinks ++ [id])[x.server.arrivals.length]? = some id := by
    rw [← inv.sound.sinks, List.getElem?_concat_length]
  have one {answer : Json} (answers : (x.server.onMessage env.info m.reread id false).answers =
      x.server.answers ++ [(x.server.arrivals.length, answer)]) : id' = id ∧ raw = answer := by
    simp only [Peers.answered, answers, List.drop_left] at member
    have made := mem_filterMap_singleton member
    simp only [sink, Option.map_some, Option.some.injEq, Prod.mk.injEq] at made
    exact ⟨made.1.symm, made.2.symm⟩
  have none (answers : (x.server.onMessage env.info m.reread id false).answers =
      x.server.answers) : id' = id ∧ x.Makes env id raw (.handles place) := by
    simp [Peers.answered, answers] at member
  cases onMessage_takes env.info x.server m.reread id with
  | answers req parsed prompt queues =>
    obtain ⟨rfl, rfl⟩ := one (congrArg (·.2.2) queues)
    exact ⟨rfl, .serves (.inline place m taken parsed prompt)⟩
  | echoes resp parsed queues =>
    obtain ⟨rfl, rfl⟩ := one (congrArg (·.2.2) queues)
    exact ⟨rfl, .echoes taken parsed⟩
  | defers req parsed deferred queues => exact none (congrArg (·.2.2) queues)
  | hears other queues => exact none (congrArg (·.2.2) queues)

section
variable {x x' : Peers υ} {id : SessionId} {m : Json}

/-- What is new on its way ends no request. -/
theorem Peers.Holds.unsettled (holds : x'.Holds id m) (settling : Settling m)
    (clients : x'.clients = x.clients)
    (downlink : ∀ message ∈ x'.downlink, message ∈ x.downlink ∨ ¬ Settling message.2.reread)
    (server : x'.server = x.server) (sinks : x'.sinks = x.sinks) : x.Holds id m := by
  rcases holds with queued | ⟨raw, same, flying | ready⟩
  · exact .inl (clients ▸ queued)
  · rcases downlink _ flying with old | other
    · exact .inr ⟨raw, same, .inl old⟩
    · exact absurd (same ▸ settling) other
  · rw [server, sinks] at ready
    exact .inr ⟨raw, same, .inr ready⟩

theorem after_holds {other : SessionId} {move : ClientEvent} {c : Client}
    (apart : ∀ m, move ≠ .arrives m)
    (stepped : (x.clients other).step (env.client other) move = some c)
    (holds : (x.after other c).Holds id m) : x.Holds id m := by
  refine holds.imp_left fun queued => ?_
  by_cases same : id = other
  · subst same
    have strand := congrArg Client.strand (Function.update_self id c x.clients)
    exact step_hears apart stepped (strand ▸ queued)
  · exact (congrArg Client.strand (Function.update_of_ne same c x.clients)) ▸ queued

theorem handle_holds {place : Nat} {peer : SessionId} {message : Json} (inv : x.Traced env user)
    (taken : x.uplink[place]? = some (peer, message))
    (holds : ({ x with uplink := x.uplink.eraseIdx place }.handle env peer message).Holds id m) :
    x.Holds id m ∨ ∃ raw, m = raw.reread ∧ x.Makes env id raw (.handles place) := by
  rcases holds with queued | ⟨raw, same, flying | ⟨sink, ready, belongs⟩⟩
  · exact .inl (.inl queued)
  · rcases List.mem_append.mp flying with old | new
    · exact .inl (.inr ⟨raw, same, .inl old⟩)
    · obtain ⟨rfl, makes⟩ := handle_answered inv taken new
      exact .inr ⟨raw, same, makes⟩
  · have deliveries : (x.server.onMessage env.info message.reread peer false).deliveries =
        x.server.deliveries := by
      cases onMessage_takes env.info x.server message.reread peer with
      | answers _ _ _ queues => exact congrArg (·.2.1) queues
      | echoes _ _ queues => exact congrArg (·.2.1) queues
      | defers _ _ _ queues => exact congrArg (·.2.1) queues
      | hears _ queues => exact congrArg (·.2.1) queues
    have ready : (sink, raw) ∈ x.server.deliveries := deliveries ▸ ready
    have belongs : (x.sinks ++ [peer])[sink]? = some id := belongs
    rw [List.getElem?_append_left (inv.replies _ ready)] at belongs
    exact .inl (.inr ⟨raw, same, .inr ⟨sink, ready, belongs⟩⟩)

/-- What the server hands over on its own was ready before. -/
theorem serve_flying {event : ServerEvent υ} {s : Server υ} {raw : Json}
    (other : ∀ message sessionId batch, event ≠ .arrives message sessionId batch)
    (stepped : x.server.step env.info event = some s) (settling : Settling raw.reread)
    (flying : (id, raw) ∈ (x.serve event s).downlink) : (id, raw) ∈ x.downlink ∨
      ∃ sink, (sink, raw) ∈ x.server.deliveries ∧ x.sinks[sink]? = some id := by
  rcases List.mem_append.mp flying with before | asked
  · refine (List.mem_append.mp before).imp_right fun new => ?_
    have none (answers : s.answers = x.server.answers) :
        ∃ sink, (sink, raw) ∈ x.server.deliveries ∧ x.sinks[sink]? = some id := by
      simp [Peers.answered, answers] at new
    cases step_passes env.info other stepped with
    | computes _ _ _ _ queues => exact none (congrArg (·.2.2) queues)
    | drops queues => exact none (congrArg (·.2.2) queues)
    | rests queues => exact none (congrArg (·.2.2) queues)
    | delivers place delivery found queues =>
      have answers : s.answers = x.server.answers ++ [delivery] := congrArg (·.2.2) queues
      simp only [Peers.answered, answers, List.drop_left] at new
      obtain ⟨peer, belongs, made⟩ := Option.map_eq_some_iff.mp (mem_filterMap_singleton new)
      obtain ⟨rfl, rfl⟩ := Prod.mk.inj made
      exact ⟨_, List.mem_of_getElem? found, belongs⟩
  · obtain ⟨m', member, made⟩ := List.mem_map.mp asked
    have asks := step_asks env.info stepped m' member
    cases made
    exact absurd settling (asks_unsettling asks)

/-- What the server has ready was so before, or a worker has computed it in this step. -/
theorem serve_ready {event : ServerEvent υ} {s : Server υ} {sink : Nat} {raw : Json}
    (inv : x.Traced env user)
    (other : ∀ message sessionId batch, event ≠ .arrives message sessionId batch)
    (stepped : x.server.step env.info event = some s) (ready : (sink, raw) ∈ s.deliveries)
    (belongs : x.sinks[sink]? = some id) :
    (sink, raw) ∈ x.server.deliveries ∨ x.Makes env id raw (.serves event) := by
  cases step_passes env.info other stepped with
  | computes place job works found queues =>
    have deliveries : s.deliveries = _ := congrArg (·.2.1) queues
    rw [deliveries] at ready
    refine (List.mem_append.mp ready).imp_right fun new => ?_
    obtain ⟨rfl, rfl⟩ := Prod.mk.inj (List.mem_singleton.mp new)
    have own := inv.sinks job (List.mem_of_getElem? found)
    obtain rfl : job.sessionId = id := Option.some.inj (own.symm.trans belongs)
    subst works
    exact .serves (.pooled place job.sink found)
  | delivers place delivery found queues =>
    have deliveries : s.deliveries = x.server.deliveries.eraseIdx place := congrArg (·.2.1) queues
    exact .inl (List.mem_of_mem_eraseIdx (deliveries ▸ ready))
  | drops queues =>
    have deliveries : s.deliveries = [] := congrArg (·.2.1) queues
    rw [deliveries] at ready
    cases ready
  | rests queues =>
    have deliveries : s.deliveries = x.server.deliveries := congrArg (·.2.1) queues
    exact .inl (deliveries ▸ ready)

theorem receives_holds {place : Nat} {peer : SessionId} {message : Json}
    (sent : (peer, message) ∈ x.downlink)
    (holds : ({ x with downlink := x.downlink.eraseIdx place }.deliver peer message).Holds id m) :
    x.Holds id m := by
  rcases holds with queued | ⟨raw, same, flying | ready⟩
  · change _ ∈ (Function.update x.clients peer _ id).strand at queued
    by_cases own : id = peer
    · subst own
      rw [Function.update_self] at queued
      rcases List.mem_append.mp queued with old | new
      · exact .inl old
      · cases List.mem_singleton.mp new
        exact .inr ⟨message, rfl, .inl sent⟩
    · rw [Function.update_of_ne own] at queued
      exact .inl queued
  · exact .inr ⟨raw, same, .inl (List.mem_of_mem_eraseIdx flying)⟩
  · exact .inr ⟨raw, same, .inr ready⟩

/-- An answer that a client is to get was to be got before, or the step makes it. -/
theorem peers_step_holds {event : PeersEvent υ} (inv : x.Traced env user)
    (h : x.step env event = some x') (settling : Settling m) (holds : x'.Holds id m) :
    x.Holds id m ∨ ∃ raw, m = raw.reread ∧ x.Makes env id raw event := by
  cases event with
  | client other move =>
    cases peers_step_cases h with
    | client _ _ c apart stepped => exact .inl (after_holds apart stepped holds)
  | handles place =>
    obtain ⟨peer, message, taken, rfl⟩ := handles_cases h
    exact handle_holds inv taken holds
  | serves event =>
    cases peers_step_cases h with
    | serves _ s other stepped =>
      rcases holds with queued | ⟨raw, same, flying | ⟨sink, ready, belongs⟩⟩
      · exact .inl (.inl queued)
      · exact .inl (.inr ⟨raw, same, serve_flying other stepped (same ▸ settling) flying⟩)
      · refine (serve_ready inv other stepped ready belongs).imp (fun old => ?_) fun made => ?_
        · exact .inr ⟨raw, same, .inr ⟨sink, old, belongs⟩⟩
        · exact ⟨raw, same, made⟩
  | notifies peer notif =>
    cases peers_step_cases h
    refine .inl (holds.unsettled settling rfl (fun message flying => ?_) rfl rfl)
    refine (List.mem_append.mp flying).imp_right fun new => ?_
    rw [List.mem_singleton.mp new]
    exact notification_unsettling notif
  | reports sink progress total =>
    cases peers_step_cases h with
    | reports _ _ _ ctx given =>
      refine .inl (holds.unsettled settling rfl (fun message flying => ?_) rfl rfl)
      refine (List.mem_append.mp flying).imp_right fun new => ?_
      obtain ⟨sending, sent, rfl⟩ := List.mem_map.mp new
      unfold RequestContext.reportProgress Server.notifyProgress Server.sendNotification at sent
      split at sent
      · cases sent
      · dsimp only at sent
        split at sent
        all_goals
          cases List.mem_singleton.mp sent
          exact notification_unsettling _
  | receives place =>
    cases peers_step_cases h with
    | receives _ peer message sent => exact .inl (receives_holds sent holds)

/-- A request is on its way to the server, or waits there for a worker. -/
def Peers.Asked (x : Peers υ) (id : SessionId) (req : JsonRpcRequest) : Prop :=
  (∃ m, (id, m) ∈ x.uplink ∧ parseMessage m.reread = .request req) ∨
    ∃ sink, ⟨sink, req, id⟩ ∈ x.server.jobs

theorem serves_asked {req : JsonRpcRequest} {s : Server υ} {event : PeersEvent υ}
    (serves : x.Serves id req s event) : x.Asked id req := by
  cases serves with
  | inline place m taken parsed => exact .inl ⟨m, List.mem_of_getElem? taken, parsed⟩
  | pooled place sink found => exact .inr ⟨sink, List.mem_of_getElem? found⟩

/-- A request on its way was there before, or its registration sends it. -/
theorem step_asked {event : PeersEvent υ} {req : JsonRpcRequest} (inv : x.Traced env user)
    (orderly : x.orderly event = true) (h : x.step env event = some x') (asked : x'.Asked id req) :
    x.Asked id req ∨ ∃ pr params r, .register pr params ∈ (x.clients id).strand ∧
      (x.clients id).requests[pr]? = some r ∧ req = ⟨r.id, r.method, params.map Json.reread⟩ := by
  cases event with
  | client other move =>
    cases peers_step_cases h with
    | client _ _ c apart stepped =>
      rcases asked with ⟨m, flying, parsed⟩ | waiting
      · rcases List.mem_append.mp flying with old | new
        · exact .inl (.inl ⟨m, old, parsed⟩)
        · obtain ⟨m', member, same⟩ := List.mem_map.mp new
          obtain ⟨rfl, rfl⟩ := Prod.mk.inj same
          obtain ⟨-, -, rest, pr, params, r, r', head, present, -, -, -, -, read⟩ :=
            step_sends_request (inv.sound.enrolled other) (inv.sound.voiced other)
              (inv.protocol other) (orderly_apart orderly) stepped member parsed
          exact .inr ⟨pr, params, r, head ▸ List.mem_cons_self, present, read⟩
      · exact .inl (.inr waiting)
  | handles place =>
    left
    obtain ⟨peer, message, taken, rfl⟩ := handles_cases h
    rcases asked with ⟨m, flying, parsed⟩ | ⟨sink, waiting⟩
    · exact .inl ⟨m, List.mem_of_mem_eraseIdx flying, parsed⟩
    · have waiting : ⟨sink, req, id⟩ ∈
          (x.server.onMessage env.info message.reread peer false).jobs := waiting
      have same (jobs : (x.server.onMessage env.info message.reread peer false).jobs =
          x.server.jobs) : x.Asked id req := .inr ⟨sink, jobs ▸ waiting⟩
      cases onMessage_takes env.info x.server message.reread peer with
      | answers _ _ _ queues => exact same (congrArg (·.1) queues)
      | echoes _ _ queues => exact same (congrArg (·.1) queues)
      | hears _ queues => exact same (congrArg (·.1) queues)
      | defers req' parsed deferred queues =>
        have jobs : (x.server.onMessage env.info message.reread peer false).jobs = _ :=
          congrArg (·.1) queues
        rw [jobs] at waiting
        rcases List.mem_append.mp waiting with old | new
        · exact .inr ⟨sink, old⟩
        · cases List.mem_singleton.mp new
          exact .inl ⟨message, List.mem_of_getElem? taken, parsed⟩
  | serves event =>
    left
    cases peers_step_cases h with
    | serves _ s other stepped =>
      refine asked.imp_right ?_
      rintro ⟨sink, waiting⟩
      exact ⟨sink, (step_jobs_sublist other stepped).subset waiting⟩
  | notifies | reports | receives =>
    cases peers_step_cases h
    exact .inl asked

end

/-- A registration with these params is queued, or a user thread is about to post it. -/
def Client.Waits (c : Client) (pr : Nat) (params : Option Json) : Prop :=
  .register pr params ∈ c.strand ∨
    ∃ thread, c.submissions.lookup thread = some (.built pr params)

/-- What a client has for a request of this place, once it is built. -/
def Client.Names (c : Client) (pr : Nat) (id : RequestId) (method : String) : Prop :=
  ∃ r, c.requests[pr]? = some r ∧ r.id = id ∧ r.method = method

/-- A registration waited before, or a thread builds its request. -/
theorem step_waits {client : ClientEnv} {c c' : Client} {event : ClientEvent}
    (h : c.step client event = some c') {pr : Nat} {params : Option Json}
    (waits : c'.Waits pr params) : c.Waits pr params ∨ ∃ thread args, event = .builds thread ∧
      c.submissions.lookup thread = some (.tested args) ∧ pr = c.requests.length ∧
      args.sentParams c.nextId = .ok params ∧ c'.Names pr (.int c.nextId) args.method := by
  rcases waits with queued | ⟨thread, held⟩
  · exact .inl (step_queued client h queued)
  · have kept (same : c'.submissions = c.submissions) : c.Waits pr params :=
      .inr ⟨thread, same ▸ held⟩
    cases step_cases h with
    | tests other args =>
      left
      unfold Client.submitTest at held
      split at held
      · exact .inr ⟨thread, held⟩
      · rcases lookup_insert_cases held with ⟨-, new⟩ | ⟨-, old⟩
        · cases new
        · exact .inr ⟨thread, old⟩
    | builds other args tested =>
      unfold Client.submitBuild at held ⊢
      split at held
      · exact .inl (.inr ⟨thread, (lookup_erase held).2⟩)
      · rename_i sent built
        rcases lookup_insert_cases held with ⟨-, new⟩ | ⟨-, old⟩
        · cases new
          refine .inr ⟨other, args, rfl, tested, rfl, built, args.request client c.nextId, ?_, rfl, rfl⟩
          exact request_keyed client c other args _
        · exact .inl (.inr ⟨thread, old⟩)
    | posts other => exact .inl (.inr ⟨thread, (lookup_erase held).2⟩)
    | runTask task rest => exact .inl (kept (runTask_submissions client _ task))
    | disconnectInline | stopDrainsInline => exact .inl (kept (drain_settles client _ _).submissions)
    | runCallback job rest => exact .inl (kept (fire_aside client _ job).submissions)
    | _ => exact .inl (.inr ⟨thread, held⟩)

/-- A step of a run, with what comes before it and the state it is taken in. -/
structure Peers.At (env : PeersEnv) (user : υ) (events front : List (PeersEvent υ)) (t : Peers υ)
    (e : PeersEvent υ) : Prop where
  split : ∃ back, events = front ++ e :: back
  reached : run (Peers.step env) (Peers.initial user) front = some t

/-- A thread of the client has built the request of this place from these arguments. -/
def Peers.Built (env : PeersEnv) (user : υ) (events : List (PeersEvent υ)) (id : SessionId)
    (pr : Nat) (args : SubmitArgs) (req : JsonRpcRequest) : Prop :=
  ∃ front t e params, Peers.At env user events front t e ∧ t.Builds id pr args params e ∧
    req = ⟨.int (t.clients id).nextId, args.method, params.map Json.reread⟩

/-- Behind these steps of the run the server computes the answer to a request of the client. -/
def Peers.Served (env : PeersEnv) (user : υ) (events front : List (PeersEvent υ)) (id : SessionId)
    (req : JsonRpcRequest) (s : Server υ) : Prop :=
  ∃ t e, Peers.At env user events front t e ∧ t.Serves id req s e

/-- The users of the clients keep to the rules all along. -/
abbrev Peers.Orderly (env : PeersEnv) (user : υ) (events : List (PeersEvent υ)) : Prop :=
  Meets (Peers.step env) (fun x event => x.orderly event = true) (Peers.initial user) events

section
variable {events front : List (PeersEvent υ)} {x t : Peers υ} {e : PeersEvent υ} {id : SessionId}

theorem Peers.At.of_at {later : List (PeersEvent υ)} {t' : Peers υ} {e' : PeersEvent υ}
    (within : Peers.At env user events later t' e') (place : Peers.At env user later front t e) :
    Peers.At env user events front t e := by
  obtain ⟨⟨rest, rfl⟩, -⟩ := within
  obtain ⟨⟨mid, rfl⟩, reached⟩ := place
  exact ⟨⟨mid ++ e' :: rest, by simp⟩, reached⟩

theorem Peers.At.orderly (orderly : Peers.Orderly env user events)
    (place : Peers.At env user events front t e) :
    Peers.Orderly env user front ∧ t.Traced env user := by
  obtain ⟨⟨back, rfl⟩, reached⟩ := place
  obtain ⟨before, -⟩ := orderly.split
  exact ⟨before, run_traced before reached⟩

/-- A request keeps its place, its id and its method. -/
theorem run_names {x' : Peers υ} {events : List (PeersEvent υ)} (inv : x.Traced env user)
    (orderly : Meets (Peers.step env) (fun x event => x.orderly event = true) x events)
    (h : run (Peers.step env) x events = some x') {pr : Nat} {n : RequestId} {method : String}
    (names : (x.clients id).Names pr n method) : (x'.clients id).Names pr n method := by
  have start : x.Traced env user ∧ (x.clients id).Names pr n method := ⟨inv, names⟩
  refine (@run_invariant _ _ _ _ (fun x => x.Traced env user ∧ (x.clients id).Names pr n method)
    ?_ _ _ _ start orderly h).2
  rintro x event x' ⟨inv, r, present, own, method⟩ orderly h
  obtain ⟨r', after, sameId, sameMethod, -⟩ := inv.carried orderly h id pr r present
  exact ⟨inv.step orderly h, r', after, sameId.trans own, sameMethod.trans method⟩

/-- What waits for its registration was built by a thread of the client. -/
theorem waits_built (orderly : Peers.Orderly env user events)
    (h : run (Peers.step env) (Peers.initial user) events = some x) {pr : Nat}
    {params : Option Json} (waits : (x.clients id).Waits pr params) :
    ∃ before t₀ e₀ args, Peers.At env user events before t₀ e₀ ∧
      t₀.Builds id pr args params e₀ ∧
      (x.clients id).Names pr (.int (t₀.clients id).nextId) args.method := by
  rcases run_turns (P := fun x => (x.clients id).Waits pr params) h waits with
    none | ⟨before, e₀, mid, t₀, t₁, rfl, reached, stepped, fresh, after⟩
  · rcases none with queued | ⟨thread, held⟩
    · cases queued
    · simp [Peers.initial, Client.initial] at held
  · obtain ⟨first, along⟩ := orderly.split
    have inv := run_traced first reached
    obtain ⟨met, later⟩ := along t₀ reached
    obtain ⟨u, same, onward⟩ := run_split h
    obtain rfl := Option.some.inj (reached.symm.trans same)
    obtain ⟨next, stepped', tail⟩ := run_cons_eq onward
    obtain rfl := Option.some.inj (stepped.symm.trans stepped')
    rcases peers_client_step stepped id with same | ⟨move, moved, origin⟩
    · exact absurd (same ▸ after) fresh
    · rcases step_waits moved after with old | ⟨thread, args, rfl, tested, place, sent, names⟩
      · exact absurd old fresh
      · rcases origin with ⟨m, other⟩ | rfl
        · cases other
        · exact ⟨before, t₀, _, args, ⟨⟨mid, rfl⟩, reached⟩, ⟨⟨thread, rfl, tested⟩, place, sent⟩,
            run_names (inv.step met stepped) (later t₁ stepped) tail names⟩

/-- A request on its way was built by a thread of the client. -/
theorem asked_built (orderly : Peers.Orderly env user events)
    (h : run (Peers.step env) (Peers.initial user) events = some x) {req : JsonRpcRequest}
    (asked : x.Asked id req) : ∃ pr args, Peers.Built env user events id pr args req ∧
      (x.clients id).Names pr req.id req.method := by
  rcases run_turns (P := fun x => x.Asked id req) h asked with
    none | ⟨front, e, back, t, t', rfl, reached, stepped, fresh, after⟩
  · rcases none with ⟨m, flying, -⟩ | ⟨sink, waiting⟩
    · cases flying
    · cases waiting
  · have place : Peers.At env user (front ++ e :: back) front t e := ⟨⟨back, rfl⟩, reached⟩
    obtain ⟨before, inv⟩ := place.orderly orderly
    have along := orderly.split.2 t reached
    rcases step_asked inv along.1 stepped after with old | ⟨pr, params, r, queued, present, rfl⟩
    · exact absurd old fresh
    · obtain ⟨front₀, t₀, e₀, args, earlier, builds, r', there, own, method⟩ :=
        waits_built before reached (.inl queued)
      obtain rfl := Option.some.inj (present.symm.trans there)
      refine ⟨pr, args, ⟨front₀, t₀, e₀, params, place.of_at earlier, builds, ?_⟩, ?_⟩
      · rw [own, method]
      · obtain ⟨u, same, onward⟩ := run_split h
        obtain rfl := Option.some.inj (reached.symm.trans same)
        exact run_names inv along onward ⟨r, present, rfl, rfl⟩

/-- Nothing but a number is resolved under a key that is no text. -/
theorem brings_number {c : Client} (enrolled : Enrolled c) {m : Json} {rest : List Task}
    (head : c.strand = .message m :: rest) {pr : Nat} {o : McpOutcome} (brings : c.Brings m pr o) :
    ∃ r, c.requests[pr]? = some r ∧ Resolves m r.id r.method o := by
  obtain ⟨key, r, found, present, resolves⟩ := brings
  obtain ⟨r', there, which⟩ := enrolled.correlated.entries key pr found
  obtain rfl := Option.some.inj (present.symm.trans there)
  rcases which with rfl | ⟨own, rfl⟩
  · exact ⟨r, present, resolves⟩
  · have task : (Task.message m).plain = true := enrolled.plain _ (head ▸ List.mem_cons_self)
    have plain : m.hasTextId = false := by simpa [Task.plain] using task
    obtain ⟨text, isText⟩ := enrolled.correlated.ownToken present own
    have no := ReadsId.isText (parseMessageClient_id resolves.id?) plain
    rw [isText] at no
    cases no

/-- An answer in a promise was made for its request by a step of the server. -/
theorem answer_made (orderly : Peers.Orderly env user events)
    (h : run (Peers.step env) (Peers.initial user) events = some x) {pr : Nat} {o : McpOutcome}
    (answer : o.IsAnswer) (set : (x.clients id).promiseOf pr = some o) :
    ∃ front t e m n method, Peers.At env user events front t e ∧ t.Makes env id m e ∧
      (x.clients id).Names pr n method ∧ Resolves m.reread n method o := by
  rcases run_turns (P := fun x => (x.clients id).promiseOf pr = some o) h set with
    none | ⟨front, e, back, t, t', rfl, reached, stepped, unset, after⟩
  · simp [Peers.initial, Client.initial, Client.promiseOf] at none
  · have place : Peers.At env user (front ++ e :: back) front t e := ⟨⟨back, rfl⟩, reached⟩
    obtain ⟨before, inv⟩ := place.orderly orderly
    rcases peers_client_step stepped id with same | ⟨move, moved, -⟩
    · exact absurd (same ▸ after) unset
    · obtain ⟨m, rest, -, head, brings⟩ := step_brings (env.client id) moved answer unset after
      have enrolled := inv.sound.enrolled id
      obtain ⟨r, present, resolves⟩ := brings_number enrolled head brings
      have settling : Settling m := ⟨r.id, r.method, o, enrolled.number present, resolves⟩
      have holds : t.Holds id m := .inl (head ▸ List.mem_cons_self)
      have names : (x.clients id).Names pr r.id r.method := by
        obtain ⟨u, same, onward⟩ := run_split h
        obtain rfl := Option.some.inj (reached.symm.trans same)
        exact run_names inv (orderly.split.2 t reached) onward ⟨r, present, rfl, rfl⟩
      rcases run_turns (P := fun x => x.Holds id m) reached holds with
        none | ⟨front₂, e₂, mid, t₂, t₃, rfl, reached₂, stepped₂, fresh, held⟩
      · rcases none with queued | ⟨raw, -, flying | ⟨sink, ready, -⟩⟩
        · cases queued
        · cases flying
        · cases ready
      · have earlier : Peers.At env user (front₂ ++ e₂ :: mid) front₂ t₂ e₂ :=
          ⟨⟨mid, rfl⟩, reached₂⟩
        rcases peers_step_holds (earlier.orderly before).2 stepped₂ settling held with
          old | ⟨raw, rfl, makes⟩
        · exact absurd old fresh
        · exact ⟨front₂, t₂, e₂, raw, r.id, r.method, place.of_at earlier, makes, names, resolves⟩

theorem served_built (orderly : Peers.Orderly env user events) {req : JsonRpcRequest}
    {s : Server υ} (served : Peers.Served env user events front id req s) :
    ∃ pr args, Peers.Built env user front id pr args req ∧ ∃ t e, Peers.At env user events front t e ∧
      (t.clients id).Names pr req.id req.method := by
  obtain ⟨t, e, place, serves⟩ := served
  obtain ⟨before, -⟩ := place.orderly orderly
  obtain ⟨pr, args, built, names⟩ := asked_built before place.reached (serves_asked serves)
  exact ⟨pr, args, built, t, e, place, names⟩

/-- An answer that the server computed is the answer to the request of the place it ends. -/
theorem made_served (orderly : Peers.Orderly env user events)
    (h : run (Peers.step env) (Peers.initial user) events = some x) {req : JsonRpcRequest}
    {s : Server υ} (served : Peers.Served env user events front id req s) {pr : Nat} {n : RequestId}
    {method : String} {o : McpOutcome} (names : (x.clients id).Names pr n method)
    (resolves : Resolves (processRequest env.info req id s).1.reread n method o) :
    ∃ args, Peers.Built env user front id pr args req ∧ n = req.id ∧ method = req.method := by
  obtain ⟨owner, args, built, t, e, place, asked⟩ := served_built orderly served
  have inv := run_traced orderly h
  have enrolled := inv.sound.enrolled id
  obtain ⟨r, present, own, rfl⟩ := names
  have later : (x.clients id).Names owner req.id req.method := by
    obtain ⟨⟨back, rfl⟩, reached⟩ := place
    obtain ⟨u, same, onward⟩ := run_split h
    obtain rfl := Option.some.inj (reached.symm.trans same)
    obtain ⟨first, along⟩ := orderly.split
    exact run_names (run_traced first reached) (along t reached) onward asked
  obtain ⟨r', there, own', method⟩ := later
  have given : n ≠ .null := own ▸ enrolled.number present
  have responds := (processRequest_spec env.info req id s).1
  have id : n = req.id := resolves_own (own' ▸ enrolled.fits owner r' there) responds.id resolves given
  obtain rfl := enrolled.correlated.distinct pr owner r r' present there
    (own.trans (id.trans own'.symm))
  obtain rfl := Option.some.inj (present.symm.trans there)
  exact ⟨args, built, id, method⟩

end

/-- In every run the server computes what its clients asked for, each request once, and an answer
    in a promise is the one to the request of the promise. An error can also be one that the
    client sent to the server, and that came back to it. -/
theorem requests_served_once (env : PeersEnv) (user : υ) (events : List (PeersEvent υ)) (x : Peers υ)
    (orderly : Peers.Orderly env user events)
    (h : run (Peers.step env) (Peers.initial user) events = some x) :
    (∀ front id req s, Peers.Served env user events front id req s →
      (∃ pr args, Peers.Built env user front id pr args req) ∧
      ∀ front' req' s', Peers.Served env user events front' id req' s' → req'.id = req.id →
        front' = front) ∧
    ∀ id pr o, (x.clients id).promiseOf pr = some o → o.IsAnswer →
      (∃ front args req s, Peers.Built env user front id pr args req ∧
        Peers.Served env user events front id req s ∧
        Resolves (processRequest env.info req id s).1.reread req.id req.method o) ∨
      o.terminal = .errored ∧ ∃ front t place m resp n method,
        Peers.At env user events front t (.handles place) ∧ t.uplink[place]? = some (id, m) ∧
        parseMessage m.reread = .error resp ∧ (x.clients id).Names pr n method ∧
        Resolves (makeErrorResponse resp.id resp.error.code resp.error.message
          resp.error.data).reread n method o := by
  refine ⟨fun front id req s served => ⟨?_, ?_⟩, fun id pr o set answer => ?_⟩
  · obtain ⟨pr, args, built, -⟩ := served_built orderly served
    exact ⟨pr, args, built⟩
  · rintro front' req' s' ⟨t', e', ⟨⟨back', same'⟩, reached'⟩, serves'⟩ ids
    obtain ⟨t, e, ⟨⟨back, same⟩, reached⟩, serves⟩ := served
    rw [same'] at orderly
    exact serves_once orderly (same'.symm.trans same) reached' serves' reached serves ids.symm
  · obtain ⟨front, t, e, m, n, method, place, makes, names, resolves⟩ :=
      answer_made orderly h answer set
    cases makes with
    | @serves req s _ serves =>
      have served : Peers.Served env user events front id req s := ⟨t, e, place, serves⟩
      obtain ⟨args, built, rfl, rfl⟩ := made_served orderly h served names resolves
      exact .inl ⟨front, args, req, s, built, served, resolves⟩
    | @echoes spot message resp taken parsed =>
      have errored : o.terminal = .errored := by
        cases resolves with
        | fails => rfl
        | succeeds success | misfits success =>
          obtain ⟨resp', failed⟩ := error_reread resp.id resp.error.code resp.error.message
            resp.error.data
          rw [failed] at success
          cases success
      exact .inr ⟨errored, front, t, spot, message, resp, n, method, place, taken, parsed, names,
        resolves⟩

/-- A worker computes the call, and the client handles the answer. -/
def napServed : List (PeersEvent Unit) :=
  [PeersEvent.serves (.registers sleeper), .serves (.setsWorkers 1), .serves (.runs true),
    .client [] .connect] ++
  (submission { method := "initialize", params := some sleeperGreeting }).map (.client []) ++
  [PeersEvent.handles 0, .receives 0, .client [] .runTask, .handles 0] ++
  (submission napCall).map (.client []) ++
  [PeersEvent.handles 0, .serves (.runsJob 0), .serves (.delivers 0), .receives 0,
    .client [] .runTask]

def napResult : McpOutcome :=
  { terminal := .succeeded, result := Json.mk [("content", .array [])] }

theorem nap_served_once : ∃ front args req s, Peers.Built sleeperEnv () front [] 1 args req ∧
    Peers.Served sleeperEnv () napServed front [] req s ∧
    Resolves (processRequest sleeperEnv.info req [] s).1.reread req.id req.method napResult ∧
    ∀ front' req' s', Peers.Served sleeperEnv () napServed front' [] req' s' → req'.id = req.id →
      front' = front := by
  have shape : (run (Peers.step sleeperEnv) (Peers.initial ()) napServed).map (fun x =>
      (x.clients []).promiseOf 1) = some (some napResult) := by
    decide +kernel
  have orderly : Peers.Orderly sleeperEnv () napServed := by
    decide +kernel
  obtain ⟨x, h, set⟩ := Option.map_eq_some_iff.mp shape
  obtain ⟨asked, ended⟩ := requests_served_once sleeperEnv () napServed x orderly h
  rcases ended [] 1 napResult set (.inl rfl) with ⟨front, args, req, s, built, served, resolves⟩ |
    ⟨errored, -⟩
  · exact ⟨front, args, req, s, built, served, resolves, (asked front [] req s served).2⟩
  · cases errored

end CppMcp
