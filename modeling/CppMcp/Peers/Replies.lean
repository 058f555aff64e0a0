import CppMcp.Peers.Callbacks

namespace CppMcp

open Lib

variable {υ : Type} {env : PeersEnv} {user : υ}

/-- The response in flight, when the message is one of this client. -/
def replyOf (id : SessionId) (message : SessionId × Json) : Option Json :=
  if message.1 = id ∧ isResponse message.2 = true then some message.2 else none

/-- The response that a message in flight leads to, when it is for this client. -/
def promptOf (env : PeersEnv) (id : SessionId) (message : SessionId × Json) : Option Json :=
  if message.1 = id then (inboundRequest message.2.reread).map (inboundAnswer (env.client id))
  else none

/-- The responses that the server can still get of a client: those in flight, those the client
    owes, and those to the requests in flight to it. -/
def Peers.replies (env : PeersEnv) (x : Peers υ) (id : SessionId) : List Json :=
  x.uplink.filterMap (replyOf id) ++ (x.clients id).owed (env.client id) ++
    x.downlink.filterMap (promptOf env id)

theorem promptOf_mute {id : SessionId} {message : SessionId × Json} (mute : Mute message.2) :
    promptOf env id message = none := by
  unfold Mute at mute
  simp [promptOf, mute]

theorem replyOf_own (id : SessionId) (news : List Json) :
    (news.map fun m => (id, m)).filterMap (replyOf id) = news.filter isResponse := by
  rw [List.filterMap_map, ← List.filterMap_eq_filter]
  refine List.filterMap_congr fun m _ => ?_
  simp [replyOf, Option.guard]

theorem replyOf_other {id other : SessionId} (apart : other ≠ id) (news : List Json) :
    (news.map fun m => (other, m)).filterMap (replyOf id) = [] := by
  rw [List.filterMap_map]
  refine List.filterMap_eq_nil_iff.mpr fun m _ => ?_
  simp [replyOf, apart]

/-- What a client that knows its requests has said is a response, or the server reads it as
    something else than one. -/
theorem said_reads {c : Client} (enrolled : Enrolled c) {m : Json} (said : c.MaySay m)
    (other : isResponse m = false) : (∃ req, parseMessage m.reread = .request req) ∨
      (∃ notif, parseMessage m.reread = .notification notif) ∨
        ∃ error, parseMessage m.reread = .error ⟨.null, error⟩ := by
  have named : m.contains "method" = true := by simpa [isResponse] using other
  obtain ⟨-, plain | ⟨pr, r, method, params, present, -, carries, rfl⟩⟩ := said
  · have noId : m.reread.find? "id" = none := by
      rw [Json.find?_reread, plain named]
      rfl
    obtain ⟨method, found⟩ : ∃ method, m.reread.find? "method" = some method :=
      Option.isSome_iff_exists.mp ((contains_reread m "method").trans named)
    by_cases enveloped : Enveloped m.reread
    · rw [parseMessage_eq, parseWith_notification enveloped noId found]
      unfold parseNotification
      split
      · split
        · exact .inr (.inl ⟨_, rfl⟩)
        · exact .inr (.inr ⟨_, rfl⟩)
      · exact .inr (.inr ⟨_, rfl⟩)
    · exact .inr (.inr ⟨_, by rw [parseMessage_eq, parseWith_unversioned enveloped]; rfl⟩)
  · have structured : Structured params := fun p same => .inl (carries.1 p same)
    have reads := @serializeRequest_reread ⟨r.id, method, params⟩ (enrolled.fits pr r present)
      (enrolled.number present) structured
    exact .inl ⟨_, parseMessage_request reads⟩

section
variable {x x' : Peers υ}

/-- The replies move with what is new on the downlink when nothing else moves. -/
theorem replies_grow {news : List (SessionId × Json)} (clients : x'.clients = x.clients)
    (uplink : x'.uplink = x.uplink) (downlink : x'.downlink = x.downlink ++ news) (id : SessionId) :
    x'.replies env id = x.replies env id ++ news.filterMap (promptOf env id) := by
  simp only [Peers.replies, clients, uplink, downlink, List.filterMap_append, List.append_assoc]

theorem replies_mute {news : List (SessionId × Json)} (clients : x'.clients = x.clients)
    (uplink : x'.uplink = x.uplink) (downlink : x'.downlink = x.downlink ++ news)
    (mute : ∀ message ∈ news, Mute message.2) (id : SessionId) :
    x'.replies env id = x.replies env id := by
  have none : news.filterMap (promptOf env id) = [] :=
    List.filterMap_eq_nil_iff.mpr fun message member => promptOf_mute (mute message member)
  rw [replies_grow clients uplink downlink, none, List.append_nil]

theorem inboundRequests_own {move : ClientEvent} (own : ∀ m, move ≠ .arrives m) :
    inboundRequests [move] = [] := by
  cases move with
  | arrives m => exact absurd rfl (own m)
  | _ => rfl

theorem after_replies_own (id : SessionId) (c : Client) : (x.after id c).replies env id =
    x.uplink.filterMap (replyOf id) ++
      ((c.sent.drop (x.clients id).sent.length).filter isResponse ++ c.owed (env.client id)) ++
        x.downlink.filterMap (promptOf env id) := by
  simp only [Peers.replies, Peers.after, List.filterMap_append, replyOf_own, Function.update_self,
    List.append_assoc]

theorem after_replies_other {other id : SessionId} (apart : other ≠ id) (c : Client) :
    (x.after other c).replies env id = x.replies env id := by
  simp only [Peers.replies, Peers.after, List.filterMap_append, replyOf_other apart,
    Function.update_of_ne (Ne.symm apart), List.append_nil]

section
variable {other : SessionId} {move : ClientEvent} {c : Client}
  (protocol : InProtocol (x.clients other)) (tokens : move.keepsTokensApart = true)
  (own : ∀ m, move ≠ .arrives m)
  (stepped : (x.clients other).step (env.client other) move = some c)
include protocol tokens own stepped

/-- A client turns what it owes into what is in flight, or lets it go. -/
theorem after_replies (id : SessionId) :
    ((x.after other c).replies env id).Subperm (x.replies env id) := by
  by_cases same : other = id
  · subst same
    have fewer := step_replies (env.client other) protocol tokens stepped
    rw [inboundRequests_own own, List.map_nil, List.append_nil] at fewer
    rw [after_replies_own]
    exact (List.subperm_append_right _).mpr ((List.subperm_append_left _).mpr fewer)
  · rw [after_replies_other same]

/-- With its transport it lets nothing go. -/
theorem after_replies_there (there : (x.clients other).transport = true) (id : SessionId) :
    ((x.after other c).replies env id).Perm (x.replies env id) := by
  by_cases same : other = id
  · subst same
    have kept := step_replies_there (env.client other) protocol tokens there stepped
    rw [inboundRequests_own own, List.map_nil, List.append_nil] at kept
    rw [after_replies_own]
    exact (kept.append_left _).append_right _
  · rw [after_replies_other same]

end

/-- A request that a client is handed is owed an answer instead of being in flight. -/
theorem receives_replies {place : Nat} {peer : SessionId} {message : Json}
    (taken : x.downlink[place]? = some (peer, message)) (id : SessionId) :
    (({ x with downlink := x.downlink.eraseIdx place }.deliver peer message).replies env id).Perm
      (x.replies env id) := by
  have flying := (eraseIdx_perm taken).filterMap (promptOf env id)
  by_cases same : peer = id
  · subst same
    have posted := posted_owed (env.client peer) (x.clients peer) (.message message.reread)
    have prompt : promptOf env peer (peer, message) =
        (inboundRequest message.reread).map (inboundAnswer (env.client peer)) := if_pos rfl
    simp only [Peers.replies, Peers.deliver, Function.update_self]
    refine List.perm_iff_count.mpr fun response => ?_
    have owed := posted.count_eq response
    have kept := flying.count_eq response
    rw [List.filterMap_cons, prompt] at kept
    simp only [Task.owes, List.count_append] at owed kept ⊢
    rw [owed]
    cases asked : inboundRequest message.reread
    · simp only [asked, Option.map_none, Option.toList_none, List.count_nil] at kept ⊢
      omega
    · simp only [asked, Option.map_some, Option.toList_some, List.count_cons, List.count_nil] at kept ⊢
      omega
  · have prompt : promptOf env id (peer, message) = none := if_neg same
    rw [List.filterMap_cons, prompt] at flying
    simp only [Peers.replies, Peers.deliver, Function.update_of_ne (Ne.symm same)]
    exact flying.append_left _

theorem answered_mute {s : Server υ} {news : List (Nat × Json)}
    (answers : s.answers = x.server.answers ++ news)
    (responses : ∀ answer ∈ news, isResponse answer.2 = true) :
    ∀ message ∈ x.answered s, Mute message.2 := by
  intro message member
  simp only [Peers.answered, answers, List.drop_left] at member
  obtain ⟨answer, new, made⟩ := List.mem_filterMap.mp member
  obtain ⟨peer, -, rfl⟩ := Option.map_eq_some_iff.mp made
  exact response_mute (responses answer new)

/-- What the server says to a message it takes are responses. -/
theorem onMessage_responds (info : ServerInfo) (s : Server υ) (message : Json)
    (sessionId : SessionId) :
    (s.onMessage info message sessionId false).deliveries = s.deliveries ∧ ∃ news,
      (s.onMessage info message sessionId false).answers = s.answers ++ news ∧
        ∀ answer ∈ news, isResponse answer.2 = true := by
  have queues := onMessage_takes info s message sessionId
  generalize s.onMessage info message sessionId false = s' at queues ⊢
  have quiet {jobs : List Job} (same : s'.queues = (jobs, s.deliveries, s.answers)) :
      s'.deliveries = s.deliveries ∧ ∃ news, s'.answers = s.answers ++ news ∧
        ∀ answer ∈ news, isResponse answer.2 = true :=
    ⟨congrArg (·.2.1) same, [], (congrArg (·.2.2) same).trans (List.append_nil _).symm, by simp⟩
  have one {answer : Nat × Json} (response : isResponse answer.2 = true)
      (answered : s'.queues = (s.jobs, s.deliveries, s.answers ++ [answer])) :
      s'.deliveries = s.deliveries ∧ ∃ news, s'.answers = s.answers ++ news ∧
        ∀ answer ∈ news, isResponse answer.2 = true := by
    refine ⟨congrArg (·.2.1) answered, [answer], congrArg (·.2.2) answered, fun other member => ?_⟩
    rw [List.mem_singleton.mp member]
    exact response
  cases queues with
  | answers req parsed prompt queues => exact one (processRequest_responds info req sessionId _) queues
  | echoes resp parsed queues => exact one (makeErrorResponse_responds _ _ _ _) queues
  | defers req parsed deferred queues => exact quiet queues
  | hears other queues => exact quiet queues

theorem step_responds {info : ServerInfo} {s s' : Server υ} {event : ServerEvent υ}
    (silent : ∀ delivery ∈ s.deliveries, isResponse delivery.2 = true)
    (other : ∀ message sessionId batch, event ≠ .arrives message sessionId batch)
    (h : s.step info event = some s') :
    (∀ delivery ∈ s'.deliveries, isResponse delivery.2 = true) ∧ ∃ news,
      s'.answers = s.answers ++ news ∧ ∀ answer ∈ news, isResponse answer.2 = true := by
  have quiet (same : s'.answers = s.answers) : ∃ news, s'.answers = s.answers ++ news ∧
      ∀ answer ∈ news, isResponse answer.2 = true := ⟨[], by simpa using same, by simp⟩
  cases step_passes info other h with
  | computes place job works found queues =>
    simp only [Server.queues, Prod.mk.injEq] at queues
    rw [queues.2.1]
    refine ⟨fun delivery member => ?_, quiet queues.2.2⟩
    rcases List.mem_append.mp member with old | new
    · exact silent delivery old
    · rw [List.mem_singleton.mp new]
      exact processRequest_responds info job.request job.sessionId _
  | delivers place delivery found queues =>
    simp only [Server.queues, Prod.mk.injEq] at queues
    rw [queues.2.1]
    refine ⟨fun other member => silent other (List.mem_of_mem_eraseIdx member), [delivery],
      queues.2.2, fun other member => ?_⟩
    rw [List.mem_singleton.mp member]
    exact silent delivery (List.mem_of_getElem? found)
  | drops queues =>
    simp only [Server.queues, Prod.mk.injEq] at queues
    rw [queues.2.1]
    exact ⟨fun delivery member => absurd member List.not_mem_nil, quiet queues.2.2⟩
  | rests queues =>
    simp only [Server.queues, Prod.mk.injEq] at queues
    rw [queues.2.1]
    exact ⟨silent, quiet queues.2.2⟩

/-- A message that the server takes is not in flight any more. -/
theorem handle_replies {place : Nat} {peer : SessionId} {m : Json}
    (taken : x.uplink[place]? = some (peer, m)) (id : SessionId) :
    ((replyOf id (peer, m)).toList ++
      ({ x with uplink := x.uplink.eraseIdx place }.handle env peer m).replies env id).Perm
        (x.replies env id) := by
  let before : Peers υ := { x with uplink := x.uplink.eraseIdx place, sinks := x.sinks ++ [peer] }
  obtain ⟨-, news, answers, responses⟩ := onMessage_responds env.info x.server m.reread peer
  have mute := @answered_mute υ before _ news answers responses
  have same := @replies_mute υ env before
    ({ x with uplink := x.uplink.eraseIdx place }.handle env peer m) _ rfl rfl rfl mute id
  have flying := (eraseIdx_perm taken).filterMap (replyOf id)
  rw [List.filterMap_cons] at flying
  rw [same]
  simp only [Peers.replies, ← List.append_assoc]
  refine List.Perm.append_right _ (List.Perm.append_right _ (.trans ?_ flying))
  cases replyOf id (peer, m) <;> exact .refl _

/-- The server is owed an answer to what it asks. -/
theorem serve_replies {event : ServerEvent υ} {s : Server υ}
    (silent : ∀ delivery ∈ x.server.deliveries, isResponse delivery.2 = true)
    (other : ∀ message sessionId batch, event ≠ .arrives message sessionId batch)
    (stepped : x.server.step env.info event = some s) (id : SessionId) :
    (x.serve event s).replies env id = x.replies env id ++
      ((x.server.asked s event).map fun m => (event.sessionId, m)).filterMap (promptOf env id) := by
  obtain ⟨-, news, answers, responses⟩ := step_responds silent other stepped
  have none : (x.answered s).filterMap (promptOf env id) = [] :=
    List.filterMap_eq_nil_iff.mpr fun message member =>
      promptOf_mute (answered_mute answers responses message member)
  rw [@replies_grow υ env x (x.serve event s) _ rfl rfl (List.append_assoc _ _ _) id,
    List.filterMap_append, none, List.nil_append]

end

end CppMcp
