import CppMcp.Http.Crossing

namespace CppMcp

open Lib

variable {υ : Type}

variable (env : ExchangeEnv υ)

/-- Everything in flight is owed to the client, and it is errored for good reason only. -/
structure Sound (x : Exchange υ) : Prop where
  correlated : Correlated x.client
  nullFree : NullFree x.client
  sent : ∀ m ∈ x.client.sent, Spoken m
  queued : ∀ m, .send m ∈ x.client.strand → Spoken m
  uplink : ∀ m ∈ x.uplink, Spoken m
  answering : Answering x.server.world
  arrivals : ∀ raw ∈ x.server.world.arrivals, Posted raw
  downlink : ∀ r answering, (r, answering) ∈ x.downlink → ∀ attached sseOpen,
    ∀ m ∈ (env.codec.handleResponse attached sseOpen r.received).messages, x.Owed answering m
  pushes : ∀ m ∈ x.pushes, x.Fair m.reread
  strand : List.Forall₂ (fun m answering => x.Owed answering m) x.client.messages x.origins
  errored : ∀ (pr : Nat) r, x.client.requests[pr]? = some r → r.state = .errored → x.Refused r.id

theorem forall₂_grow {x x' : Exchange υ} (grows : x.Grows x') {messages : List Json}
    {origins : List Bool}
    (owed : List.Forall₂ (fun m answering => x.Owed answering m) messages origins) :
    List.Forall₂ (fun m answering => x'.Owed answering m) messages origins :=
  owed.imp fun _ _ owed => Exchange.Owed.grow grows owed

theorem initial_sound (user : υ) : Sound env (Exchange.initial user) where
  correlated := initial_correlated true
  nullFree := ⟨fun pr r found => by simp [Exchange.initial, Client.initial] at found,
    by simp [Exchange.initial, Client.initial]⟩
  sent m member := by simp [Exchange.initial, Client.initial] at member
  queued m member := by simp [Exchange.initial, Client.initial] at member
  uplink m member := by simp [Exchange.initial] at member
  answering := initial_answering user
  arrivals raw member := by simp [Exchange.initial, Server.initial] at member
  downlink r answering member := by simp [Exchange.initial] at member
  pushes m member := by simp [Exchange.initial] at member
  strand := .nil
  errored pr r found := by simp [Exchange.initial, Client.initial] at found

theorem Sound.deliver {x : Exchange υ} (inv : Sound env x) (answering : Bool) {messages : List Json}
    (owed : ∀ m ∈ messages, x.Owed answering m) : Sound env (x.deliver answering messages) := by
  have same : x.Grows (x.deliver answering messages) := .of_eq rfl rfl
  refine { inv with
    correlated := inv.correlated.congr rfl rfl rfl rfl
    nullFree := inv.nullFree.congr rfl rfl
    queued := fun m member => ?_
    strand := ?_ }
  · rcases List.mem_append.mp member with old | new
    · exact inv.queued m old
    · simp at new
  · have messages' : (x.deliver answering messages).client.messages =
        x.client.messages ++ messages := by
      simp [Exchange.deliver, Client.messages, List.filterMap_map, Function.comp_def, Task.message?]
    rw [messages']
    apply List.rel_append (forall₂_grow same inv.strand)
    rw [List.forall₂_map_right_iff, List.forall₂_same]
    exact fun m member => Exchange.Owed.grow same (owed m member)

theorem forall₂_tail {α β : Type} {R : α → β → Prop} {xs : List α} {ys : List β}
    (all : List.Forall₂ R xs ys) : List.Forall₂ R xs.tail ys.tail := by
  cases all with
  | nil => exact .nil
  | cons _ rest => exact rest

/-- An error that the client is about to handle is owed to it, unless it crosses. -/
theorem Sound.errs {x : Exchange υ} (inv : Sound env x) {m : Json} {rest : List Task}
    (head : x.client.strand = .message m :: rest)
    (apart : x.crosses (.client .runTask) = false) {pr : Nat} (errs : x.client.ErrsBy m pr) :
    ∃ r, x.client.requests[pr]? = some r ∧ x.Refused r.id := by
  obtain ⟨resp, parsed, lookup⟩ := errs
  obtain ⟨r, present, key⟩ := inv.correlated.entries resp.id pr lookup
  refine ⟨r, present, ?_⟩
  have first : x.client.messages = m :: rest.filterMap Task.message? := by
    simp [Client.messages, head, Task.message?]
  have owed := inv.strand
  rw [first] at owed
  cases origins : x.origins with
  | nil =>
    rw [origins] at owed
    cases owed
  | cons answering behind =>
    rw [origins] at owed
    obtain ⟨owed, -⟩ := List.forall₂_cons.mp owed
    cases answering with
    | true => simp [Exchange.crosses, head, origins, Client.answersStored, parsed, lookup] at apart
    | false =>
      rcases owed resp parsed with null | ⟨n, number, refused⟩
      · rw [null, inv.nullFree.unkeyed] at lookup
        cases lookup
      · have own : r.id = resp.id := by
          rcases key with same | ⟨-, token⟩
          · exact same.symm
          · rw [number] at token ⊢
            exact inv.correlated.tokens pr r n present token.symm
        rw [own]
        exact refused

theorem Sound.client {x : Exchange υ} (inv : Sound env x) {event : ClientEvent} {c : Client}
    (other : ∀ m, event ≠ .arrives m) (orderly : x.Orderly (.client event))
    (h : x.client.step env.client event = some c) : Sound env (x.after event c) := by
  obtain ⟨apart, uncrossed, accepts⟩ := orderly
  have same : x.Grows (x.after event c) := .of_eq rfl rfl
  have ids : ∀ (pr : Nat) r, x.client.requests[pr]? = some r → ∃ n, r.id = .int n := by
    intro pr r found
    obtain ⟨n, id, -⟩ := inv.correlated.ids pr r found
    exact ⟨n, id⟩
  have speaks := step_speaks env.client h inv.queued ids
  have sent : ∀ m ∈ c.sent, Spoken m := fun m member => (speaks.sent m member).elim (inv.sent m) id
  refine { inv with
    correlated := step_correlated env.client inv.correlated apart h
    nullFree := step_nullFree env.client inv.nullFree h
    sent := sent
    queued := fun m member => (speaks.queued m member).elim (inv.queued m) id
    uplink := fun m member => ?_
    strand := ?_
    errored := fun pr r found errored => ?_ }
  · rcases List.mem_append.mp member with old | new
    · exact inv.uplink m old
    · exact sent m (List.mem_of_mem_drop new)
  · have taken : (x.after event c).client.messages = _ := step_messages env.client other h
    rw [taken]
    simp only [Exchange.after]
    split
    · exact forall₂_tail (forall₂_grow same inv.strand)
    · exact forall₂_grow same inv.strand
  · have fine : ∀ m rest, event = .runTask → x.client.strand = .message m :: rest →
        x.client.refusesMessage m = false := by
      rintro m rest rfl head
      simpa [Exchange.refusesHandshake, head] using accepts
    have blamed : ∃ r₀, x.client.requests[pr]? = some r₀ ∧ x.Refused r₀.id := by
      rcases step_errored env.client h fine pr r found errored with
        ⟨r₀, present, was⟩ | ⟨m, rest, rfl, head, errs⟩
      · exact ⟨r₀, present, inv.errored pr r₀ present was⟩
      · exact inv.errs env head uncrossed errs
    obtain ⟨r₀, present, refused⟩ := blamed
    obtain ⟨r', found', id⟩ := step_id env.client h present
    have only : r' = r := Option.some.inj (found'.symm.trans found)
    rw [← only, id]
    exact refused.grow same

/-- What the client reads of a response to a message of its own is owed to it. -/
theorem post_owed {x : Exchange υ} {message : Json} (spoken : Spoken message)
    {answers : List Json} (fair : ∀ response ∈ answers, x.Fair response.reread)
    (unanswered : message.contains "method" = false → answers = [])
    (refusals : ∀ id ∈ env.refused message, id ∈ x.refusals) {r : HttpResponse} (plain : r.Plain)
    (made : PostReply env answers message r) {attached sseOpen : Bool} {m : Json}
    (member : m ∈ (env.codec.handleResponse attached sseOpen r.received).messages) :
    x.Owed (!message.contains "method") m := by
  rcases received_messages env.codec plain member with ⟨resp, parsed, null⟩ | ⟨status, body, read⟩
  · exact Exchange.owed_of_null _ parsed null
  · cases made with
    | fails failed =>
      rw [failed] at status
      cases status
    | acknowledges empty => exact absurd empty body
    | answers response new text =>
      rw [text] at read
      rw [env.rereads response m read]
      cases named : message.contains "method" with
      | true => exact fair response new
      | false =>
        rw [unanswered named] at new
        cases new
    | rejects resp echoed parsed text =>
      rw [text] at read
      rw [env.rereads _ m read]
      cases named : message.contains "method" with
      | false => exact error_reread _ _ _ _
      | true =>
        intro resp' parsed'
        have own : (makeErrorResponse resp.id resp.error.code resp.error.message
            resp.error.data).find? "id" = some (requestIdToJson resp.id) := by
          simp [makeErrorResponse, find?_mk]
        have fits : resp.id.Fits := by
          rcases parseMessage_error parsed with null | ⟨j, -, ok⟩
          · rw [null]
            exact True.intro
          · exact fromJson_fits ok
        rcases error_id fits own parsed' with null | same
        · exact .inl null
        · rw [same]
          rcases spoken.refused named parsed with null | ⟨n, number⟩
          · exact .inl null
          · refine .inr ⟨n, number, .inl (refusals _ ?_)⟩
            simp [ExchangeEnv.refused, echoed, parsed, named]

/-- The server's end has taken a step after which its answers are fair. -/
structure Serves (x x' : Exchange υ) : Prop where
  grows : x.Grows x'
  client : x'.client = x.client
  origins : x'.origins = x.origins
  uplink : ∀ m ∈ x'.uplink, m ∈ x.uplink
  answering : Answering x'.server.world
  arrivals : ∀ raw ∈ x'.server.world.arrivals, Posted raw
  downlink : ∀ r answering, (r, answering) ∈ x'.downlink → (r, answering) ∈ x.downlink ∨
    ∀ attached sseOpen, ∀ m ∈ (env.codec.handleResponse attached sseOpen r.received).messages,
      x'.Owed answering m
  pushes : ∀ m ∈ x'.pushes, m ∈ x.pushes ∨ x'.Fair m.reread

theorem Sound.serves {x x' : Exchange υ} (inv : Sound env x) (serves : Serves env x x') :
    Sound env x' where
  correlated := serves.client ▸ inv.correlated
  nullFree := serves.client ▸ inv.nullFree
  sent := serves.client ▸ inv.sent
  queued := serves.client ▸ inv.queued
  uplink m member := inv.uplink m (serves.uplink m member)
  answering := serves.answering
  arrivals := serves.arrivals
  downlink r answering member attached sseOpen m received := by
    rcases serves.downlink r answering member with old | new
    · exact Exchange.Owed.grow serves.grows (inv.downlink r answering old attached sseOpen m received)
    · exact new attached sseOpen m received
  pushes m member := (serves.pushes m member).elim
    (fun old => Exchange.Fair.grow serves.grows (inv.pushes m old)) id
  strand := by
    rw [serves.client, serves.origins]
    exact forall₂_grow serves.grows inv.strand
  errored pr r found errored := by
    rw [serves.client] at found
    exact (inv.errored pr r found errored).grow serves.grows

theorem Server.Adds.grows {s s' : Server υ} (adds : s.Adds s') :
    (∀ (sink : Nat) raw, s.arrivals[sink]? = some raw → s'.arrivals[sink]? = some raw) ∧
      ∀ answer ∈ s.answers, answer ∈ s'.answers := by
  obtain ⟨added, answers⟩ := adds.answers
  refine ⟨fun sink raw found => adds.arrivals ▸ found, fun answer member => ?_⟩
  rw [answers]
  exact List.mem_append_left _ member

theorem serve_serves {x : Exchange υ} (inv : Sound env x) {event : ServerEvent υ} {s : Server υ}
    (other : ∀ message sessionId batch, event ≠ .arrives message sessionId batch)
    (h : x.server.world.step env.info event = some s) : Serves env x (x.serve env event s) := by
  have adds := step_adds env.info other h
  obtain ⟨arrivals, answers⟩ := adds.grows
  have answering : Answering (x.serve env event s).server.world :=
    step_answering env.info inv.answering h
  have posted : ∀ raw ∈ (x.serve env event s).server.world.arrivals, Posted raw := by
    intro raw member
    exact inv.arrivals raw (adds.arrivals ▸ member)
  refine ⟨⟨fun _ member => member, arrivals, answers⟩, rfl, rfl, fun _ member => member, answering,
    posted, fun r tag member => ?_, fun m member => ?_⟩
  · rcases List.mem_append.mp member with old | new
    · exact .inl old
    · obtain ⟨response, called, made⟩ := List.mem_map.mp new
      cases made
      refine .inr fun attached sseOpen m received => ?_
      obtain ⟨sink, answer⟩ := adds.answered called
      rcases received_messages env.codec (.inl rfl) received with ⟨resp, parsed, null⟩ | ⟨-, -, read⟩
      · exact Exchange.owed_of_null _ parsed null
      · rw [env.rereads response m read]
        exact Exchange.fair_answer answering posted answer
  · rcases List.mem_append.mp member with old | new
    · exact .inl old
    · obtain ⟨req, parsed⟩ := asks_request (step_asks env.info h m new)
      refine .inr fun resp failed => ?_
      rw [parsed] at failed
      cases failed

/-- The server's world after `handle_post`: it has seen nothing, or one posted message more. -/
theorem handlesPost_world {t : HttpTransport (Server υ)} {message : Json} (spoken : Spoken message)
    (answering : Answering t.world) (posted : ∀ raw ∈ t.world.arrivals, Posted raw)
    (working : t.world.stopping = false) {handled : Handled (Server υ)}
    (handles : HandlesPost env t message handled) :
    Answering handled.transport.world ∧ (∀ raw ∈ handled.transport.world.arrivals, Posted raw) ∧
      (∀ (sink : Nat) raw, t.world.arrivals[sink]? = some raw →
        handled.transport.world.arrivals[sink]? = some raw) ∧
      (∀ answer ∈ t.world.answers, answer ∈ handled.transport.world.answers) ∧
      (∀ response ∈ t.world.answered handled.transport.world,
        ∃ sink, (sink, response) ∈ handled.transport.world.answers) ∧
      (message.contains "method" = false →
        t.world.answered handled.transport.world = []) := by
  rcases handles.world with same | ⟨valid, id, served⟩
  · rw [same]
    refine ⟨answering, posted, fun _ _ found => found, fun _ member => member, ?_, ?_⟩
    · intro response member
      simp [Server.answered] at member
    · simp [Server.answered]
  · have adds := onMessage_adds env.info t.world message.reread id false
    rw [served]
    obtain ⟨arrivals, answers⟩ := adds.grows
    have arrives : t.world.step env.info (.arrives message.reread id false) =
        some (t.world.onMessage env.info message.reread id false) := by
      simp [Server.step, working]
    refine ⟨step_answering env.info answering arrives, fun raw member => ?_,
      fun sink raw found => arrivals sink raw (arrivals_kept found), answers,
      fun response member => adds.answered member, fun unnamed => ?_⟩
    · rw [adds.arrivals] at member
      rcases List.mem_append.mp member with old | new
      · exact posted raw old
      · rw [List.mem_singleton.mp new]
        exact ⟨valid, fun req parsed => spoken.numbered parsed⟩
    · exact unnamed_unanswered env.info t.world id ((contains_reread message "method").trans unnamed)
        valid

/-- `handle_post` takes a message of the client's. -/
theorem handle_serves {x : Exchange υ} (inv : Sound env x) {message : Json}
    (spoken : Spoken message) (working : x.server.world.stopping = false)
    (newId sessionId : SessionId) : Serves env x (x.handle env message newId sessionId) := by
  have handles := handlePost_handles env x.server newId sessionId spoken.keyed
  obtain ⟨answering, posted, arrivals, answers, called, unanswered⟩ :=
    handlesPost_world env spoken inv.answering inv.arrivals working handles
  have fair : ∀ response ∈ x.server.world.answered (x.handle env message newId sessionId).server.world,
      (x.handle env message newId sessionId).Fair response.reread := by
    intro response member
    obtain ⟨sink, answer⟩ := called response member
    exact Exchange.fair_answer answering posted answer
  refine ⟨⟨fun _ member => List.mem_append_left _ member, arrivals, answers⟩, rfl, rfl,
    fun _ member => member, answering, posted, fun r tag member => ?_, fun m member => ?_⟩
  · rcases List.mem_append.mp member with old | new
    · exact .inl old
    · obtain ⟨r', written, made⟩ := List.mem_map.mp new
      cases made
      obtain ⟨write, member, response⟩ := List.mem_filterMap.mp written
      cases write with
      | stream headers opening => cases response
      | response r' =>
        cases response
        obtain ⟨plain, reply⟩ := handles.replies r member
        exact .inr fun attached sseOpen m received => post_owed env spoken fair unanswered
          (fun id refused => List.mem_append_right _ refused) plain reply received
  · rcases List.mem_append.mp member with old | new
    · exact .inl old
    · obtain ⟨push, member, same⟩ := List.mem_map.mp new
      exact .inr (same ▸ fair push.2 (handles.pushed push member))

theorem serializeNotification_unnumbered (notif : JsonRpcNotification) :
    (serializeNotification notif).find? "id" = none := by
  unfold serializeNotification
  cases notif.params <;> simp [find?_mk]

theorem step_sound {x x' : Exchange υ} {event : ExchangeEvent υ} (inv : Sound env x)
    (orderly : x.Orderly event) (h : x.step env event = some x') : Sound env x' := by
  cases event with
  | client event =>
    have other : ∀ m, event ≠ .arrives m := by
      rintro m rfl
      cases h
    have took : (x.client.step env.client event).map (x.after event) = some x' := by
      cases event with
      | arrives m => exact absurd rfl (other m)
      | _ => exact h
    obtain ⟨c, stepped, rfl⟩ := Option.map_eq_some_iff.mp took
    exact inv.client env other orderly stepped
  | handles place newId sessionId =>
    simp only [Exchange.step] at h
    split at h
    · rename_i message found
      simp only [Option.ite_none_left_eq_some, Option.some.injEq, Bool.not_eq_true] at h
      obtain ⟨working, rfl⟩ := h
      have taken : Sound env { x with uplink := x.uplink.eraseIdx place } :=
        { inv with uplink := fun m member => inv.uplink m (List.mem_of_mem_eraseIdx member) }
      exact taken.serves env (handle_serves env taken
        (inv.uplink message (List.mem_of_getElem? found)) working newId sessionId)
    · cases h
  | serves event =>
    have other : ∀ message sessionId batch, event ≠ .arrives message sessionId batch := by
      rintro message sessionId batch rfl
      cases h
    have took : (x.server.world.step env.info event).map (x.serve env event) = some x' := by
      cases event with
      | arrives message sessionId batch => exact absurd rfl (other message sessionId batch)
      | _ => exact h
    obtain ⟨s, stepped, rfl⟩ := Option.map_eq_some_iff.mp took
    exact inv.serves env (serve_serves env inv other stepped)
  | notifies notif =>
    cases h
    refine { inv with pushes := fun m member => ?_ }
    rcases List.mem_append.mp member with old | new
    · exact inv.pushes m old
    · rw [List.mem_singleton.mp new]
      exact Exchange.fair_of_null fun resp parsed =>
        error_id_null (serializeNotification_unnumbered notif) parsed
  | receives place attached sseOpen =>
    simp only [Exchange.step] at h
    split at h
    · rename_i r answering found
      cases h
      have taken : Sound env { x with downlink := x.downlink.eraseIdx place } :=
        { inv with
          downlink := fun r answering member =>
            inv.downlink r answering (List.mem_of_mem_eraseIdx member) }
      exact taken.deliver env answering
        (inv.downlink r answering (List.mem_of_getElem? found) attached sseOpen)
    · cases h
  | pushed place =>
    simp only [Exchange.step] at h
    split at h
    · rename_i message found
      cases h
      have taken : Sound env { x with pushes := x.pushes.eraseIdx place } :=
        { inv with pushes := fun m member => inv.pushes m (List.mem_of_mem_eraseIdx member) }
      refine taken.deliver env false fun m member => ?_
      have read := env.rereads message m (Option.mem_toList.mp member)
      rw [read]
      exact inv.pushes message (List.mem_of_getElem? found)
    · cases h

theorem run_sound {user : υ} {events : List (ExchangeEvent υ)} {x : Exchange υ}
    (orderly : Meets (Exchange.step env) Exchange.Orderly (Exchange.initial user) events)
    (h : run (Exchange.step env) (Exchange.initial user) events = some x) : Sound env x :=
  run_invariant (fun _ _ _ inv orderly h => step_sound env inv orderly h) (initial_sound env user)
    orderly h

/-- What came back for an answer of the client's is an error to nobody. -/
theorem Sound.returned {x : Exchange υ} (inv : Sound env x) {m : Json} {rest : List Task}
    (head : x.client.strand = .message m :: rest) (answering : x.origins.head? = some true)
    (uncrossed : x.crosses (.client .runTask) = false) : ∃ resp,
      parseMessageClient m = .error resp ∧ x.client.pendingMap.lookup resp.id = none := by
  have first : x.client.messages = m :: rest.filterMap Task.message? := by
    simp [Client.messages, head, Task.message?]
  have owed := inv.strand
  obtain ⟨behind, origins⟩ := List.head?_eq_some_iff.mp answering
  rw [first, origins] at owed
  obtain ⟨⟨resp, parsed⟩, -⟩ := List.forall₂_cons.mp owed
  refine ⟨resp, parsed, ?_⟩
  simpa [Exchange.crosses, head, origins, Client.answersStored, parsed] using uncrossed

/-- The steps about an answer of the client's leave the client's own requests alone. -/
theorem Sound.answer_keeps {x x' : Exchange υ} {event : ExchangeEvent υ} (inv : Sound env x)
    (uncrossed : x.crosses event = false) (about : x.concernsAnswer event = true)
    (h : x.step env event = some x') : x'.client.requests = x.client.requests := by
  cases event with
  | client event =>
    cases event with
    | runJob place =>
      obtain ⟨c, stepped, rfl⟩ := Option.map_eq_some_iff.mp h
      cases step_cases stepped
      rfl
    | runTask =>
      obtain ⟨c, stepped, rfl⟩ := Option.map_eq_some_iff.mp h
      cases step_cases stepped with
      | runTask task rest head =>
        cases task with
        | send m => exact (rawSend_aside { x.client with strand := rest } m).requests
        | message m =>
          have handled : ∃ c, Client.onTransportMessage env.client
              { x.client with strand := rest } m = .ok c ∧ c.requests = x.client.requests := by
            cases parsed : parseMessageClient m with
            | request req =>
              simp only [Client.onTransportMessage, parsed]
              exact ⟨_, rfl, (handleInboundRequest_aside env.client _ req).requests⟩
            | _ =>
              have answering : x.origins.head? = some true := by
                simpa [Exchange.concernsAnswer, head, parsed] using about
              obtain ⟨resp, failed, absent⟩ := inv.returned env head answering uncrossed
              simp only [Client.onTransportMessage, failed, Client.completePending, absent]
              exact ⟨_, rfl, rfl⟩
          obtain ⟨c, handled, same⟩ := handled
          simp only [Exchange.after, Client.runTask, handled]
          exact same
        | _ => simp [Exchange.concernsAnswer, head] at about
    | _ => cases about
  | handles place newId sessionId =>
    simp only [Exchange.step] at h
    split at h
    · simp only [Option.ite_none_left_eq_some, Option.some.injEq] at h
      obtain ⟨-, rfl⟩ := h
      rfl
    · cases h
  | receives place attached sseOpen =>
    simp only [Exchange.step] at h
    split at h
    · cases h
      rfl
    · cases h
  | _ => cases about

/-- In a run that crosses no ids, a request of the client's is errored only when the server's
    end has answered it with an error, and no step about an answer of the client's changes a
    request. -/
theorem id_spaces_apart (user : υ) (events : List (ExchangeEvent υ)) (x : Exchange υ)
    (orderly : Meets (Exchange.step env) Exchange.Orderly (Exchange.initial user) events)
    (h : run (Exchange.step env) (Exchange.initial user) events = some x) :
    (∀ (pr : Nat) r, x.client.requests[pr]? = some r → r.state = .errored → x.Refused r.id) ∧
      ∀ event x', x.crosses event = false → x.concernsAnswer event = true →
        x.step env event = some x' → x'.client.requests = x.client.requests := by
  have inv : Sound env x := run_sound env orderly h
  exact ⟨inv.errored, fun event x' uncrossed about stepped =>
    inv.answer_keeps env uncrossed about stepped⟩

/-- A JSON library that knows the texts of a table. -/
def tableCodec (table : List (Json × Bytes)) : JsonCodec where
  dump j := (table.lookup j).getD []
  parse text := (table.find? fun entry => entry.2 == text).map fun entry => entry.1.reread

theorem tableCodec_rereads {table : List (Json × Bytes)}
    (distinct : ([] :: table.map Prod.snd).Nodup) (j j' : Json)
    (h : (tableCodec table).parse ((tableCodec table).dump j) = some j') : j' = j.reread := by
  obtain ⟨fresh, nodup⟩ := List.nodup_cons.mp distinct
  simp only [tableCodec, Option.map_eq_some_iff] at h
  obtain ⟨⟨k, text⟩, found, rfl⟩ := h
  have member : (k, text) ∈ table := List.mem_of_find?_eq_some found
  have same : text = (table.lookup j).getD [] := by simpa using List.find?_some found
  cases known : table.lookup j with
  | none =>
    rw [known] at same
    exact absurd (List.mem_map.mpr ⟨_, member, same⟩) fresh
  | some own =>
    rw [known] at same
    obtain ⟨before, behind, split, -⟩ := List.lookup_eq_some_iff.mp known
    have entry : (j, own) ∈ table := by simp [split]
    have unique : (k, text) = (j, own) := List.inj_on_of_nodup_map nodup member entry same
    rw [(Prod.mk.inj unique).1]

def utf8 (s : String) : Bytes := s.toByteArray.data.toList

def greeting : Json :=
  .mk [("protocolVersion", .string "2025-06-18"), ("capabilities", .mk [("roots", .object [])]),
    ("clientInfo", .mk [("name", .string "c"), ("version", .string "1")])]

def greeted : Json :=
  .mk [("protocolVersion", .string "2025-06-18"), ("capabilities", .object []),
    ("serverInfo", .mk [("name", .string "s"), ("version", .string "1")])]

def rootsRequest (id : Int) : Json := serializeRequest ⟨.int id, "roots/list", some (.object [])⟩

/-- A client without a handler answers a request of the server's. -/
def rootsRefused (id : Int) : Json :=
  makeErrorResponse (.int id) Protocol.methodNotFound "Method not found: roots/list"

/-- `handle_post` takes the answer for a malformed message and returns it. -/
def rootsEchoed (id : Int) : Json :=
  makeErrorResponse (.int id) Protocol.invalidRequest
    "Server received a response message (unexpected)"

def exchangeTable : List (Json × Bytes) :=
  [(serializeRequest ⟨.int 1, "initialize", some greeting⟩,
      utf8 ("\x7b\"id\":1,\"jsonrpc\":\"2.0\",\"method\":\"initialize\",\"params\":" ++
        "\x7b\"capabilities\":\x7b\"roots\":\x7b\x7d\x7d,\"clientInfo\":\x7b\"name\":\"c\"," ++
        "\"version\":\"1\"\x7d,\"protocolVersion\":\"2025-06-18\"\x7d\x7d")),
    (makeSuccessResponse (.int 1) greeted,
      utf8 ("\x7b\"id\":1,\"jsonrpc\":\"2.0\",\"result\":\x7b\"capabilities\":\x7b\x7d," ++
        "\"protocolVersion\":\"2025-06-18\",\"serverInfo\":\x7b\"name\":\"s\"," ++
        "\"version\":\"1\"\x7d\x7d\x7d")),
    (serializeRequest ⟨.int 2, "tools/list", none⟩,
      utf8 "\x7b\"id\":2,\"jsonrpc\":\"2.0\",\"method\":\"tools/list\"\x7d"),
    (makeErrorResponse (.int 2) Protocol.serverNotInitialized
        "Server not initialized. Send initialize request first.",
      utf8 ("\x7b\"error\":\x7b\"code\":-32002,\"message\":\"Server not initialized. " ++
        "Send initialize request first.\"\x7d,\"id\":2,\"jsonrpc\":\"2.0\"\x7d")),
    (rootsRequest 1,
      utf8 "\x7b\"id\":1,\"jsonrpc\":\"2.0\",\"method\":\"roots/list\",\"params\":\x7b\x7d\x7d"),
    (rootsRequest 2,
      utf8 "\x7b\"id\":2,\"jsonrpc\":\"2.0\",\"method\":\"roots/list\",\"params\":\x7b\x7d\x7d"),
    (rootsRefused 1,
      utf8 ("\x7b\"error\":\x7b\"code\":-32601,\"message\":\"Method not found: roots/list\"\x7d," ++
        "\"id\":1,\"jsonrpc\":\"2.0\"\x7d")),
    (rootsRefused 2,
      utf8 ("\x7b\"error\":\x7b\"code\":-32601,\"message\":\"Method not found: roots/list\"\x7d," ++
        "\"id\":2,\"jsonrpc\":\"2.0\"\x7d")),
    (rootsEchoed 1,
      utf8 ("\x7b\"error\":\x7b\"code\":-32600,\"message\":\"Server received a response message " ++
        "(unexpected)\"\x7d,\"id\":1,\"jsonrpc\":\"2.0\"\x7d")),
    (rootsEchoed 2,
      utf8 ("\x7b\"error\":\x7b\"code\":-32600,\"message\":\"Server received a response message " ++
        "(unexpected)\"\x7d,\"id\":2,\"jsonrpc\":\"2.0\"\x7d"))]

set_option maxRecDepth 4000 in
theorem exchangeTable_distinct : ([] :: exchangeTable.map Prod.snd).Nodup := by decide

def exchangeEnv : ExchangeEnv Unit where
  info := { serverInfo := ⟨"s", "1"⟩ }
  codec := tableCodec exchangeTable
  rereads := tableCodec_rereads exchangeTable_distinct

def exchangeSession : SessionId := ascii "s"

/-- The client is initialized and lists tools, and the server asks for roots twice. -/
def bothAsk : List (ExchangeEvent Unit) :=
  ExchangeEvent.client .connect ::
    (submission { method := "initialize", params := some greeting }).map ExchangeEvent.client ++
    [ExchangeEvent.serves (.runs true), .handles 0 exchangeSession [], .receives 0 true true,
      .client .runTask] ++
    (submission { method := "tools/list" }).map ExchangeEvent.client ++
    [ExchangeEvent.serves (.requestsRoots {} exchangeSession true),
      .serves (.requestsRoots {} exchangeSession true)]

/-- A request of the server's comes over, the client answers it, and `handle_post` returns
    the answer. -/
def rootsAnswered (push post : Nat) : List (ExchangeEvent Unit) :=
  [.pushed push, .client .runTask, .client .runTask, .handles post [] exchangeSession,
    .receives 0 true true]

def refusedListing : List (ExchangeEvent Unit) :=
  bothAsk ++
    [ExchangeEvent.handles 1 [] exchangeSession, .receives 0 true true, .client .runTask] ++
    rootsAnswered 0 1

/-- The listing is answered with an error, and what comes back for an answer of the client's
    does nothing. -/
theorem refused_listing_errored : ∃ x r,
    run (Exchange.step exchangeEnv) (Exchange.initial ()) refusedListing = some x ∧
      x.client.requests[1]? = some r ∧ r.state = .errored ∧ x.Refused r.id ∧
      ∀ x', x.step exchangeEnv (.client .runTask) = some x' →
        x'.client.requests = x.client.requests := by
  have shape : (run (Exchange.step exchangeEnv) (Exchange.initial ()) refusedListing).map
      (fun x => ((x.client.requests[1]?).map fun r => r.state, x.crosses (.client .runTask),
        x.concernsAnswer (.client .runTask))) =
        some (some RequestState.errored, false, true) := by
    decide +kernel
  have orderly : Meets (Exchange.step exchangeEnv) Exchange.Orderly (Exchange.initial ())
      refusedListing := by
    decide +kernel
  obtain ⟨x, h, seen⟩ := Option.map_eq_some_iff.mp shape
  obtain ⟨state, seen⟩ := Prod.mk.inj seen
  obtain ⟨uncrossed, about⟩ := Prod.mk.inj seen
  obtain ⟨r, present, errored⟩ := Option.map_eq_some_iff.mp state
  obtain ⟨refused, keeps⟩ := id_spaces_apart exchangeEnv () refusedListing x orderly h
  exact ⟨x, r, h, present, errored, refused 1 r present errored, fun x' stepped =>
    keeps (.client .runTask) x' uncrossed about stepped⟩

def isRequestFor (id : RequestId) (raw : Json) : Bool :=
  match parseMessage raw with
  | .request req => req.id == id
  | _ => false

theorem not_refused {x : Exchange υ} {id : RequestId} (none : x.refusals = [])
    (unseen : x.server.world.arrivals.any (isRequestFor id) = false) : ¬ x.Refused id := by
  rintro (member | ⟨sink, raw, req, response, resp, arrived, parsed, own, -⟩)
  · rw [none] at member
    cases member
  · have seen := List.any_eq_false.mp unseen raw (List.mem_of_getElem? arrived)
    simp [isRequestFor, parsed, own] at seen

/-- The client's answer to the second request of the server's comes back as an error, and
    completes the client's own second request, which the server has not seen. -/
theorem echoed_error_crosses : ∃ x r,
    run (Exchange.step exchangeEnv) (Exchange.initial ())
        (bothAsk ++ rootsAnswered 1 2 ++ [ExchangeEvent.client .runTask]) = some x ∧
      x.client.requests[1]? = some r ∧ r.id = .int 2 ∧ r.state = .errored ∧
      ¬ x.Refused (.int 2) := by
  have shape : (run (Exchange.step exchangeEnv) (Exchange.initial ())
      (bothAsk ++ rootsAnswered 1 2 ++ [ExchangeEvent.client .runTask])).map
      (fun x => ((x.client.requests[1]?).map fun r => (r.id, r.state), x.refusals,
        x.server.world.arrivals.any (isRequestFor (.int 2)))) =
      some (some (RequestId.int 2, RequestState.errored), [], false) := by
    decide +kernel
  obtain ⟨x, h, seen⟩ := Option.map_eq_some_iff.mp shape
  obtain ⟨state, seen⟩ := Prod.mk.inj seen
  obtain ⟨none, unseen⟩ := Prod.mk.inj seen
  obtain ⟨r, present, same⟩ := Option.map_eq_some_iff.mp state
  obtain ⟨id, errored⟩ := Prod.mk.inj same
  exact ⟨x, r, h, present, id, errored, not_refused none unseen⟩

end CppMcp
