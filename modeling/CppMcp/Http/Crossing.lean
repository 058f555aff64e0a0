import CppMcp.Http.Replies

namespace CppMcp

open Lib

variable {υ : Type}

theorem asks_request {m : Json} (asks : Asks m) :
    ∃ req, parseMessageClient m.reread = .request req := by
  obtain ⟨rid, method, params, keyed, rfl⟩ := asks
  obtain ⟨k, typed⟩ := isId_ofInt rid
  cases params with
  | object members =>
    refine ⟨⟨.int k, method, some (Json.object members).reread⟩, parseMessageClient_request ?_⟩
    refine ⟨?_, ⟨(Json.ofInt rid).reread, ?_, typed⟩, ?_, .object ?_⟩
    all_goals
      simp [Enveloped, Json.find?_reread, serializeRequest, find?_mk, requestIdToJson, Json.reread]
  | _ => cases keyed

/-- What the server may read of a message the client sends: no error, and a request has a
    number for its id. -/
structure Posted (raw : Json) : Prop where
  valid : ∀ resp, parseMessage raw ≠ .error resp
  numbered : ∀ req, parseMessage raw = .request req → ∃ n, req.id = .int n

theorem Spoken.numbered {m : Json} (spoken : Spoken m) {req : JsonRpcRequest}
    (parsed : parseMessage m.reread = .request req) : ∃ n, req.id = .int n := by
  have is := parseMessage_isRequest parsed
  obtain ⟨j, found, typed⟩ := is.id
  have named : m.contains "method" = true := by
    rw [← contains_reread, Json.contains, is.method]
    rfl
  rw [Json.find?_reread] at found
  obtain ⟨id, own, rfl⟩ := Option.map_eq_some_iff.mp found
  obtain ⟨n, rfl⟩ := spoken.id named id own
  exact isId_ofInt_int typed

/-- The id of a request that does not parse is a number or null. -/
theorem Spoken.refused {m : Json} (spoken : Spoken m) (named : m.contains "method" = true)
    {resp : JsonRpcErrorResponse} (parsed : parseMessage m.reread = .error resp) :
    resp.id = .null ∨ ∃ n, resp.id = .int n := by
  rcases parseMessage_error parsed with null | ⟨j, found, read⟩
  · exact .inl null
  · rw [Json.find?_reread] at found
    obtain ⟨id, own, rfl⟩ := Option.map_eq_some_iff.mp found
    obtain ⟨n, rfl⟩ := spoken.id named id own
    rcases (fromJson_iff _ _).mp read with typed | ⟨-, null⟩
    · exact .inr (isId_ofInt_int typed)
    · exact .inl null

/-- An error that the client may read off a message is one the server made of a request. -/
def Exchange.Fair (x : Exchange υ) (m : Json) : Prop :=
  ∀ resp, parseMessageClient m = .error resp →
    resp.id = .null ∨ ∃ n, resp.id = .int n ∧ x.Refused resp.id

/-- What the server's end remembers only grows. -/
structure Exchange.Grows (x x' : Exchange υ) : Prop where
  refusals : ∀ id ∈ x.refusals, id ∈ x'.refusals
  arrivals : ∀ (sink : Nat) raw, x.server.world.arrivals[sink]? = some raw →
    x'.server.world.arrivals[sink]? = some raw
  answers : ∀ answer ∈ x.server.world.answers, answer ∈ x'.server.world.answers

theorem Exchange.Grows.of_eq {x x' : Exchange υ} (refusals : x'.refusals = x.refusals)
    (server : x'.server = x.server) : x.Grows x' := by
  refine ⟨?_, ?_, ?_⟩
  · rw [refusals]
    exact fun _ member => member
  · rw [server]
    exact fun _ _ found => found
  · rw [server]
    exact fun _ member => member

theorem Exchange.Refused.grow {x x' : Exchange υ} {id : RequestId} (grows : x.Grows x')
    (refused : x.Refused id) : x'.Refused id := by
  rcases refused with member | ⟨sink, raw, req, response, resp, arrived, parsed, own, answer, read⟩
  · exact .inl (grows.refusals id member)
  · exact .inr ⟨sink, raw, req, response, resp, grows.arrivals sink raw arrived, parsed, own,
      grows.answers _ answer, read⟩

theorem Exchange.Fair.grow {x x' : Exchange υ} {m : Json} (grows : x.Grows x') (fair : x.Fair m) :
    x'.Fair m := by
  intro resp parsed
  apply (fair resp parsed).imp_right
  rintro ⟨n, id, refused⟩
  exact ⟨n, id, refused.grow grows⟩

theorem Exchange.fair_of_null {x : Exchange υ} {m : Json}
    (null : ∀ resp, parseMessageClient m = .error resp → resp.id = .null) : x.Fair m :=
  fun resp parsed => .inl (null resp parsed)

theorem Exchange.fair_answer {x : Exchange υ} (answering : Answering x.server.world)
    (posted : ∀ raw ∈ x.server.world.arrivals, Posted raw) {sink : Nat} {response : Json}
    (answer : (sink, response) ∈ x.server.world.answers) : x.Fair response.reread := by
  intro resp read
  rcases answering.answers _ answer with ⟨raw, req, arrived, parsed, is⟩ | ⟨raw, bad, arrived, parsed⟩
  · obtain ⟨n, id⟩ := (posted raw (List.mem_of_getElem? arrived)).numbered req parsed
    obtain ⟨j, -, typed⟩ := (parseMessage_isRequest parsed).id
    have fits : req.id.Fits := fromJson_fits ((fromJson_iff j req.id).mpr (.inl typed))
    refine (error_id fits is.id read).imp_right fun same => ?_
    exact ⟨n, same.trans id, .inr ⟨sink, raw, req, response, resp, arrived, parsed, same.symm,
      answer, read, rfl⟩⟩
  · exact absurd parsed ((posted raw (List.mem_of_getElem? arrived)).valid bad)

theorem filterMap_message?_nil {tasks : List Task} (none : ∀ task ∈ tasks, task.message? = none) :
    tasks.filterMap Task.message? = [] := by
  rw [List.filterMap_eq_nil_iff]
  exact none

theorem send_message? {task : Task} (send : task.isSend = true) : task.message? = none := by
  cases task with
  | send message => rfl
  | _ => cases send

theorem mayPost_message? {event : ClientEvent} (other : ∀ m, event ≠ .arrives m) {task : Task}
    (may : event.mayPost task) : task.message? = none := by
  cases task with
  | message m =>
    cases event with
    | arrives m' => exact absurd rfl (other m')
    | _ => cases may
  | _ => rfl

/-- A client on its own adds no message to its strand, and takes only the first. -/
theorem step_messages (env : ClientEnv) {c c' : Client} {event : ClientEvent}
    (other : ∀ m, event ≠ .arrives m) (h : c.step env event = some c') :
    c'.messages = if event = .runTask ∧ (c.strand.head?.bind Task.message?).isSome
      then c.messages.tail else c.messages := by
  by_cases runs : event = .runTask
  · subst runs
    cases step_cases h with
    | runTask task rest head =>
      obtain ⟨tasks, strand, sends⟩ := runTask_strand env { c with strand := rest } task
      have none : tasks.filterMap Task.message? = [] :=
        filterMap_message?_nil fun task member => send_message? (sends task member)
      simp only [Client.messages, strand, List.filterMap_append, none, List.append_nil, head,
        List.head?_cons, Option.bind_some, true_and]
      cases first : task.message? with
      | none => simp [first]
      | some m => simp [first]
  · obtain ⟨old, tasks, strand, may, same | ⟨run, -⟩⟩ := step_strand env h
    · have none : tasks.filterMap Task.message? = [] :=
        filterMap_message?_nil fun task member => mayPost_message? other (may task member)
      simp [Client.messages, strand, same, none, runs]
    · exact absurd run runs

theorem step_id (env : ClientEnv) {c c' : Client} {event : ClientEvent}
    (h : c.step env event = some c') {pr : Nat} {r : PendingRequest}
    (found : c.requests[pr]? = some r) : ∃ r', c'.requests[pr]? = some r' ∧ r'.id = r.id := by
  obtain ⟨r', found', id, -⟩ := step_remembers env h found
  exact ⟨r', found', id⟩

/-- What came back for an answer of the client's is an error; anything else is fair. -/
def Exchange.Owed (x : Exchange υ) (answering : Bool) (m : Json) : Prop :=
  match answering with
  | true => ∃ resp, parseMessageClient m = .error resp
  | false => x.Fair m

theorem Exchange.Owed.grow {x x' : Exchange υ} (grows : x.Grows x') {answering : Bool} {m : Json}
    (owed : x.Owed answering m) : x'.Owed answering m := by
  cases answering with
  | true => exact owed
  | false => exact Exchange.Fair.grow grows owed

theorem Exchange.owed_of_null {x : Exchange υ} (answering : Bool) {m : Json}
    {resp : JsonRpcErrorResponse} (parsed : parseMessageClient m = .error resp)
    (null : resp.id = .null) : x.Owed answering m := by
  cases answering with
  | true => exact ⟨resp, parsed⟩
  | false =>
    refine Exchange.fair_of_null fun resp' parsed' => ?_
    rw [parsed] at parsed'
    cases parsed'
    exact null

/-- A message that names no method is not answered by the server. -/
theorem unnamed_unanswered (info : ServerInfo) (s : Server υ) {raw : Json} (id : SessionId)
    (unnamed : raw.contains "method" = false)
    (valid : ∀ resp, parseMessage raw ≠ .error resp) :
    s.answered (s.onMessage info raw id false) = [] := by
  have behaves : BehavesLikeOnMessage (@serverHandler υ info) := server_behavesLikeOnMessage info
  have silent : (serverHandler info s raw id false).2.calls = 0 := by
    cases parsed : parseMessage raw with
    | request req =>
      have named := (parseMessage_isRequest parsed).method
      simp [Json.contains, named] at unnamed
    | notification notif => exact behaves.notification s raw id notif parsed
    | success resp => exact behaves.success s raw id resp parsed
    | error resp => exact absurd parsed (valid resp)
  have none : (serverHandler info s raw id false).2.emitted.length = 0 :=
    Nat.eq_zero_of_add_eq_zero_right silent
  exact List.length_eq_zero_iff.mp none

end CppMcp
