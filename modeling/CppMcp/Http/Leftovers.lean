import CppMcp.Http.Host

namespace CppMcp

open Lib

variable {υ : Type} (info : ServerInfo)

theorem batch_holds {messages : List Json} {sessionId id : SessionId} {s : Server υ}
    (holds : (messages.foldl (fun world m => (serverHandler info world m sessionId true).1) s).Holds
      id) : s.Holds id ∨ id = sessionId := by
  induction messages generalizing s with
  | nil => exact .inl holds
  | cons m messages ih =>
    rcases ih holds with before | own
    · exact onMessage_holds info before
    · exact .inr own

theorem batch_jobs {messages : List Json} {sessionId : SessionId} {s : Server υ}
    (deferrable : s.JobsDeferrable) :
    Server.JobsDeferrable
      (messages.foldl (fun world m => (serverHandler info world m sessionId true).1) s) := by
  induction messages generalizing s with
  | nil => exact deferrable
  | cons m messages ih => exact ih (onMessage_jobs info deferrable m sessionId true)

/-- An `initialize` that is not refused opens its session. -/
theorem serverHandler_succeeds {s : Server υ} {message : Json} {req : JsonRpcRequest}
    (parsed : parseMessage message = .request req)
    (greeting : req.method = Protocol.methodInitialize) (accepted : ¬ s.Refuses req)
    (id : SessionId) : HttpEnv.succeeds (serverHandler info s message id false).2 = true := by
  have accepted' : ¬ (s.arrived message).Refuses req := accepted
  obtain ⟨result, answered⟩ := initialize_succeeds info greeting accepted' id
  have serving := (processRequest_spec info req id (s.arrived message)).2
  have kept : (processRequest info req id (s.arrived message)).2.answers = s.answers :=
    serving.answers
  have prompt : ((s.arrived message).executor && !false && isDeferrable req.method) = false := by
    rw [greeting]
    have never : isDeferrable Protocol.methodInitialize = false := by decide
    rw [never, Bool.and_false]
  have served : s.onMessage info message id false =
      (processRequest info req id (s.arrived message)).2.respond s.arrivals.length
        (makeSuccessResponse req.id result) := by
    simp only [Server.onMessage, parsed, prompt, answered, Bool.false_eq_true, if_false]
  have emitted : (serverHandler info s message id false).2.emitted =
      [makeSuccessResponse req.id result] := by
    simp [serverHandler, served, Server.respond, kept]
  unfold HttpEnv.succeeds
  rw [emitted]
  simp [serverHandler, makeSuccessResponse, Json.contains, find?_mk]

theorem deliver_held {env : HttpEnv (Server υ)} {t resolved : HttpTransport (Server υ)}
    {newId id : SessionId} {req : HttpRequest} {message : Json} (named : t.All Named)
    (held : ∀ id, id ≠ [] → t.world.Holds id → id ∈ t.sessions)
    (working : t.world.stopping = false)
    (dispatches : env.Dispatches t newId req resolved message id)
    (welcomes : (parseMessage message).isInitialize = true → t.world.Welcomes message newId)
    (other : SessionId) (nonempty : other ≠ [])
    (holds : (env.deliver (serverHandler info) resolved message (parseMessage message)
      id).transport.world.Holds other) :
    other ∈ (env.deliver (serverHandler info) resolved message (parseMessage message)
      id).transport.sessions := by
  have world := (env.deliver_world (serverHandler info) resolved message (parseMessage message) id).1
  rw [env.resolveSession_world dispatches.2.2.2] at world
  rw [world] at holds
  have left : t.world.Holds other ∨ other = id := onMessage_holds info holds
  rw [env.deliver_sessions]
  rcases env.resolveSession_ok dispatches.2.2.2 with ⟨greets, -, rfl, created⟩ |
    ⟨later, rfl, session, found, -, rfl⟩
  · have sessions := env.createSession_sessions created
    have opened : resolved.sessions.lookup id = some { sessionId := id } := by
      rw [sessions, AList.lookup_insert]
    have kept {x : SessionId} (member : x ∈ t.sessions) : x ∈ resolved.sessions := by
      rw [sessions]
      exact (AList.mem_insert _).mpr (.inr member)
    have before (quiet : ∀ req, parseMessage message ≠ .request req) (bare : ¬ t.world.Holds id) :
        other ∈ resolved.sessions ∧ other ≠ id := by
      have past : t.world.Holds other := onMessage_quiet_holds info quiet holds
      refine ⟨kept (held other nonempty past), ?_⟩
      rintro rfl
      exact bare past
    have remains (quiet : ∀ req, parseMessage message ≠ .request req) (bare : ¬ t.world.Holds id)
        (ok : Bool) (session : HttpSession) :
        other ∈ if ok then resolved.sessions.insert id session else resolved.sessions.erase id := by
      obtain ⟨member, ne⟩ := before quiet bare
      split
      · exact (AList.mem_insert _).mpr (.inr member)
      · exact AList.mem_erase.mpr ⟨ne, member⟩
    rw [if_pos greets, opened]
    have welcome := welcomes greets
    unfold Server.Welcomes at welcome
    cases parsed : parseMessage message with
    | request r =>
      rw [parsed, working] at welcome
      have greeting : r.method = Protocol.methodInitialize := by
        rw [parsed] at greets
        exact beq_iff_eq.mp greets
      have opens := serverHandler_succeeds info parsed greeting welcome id
      rw [← env.resolveSession_world dispatches.2.2.2] at opens
      rw [if_pos opens]
      rcases left with past | rfl
      · exact (AList.mem_insert _).mpr (.inr (kept (held other nonempty past)))
      · exact (AList.mem_insert _).mpr (.inl rfl)
    | notification | success | error =>
      rw [parsed] at welcome
      exact remains (by simp [parsed]) welcome _ _
  · rw [if_neg (by simp [later])]
    have stored := (HttpTransport.findSession_some found).2
    rcases left with before | rfl
    · exact held other nonempty before
    · rw [named _ _ stored]
      exact AList.lookup_isSome.mp (by rw [stored]; rfl)

theorem deliver_jobs {env : HttpEnv (Server υ)} {t resolved : HttpTransport (Server υ)}
    {newId id : SessionId} {req : HttpRequest} {message : Json}
    (deferrable : t.world.JobsDeferrable)
    (dispatches : env.Dispatches t newId req resolved message id) :
    (env.deliver (serverHandler info) resolved message (parseMessage message)
      id).transport.world.JobsDeferrable := by
  rw [(env.deliver_world (serverHandler info) resolved message (parseMessage message) id).1,
    env.resolveSession_world dispatches.2.2.2]
  exact onMessage_jobs info deferrable message id false

theorem handling_held {env : HttpEnv (Server υ)} {t : HttpTransport (Server υ)} {conn : Nat}
    {newId : SessionId} {req : HttpRequest} {h : Handled (Server υ)}
    (handling : (env.serving info t.world).Handling t conn newId req h) (named : t.All Named)
    (deferrable : t.world.JobsDeferrable)
    (held : ∀ id, id ≠ [] → t.world.Holds id → id ∈ t.sessions)
    (deletes : env.Deletes t req → ¬ t.world.Holds req.sessionId)
    (welcomes : ∀ resolved message id, env.PostsTo req →
      env.Dispatches t newId req resolved message id →
      (parseMessage message).isInitialize = true → t.world.Welcomes message newId) :
    h.transport.world.JobsDeferrable ∧
      ∀ id, id ≠ [] → h.transport.world.Holds id → id ∈ h.transport.sessions := by
  cases handling with
  | stays same =>
    rw [same]
    exact ⟨deferrable, held⟩
  | opens get found opened =>
    rw [opened]
    exact ⟨deferrable, fun id nonempty holds =>
      (AList.mem_insert _).mpr (.inr (held id nonempty holds))⟩
  | deletes delete named' deleted deferred written allowed path found =>
    have bare := deletes ⟨allowed, path, delete, by rw [found]; rfl⟩
    rw [deleted]
    refine ⟨deferrable, fun id nonempty holds => AList.mem_erase.mpr ⟨?_, held id nonempty holds⟩⟩
    rintro rfl
    exact bare holds
  | @unhandled resolved message post created missing undone deferred written dispatches greets =>
    have world : resolved.world = t.world := createSession_world created
    have sessions := (env.serving info t.world).createSession_sessions created
    have stopping : t.world.stopping = true := by
      simp only [HttpEnv.serving] at missing
      split at missing
      · assumption
      · cases missing
    have bare : ¬ t.world.Holds newId := by
      have welcome := welcomes resolved message newId post dispatches greets
      unfold Server.Welcomes at welcome
      split at welcome
      · rw [if_pos stopping] at welcome
        exact welcome
      · exact welcome
    rw [undone]
    refine ⟨world ▸ deferrable, fun id nonempty holds => ?_⟩
    have past : t.world.Holds id := world ▸ holds
    refine AList.mem_erase.mpr ⟨?_, ?_⟩
    · rintro rfl
      exact bare past
    · rw [sessions]
      exact (AList.mem_insert _).mpr (.inr (held id nonempty past))
  | @batch handler session messages post installed body found live handled =>
    rw [serving_handler info installed] at handled
    rw [handled]
    refine ⟨batch_jobs info deferrable, fun id nonempty holds => ?_⟩
    have stored := (HttpTransport.findSession_some found).2
    rcases batch_holds info holds with past | rfl
    · exact held id nonempty past
    · show session.sessionId ∈ t.sessions
      rw [named _ _ stored]
      exact AList.lookup_isSome.mp (by rw [stored]; rfl)
  | @single handler resolved message id post installed dispatches delivers =>
    have working : t.world.stopping = false := by
      simp only [HttpEnv.serving] at installed
      split at installed
      · cases installed
      · exact Bool.eq_false_iff.mpr ‹_›
    rw [delivers, serving_handler info installed]
    exact ⟨deliver_jobs info deferrable dispatches,
      deliver_held info named held working dispatches (welcomes resolved message id post dispatches)⟩

namespace HttpListener

def Covered (t : HttpTransport (Server υ)) : Prop :=
  t.world.JobsDeferrable ∧ ∀ id, id ≠ [] → t.world.Holds id → id ∈ t.sessions

theorem covered_host {t t' : HttpTransport (Server υ)} (covered : Covered t)
    (host : t.SameHost t') : Covered t' := by
  unfold Covered
  simp only [host.world, host.sessions]
  exact covered

theorem covered_reap {l : HttpListener (Server υ)} (covered : Covered l.transport)
    {ids : List SessionId}
    (bare : ∀ id ∈ ids, id ∈ l.transport.sessions → ¬ l.transport.world.Holds id) :
    Covered (l.reap ids).transport := by
  obtain ⟨world, sessions⟩ := reap_host l ids
  unfold Covered
  simp only [world, sessions]
  refine ⟨covered.1, fun id nonempty holds => ?_⟩
  have present := covered.2 id nonempty holds
  exact ⟨present, fun ended => bare id ended present holds⟩

theorem covered_stop {l : HttpListener (Server υ)} (covered : Covered l.transport)
    (bare : ∀ id ∈ l.transport.sessions, ¬ l.transport.world.Holds id) :
    Covered l.stop.transport := by
  have world := (stop_host l).1
  unfold Covered
  simp only [world]
  refine ⟨covered.1, fun id nonempty holds => ?_⟩
  exact absurd holds (bare id (covered.2 id nonempty holds))

theorem step_covered {env : HttpEnv (Server υ)} (streamable : env.config.mode = .streamableHttp)
    (l : HttpListener (Server υ)) (event : HttpEvent) (l' : HttpListener (Server υ))
    (tidy : l.Tidy) (bare : l.EndsBare env (.http event))
    (h : l.step (env.serving info l.transport.world) event = some l') : Covered l'.transport := by
  have covered : Covered l.transport := ⟨tidy.deferrable, tidy.held⟩
  have ready {conn : Nat} {test : AcceptedConnection → Bool} {next : HttpListener (Server υ)}
      (stepped : l.onConnection conn test next = some l') (holds : Covered next.transport) :
      Covered l'.transport := by
    simp only [onConnection, Option.ite_none_right_eq_some, Option.some.injEq] at stepped
    exact stepped.2 ▸ holds
  cases event with
  | accepts =>
    cases h
    unfold accept
    split <;> exact covered
  | readCompletes conn | finishes conn | arms conn => exact ready h covered
  | request conn newId req =>
    refine ready h (covered_host ?_ (closeAll_host _ _))
    have handling := (env.serving info l.transport.world).handleRequest_handling
      streamable l.transport conn newId req
    exact handling_held info handling tidy.named tidy.deferrable tidy.held bare.1 bare.2
  | parseFails conn =>
    let closed := l.update conn fun c => { c with phase := .idle }
    exact ready h (covered_host covered (onError_host closed conn))
  | readFails conn =>
    let closed := l.update conn fun c => { c with reading := false }
    exact ready h (covered_host covered (onError_host closed conn))
  | timesOut conn => exact ready h (covered_host covered (closeAll_host l [conn]))
  | writeFails conn => exact ready h (covered_host covered (onError_host l conn))
  | sweeps ids =>
    simp only [step, Option.ite_none_right_eq_some, Option.some.injEq] at h
    exact h.2 ▸ covered_reap covered bare
  | stops =>
    cases h
    exact covered_stop covered bare

/-- A step of the server alone, other than an arrival and the end. -/
theorem serves_tidy {l l' : HttpListener (Server υ)} (tidy : l.Tidy) {event : ServerEvent υ}
    (own : ∀ m id b, event ≠ .arrives m id b)
    (h : (l.transport.world.step info event).map l.withWorld = some l') : l'.Tidy := by
  obtain ⟨world, stepped, rfl⟩ := Option.map_eq_some_iff.mp h
  exact
    { named := tidy.named
      deferrable := step_jobs info tidy.deferrable stepped
      held := fun id nonempty holds =>
        tidy.held id nonempty (step_holds info tidy.deferrable stepped own nonempty holds) }

theorem hosts_tidy {env : HttpEnv (Server υ)} (streamable : env.config.mode = .streamableHttp)
    (l : HttpListener (Server υ)) (event : HostEvent υ) (l' : HttpListener (Server υ))
    (tidy : l.Tidy) (bare : l.EndsBare env event) (h : l.hosts env info event = some l') :
    l'.Tidy := by
  have streams : (env.serving info l.transport.world).config.mode = .streamableHttp := streamable
  cases event with
  | http event =>
    have covered := step_covered info streamable l event l' tidy bare h
    exact ⟨step_all named_property streams l event l' tidy.named h, covered.1, covered.2⟩
  | serves event =>
    cases event with
    | arrives message sessionId batch => cases h
    | stops =>
      simp only [hosts] at h
      obtain ⟨world, stepped, rfl⟩ := Option.map_eq_some_iff.mp h
      cases stepped
      have named := step_all named_property streams l .stops l.stop tidy.named rfl
      refine ⟨named, fun job member => (by cases member), fun id nonempty holds => ?_⟩
      have before : l.transport.world.Holds id :=
        holds.mono rfl rfl fun rid p found => by simp [withWorld] at found
      obtain ⟨hello, subscription⟩ := bare id (tidy.held id nonempty before)
      rcases holds with greeted | subscribed | ⟨rid, p, found, -⟩
      · exact absurd greeted hello
      · exact absurd subscribed subscription
      · simp [withWorld] at found
    | registers _ | setsWorkers _ | setsPageSize _ | invalidates | runs _ | runsJob _ | delivers _
    | requestsSampling _ _ _ _ | requestsElicitation _ _ _ _ | requestsRoots _ _ _ =>
      simp only [hosts] at h
      exact serves_tidy info tidy (by simp) h

/-- Where the sessions that end leave nothing, whatever the server has is under a session. -/
theorem ended_sessions_leave_nothing {env : HttpEnv (Server υ)}
    (streamable : env.config.mode = .streamableHttp) {user : υ} {events : List (HostEvent υ)}
    {l : HttpListener (Server υ)}
    (meets : Meets (hosts env info) (EndsBare env) (initial (Server.initial user)) events)
    (h : run (hosts env info) (initial (Server.initial user)) events = some l) :
    ∀ id, id ≠ [] → l.transport.world.Holds id → id ∈ l.transport.sessions := by
  have start : Tidy (initial (Server.initial user)) :=
    { named := fun id session present => by simp [initial] at present
      deferrable := fun job member => by cases member
      held := fun id nonempty holds => by simp [Server.Holds, initial, Server.initial] at holds }
  exact (run_invariant (hosts_tidy info streamable) start meets h).held

theorem initial_bare (user : υ) (id : SessionId) : ¬ (Server.initial user).Holds id := by
  simp [Server.Holds, Server.initial]

theorem initial_welcomes (user : υ) (message : Json) (newId : SessionId) :
    (Server.initial user).Welcomes message newId := by
  unfold Server.Welcomes
  split
  · rintro ⟨handler, installed, -⟩
    cases installed
  · exact initial_bare user newId

def helloOf : HttpEvent := .request 0 (ascii "s") (requestIn "POST" [] helloText)

def greeted : List (HostEvent Unit) :=
  [.http .accepts, .http (.readCompletes 0), .http helloOf]

theorem greeted_bare : Meets (hosts quietEnv {}) (EndsBare quietEnv) (initial (Server.initial ()))
    greeted := by
  refine ⟨True.intro, ?_⟩
  rintro _ ⟨⟩
  refine ⟨True.intro, ?_⟩
  rintro _ ⟨⟩
  refine ⟨⟨fun _ => initial_bare () _, ?_⟩, fun _ _ => True.intro⟩
  exact fun resolved message id _ _ _ => initial_welcomes () message _

theorem greeting_is_in_a_session : ∃ l,
    run (hosts quietEnv {}) (initial (Server.initial ())) greeted = some l ∧
    l.transport.world.Holds (ascii "s") ∧ ascii "s" ∈ l.transport.sessions := by
  have outcome : (run (hosts quietEnv {}) (initial (Server.initial ())) greeted).map
      (fun l => (l.transport.world.clientHellos.lookup (ascii "s")).isSome) = some true := by
    decide +kernel
  obtain ⟨l, ran, hello⟩ := Option.map_eq_some_iff.mp outcome
  have holds : l.transport.world.Holds (ascii "s") := .inl (AList.lookup_isSome.mp hello)
  exact ⟨l, ran, holds,
    ended_sessions_leave_nothing {} rfl greeted_bare ran (ascii "s") (by decide) holds⟩

def greetedThenDeleted : List (HostEvent Unit) :=
  greeted ++ [.http (.request 0 [] (requestIn "DELETE" (ascii "s") []))]

theorem deleted_session_leaves_hello : ¬ ∀ (env : HttpEnv (Server Unit)) (info : ServerInfo)
    (events : List (HostEvent Unit)) (l : HttpListener (Server Unit)),
    env.config.mode = .streamableHttp →
    run (hosts env info) (initial (Server.initial ())) events = some l →
    ∀ id, id ≠ [] → l.transport.world.Holds id → id ∈ l.transport.sessions := by
  intro tidy
  have outcome : (run (hosts quietEnv {}) (initial (Server.initial ())) greetedThenDeleted).map
      (fun l => ((l.transport.world.clientHellos.lookup (ascii "s")).isSome,
        (l.transport.sessions.lookup (ascii "s")).isSome)) = some (true, false) := by
    decide +kernel
  obtain ⟨l, ran, ends⟩ := Option.map_eq_some_iff.mp outcome
  rw [Prod.mk.injEq] at ends
  have holds : l.transport.world.Holds (ascii "s") := .inl (AList.lookup_isSome.mp ends.1)
  have present := tidy quietEnv {} greetedThenDeleted l rfl ran (ascii "s") (by decide) holds
  rw [← AList.lookup_isSome, ends.2] at present
  cases present

end HttpListener

end CppMcp
