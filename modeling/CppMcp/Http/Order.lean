import CppMcp.Http.Pipeline
import CppMcp.Server.Isolation

namespace CppMcp

open Lib

variable {υ : Type}

section
variable (info : ServerInfo)

/-- A worker puts the sink of its job behind those that wait for delivery. -/
theorem runJob_outstanding {s : Server υ} {place : Nat} {job : Job}
    (queued : s.jobs[place]? = some job) :
    ({ s with jobs := s.jobs.eraseIdx place }.runJob info job).outstanding.Perm s.outstanding := by
  obtain ⟨response, -, -, jobs, deliveries, -⟩ := runJob_queues info
    { s with jobs := s.jobs.eraseIdx place } job
  obtain ⟨bound, rfl⟩ := List.getElem?_eq_some_iff.mp queued
  have moved := (List.getElem_cons_eraseIdx_perm bound).map Job.sink
  rw [List.map_cons] at moved
  simp only [Server.outstanding, jobs, deliveries, List.map_append, List.map_singleton]
  rw [← List.append_assoc]
  apply List.perm_append_comm.trans
  rw [List.singleton_append, ← List.cons_append]
  exact moved.append_right _

theorem delivery_outstanding {s : Server υ} {place sink : Nat} {response : Json}
    (queued : s.deliveries[place]? = some (sink, response)) :
    (sink :: s.jobs.map Job.sink ++ (s.deliveries.eraseIdx place).map Prod.fst).Perm
      s.outstanding := by
  obtain ⟨bound, taken⟩ := List.getElem?_eq_some_iff.mp queued
  have moved := (List.getElem_cons_eraseIdx_perm bound).map Prod.fst
  rw [List.map_cons, taken] at moved
  apply (List.perm_append_comm_assoc [sink] _ _).trans
  exact moved.append_left _

theorem outstanding_aside {s s' : Server υ} (aside : s.Aside s') :
    s'.outstanding = s.outstanding := by
  unfold Server.outstanding
  rw [aside.jobs, aside.deliveries]

/-- A step of a server's own brings no sink, and takes one from those outstanding only where it
    calls it or drops it. -/
theorem step_outstanding {s s' : Server υ} {event : ServerEvent υ}
    (other : ∀ message sessionId batch, event ≠ .arrives message sessionId batch)
    (h : s.step info event = some s') :
    s'.arrivals = s.arrivals ∧ ∃ done, (done ++ s'.outstanding).Perm s.outstanding ∧
      ∀ place, event = .delivers place → ∃ sink response,
        s.deliveries[place]? = some (sink, response) ∧ done = [sink] := by
  have same (kept : s'.outstanding = s.outstanding) (quiet : ∀ place, event ≠ .delivers place) :
      ∃ done, (done ++ s'.outstanding).Perm s.outstanding ∧
        ∀ place, event = .delivers place → ∃ sink response,
          s.deliveries[place]? = some (sink, response) ∧ done = [sink] :=
    ⟨[], by rw [kept]; exact .refl _, fun place delivers => absurd delivers (quiet place)⟩
  refine ⟨(step_adds info other h).arrivals, ?_⟩
  cases step_turns info h with
  | @serves message sessionId batch | @defers message sessionId | @hears message sessionId batch
  | @refuses message sessionId batch => exact absurd rfl (other message sessionId _)
  | works queued => exact ⟨[], runJob_outstanding info queued, fun place delivers => by cases delivers⟩
  | @delivers place sink response queued =>
    refine ⟨[sink], delivery_outstanding queued, fun place' same => ?_⟩
    cases same
    exact ⟨sink, response, queued, rfl⟩
  | registers registry | starts => exact same rfl fun place => by simp
  | fails aside =>
    have kept : s'.outstanding = Server.outstanding { s with frozen := none } :=
      outstanding_aside aside
    exact same kept fun place => by simp
  | stops =>
    refine ⟨s.outstanding, ?_, fun place delivers => by cases delivers⟩
    simp [Server.outstanding]
  | aside quiet aside =>
    refine same (outstanding_aside aside) fun place delivers => ?_
    rw [delivers] at quiet
    cases quiet

end

def helloText : Bytes :=
  ascii ("\x7b\"id\":1,\"jsonrpc\":\"2.0\",\"method\":\"initialize\",\"params\":" ++
    "\x7b\"capabilities\":\x7b\"roots\":\x7b\x7d\x7d\x7d\x7d")

def callText : Bytes :=
  ascii ("\x7b\"id\":7,\"jsonrpc\":\"2.0\",\"method\":\"tools/call\",\"params\":" ++
    "\x7b\"name\":\"t\"\x7d\x7d")

def quietEnv : HttpEnv (Server Unit) :=
  tableEnv [(helloText, rootsHello), (initializedText, initializedMessage),
    (callText, serializeRequest (callTool 7)),
    (pingText, pingMessage)]

namespace Pipeline

/-- The sinks outstanding are distinct and have arrived, the deferred requests stand in the
    order of dispatch, and the responses are in order and ahead of all that wait. -/
structure Sound (p : Pipeline υ) : Prop where
  distinct : p.transport.world.outstanding.Nodup
  arrived : ∀ sink ∈ p.transport.world.outstanding, sink < p.transport.world.arrivals.length
  known : ∀ d ∈ p.deferred, d.sink < p.transport.world.arrivals.length ∧ d.post < p.posts
  dispatched : p.deferred.Pairwise fun a b => a.sink < b.sink ∧ a.post < b.post
  responded : ∀ r ∈ p.responses, r.1 < p.posts
  inOrder : (p.responses.map Prod.fst).Pairwise (· < ·)
  ahead : ∀ post ∈ p.waiting, ∀ r ∈ p.responses, r.1 < post

theorem initial_sound (user : υ) : Sound (initial user) where
  distinct := List.nodup_nil
  arrived := by simp [initial, Server.outstanding, Server.initial]
  known := by simp [initial]
  dispatched := .nil
  responded := by simp [initial]
  inOrder := .nil
  ahead := by simp [initial]

theorem mem_waiting {p : Pipeline υ} {post : Nat} : post ∈ p.waiting ↔
    ∃ d ∈ p.deferred, d.sink ∈ p.transport.world.outstanding ∧ d.post = post := by
  simp only [waiting, List.mem_map, List.mem_filter, decide_eq_true_eq, and_assoc]

theorem outstanding_queues {s s' : Server υ} {deferred : Nat} {written : List HttpWrite}
    (queues : Queues s s' deferred written) (distinct : s.outstanding.Nodup)
    (arrived : ∀ sink ∈ s.outstanding, sink < s.arrivals.length) :
    s'.outstanding.Nodup ∧ (∀ sink ∈ s'.outstanding, sink < s'.arrivals.length) ∧
      (∀ sink ∈ s'.outstanding, sink ∈ s.outstanding ∨ sink = s.arrivals.length ∧ 0 < deferred) := by
  rcases queues.jobs with ⟨-, jobs⟩ | ⟨defers, -, longer, req, id, jobs⟩
  · have same : s'.outstanding = s.outstanding := by
      simp only [Server.outstanding, jobs, queues.deliveries]
    rw [same]
    exact ⟨distinct, fun sink member => (arrived sink member).trans_le queues.arrivals,
      fun sink member => .inl member⟩
  · have perm : s'.outstanding.Perm (s.arrivals.length :: s.outstanding) := by
      simp only [Server.outstanding, jobs, queues.deliveries, List.map_append, List.map_singleton,
        List.append_assoc, List.singleton_append]
      exact List.perm_middle
    have new : s.arrivals.length ∉ s.outstanding := fun member => (arrived _ member).false
    refine ⟨perm.nodup_iff.mpr (List.nodup_cons.mpr ⟨new, distinct⟩), fun sink member => ?_,
      fun sink member => ?_⟩
    · rcases List.mem_cons.mp (perm.mem_iff.mp member) with rfl | old
      · exact longer
      · exact (arrived sink old).trans longer
    · exact (List.mem_cons.mp (perm.mem_iff.mp member)).symm.imp_right fun same => ⟨same, defers⟩

variable {env : HttpEnv (Server υ)} {info : ServerInfo} {conn : Nat}

/-- Old requests that wait after a request was handled waited before. -/
theorem waiting_queues {p p' : Pipeline υ} (inv : p.Sound) {deferred : Nat}
    {written : List HttpWrite}
    (queues : Queues p.transport.world p'.transport.world deferred written) {d : DeferredPost}
    (member : d ∈ p.deferred) (waits : d.sink ∈ p'.transport.world.outstanding) :
    d.post ∈ p.waiting := by
  obtain ⟨-, -, old⟩ := outstanding_queues queues inv.distinct inv.arrived
  refine mem_waiting.mpr ⟨d, member, ?_, rfl⟩
  rcases old d.sink waits with before | ⟨new, -⟩
  · exact before
  · exact absurd new (inv.known d member).1.ne

theorem Sound.inOrder_append {p : Pipeline υ} (inv : p.Sound) {written : List HttpWrite}
    (single : written.length ≤ 1) :
    ((p.responses ++ written.map fun w => (p.posts, w)).map Prod.fst).Pairwise (· < ·) := by
  rw [List.map_append, List.pairwise_append]
  refine ⟨inv.inOrder, ?_, fun post old post' new => ?_⟩
  · cases written with
    | nil => exact .nil
    | cons w rest =>
      rw [List.length_cons] at single
      have none : rest = [] := List.eq_nil_of_length_eq_zero (by omega)
      rw [none]
      exact List.pairwise_singleton _ _
  · obtain ⟨r, member, rfl⟩ := List.mem_map.mp old
    have same : post' = p.posts := by
      rw [List.map_map] at new
      obtain ⟨w, -, rfl⟩ := List.mem_map.mp new
      rfl
    rw [same]
    exact inv.responded r member

theorem dispatch_sound (streamable : env.config.mode = .streamableHttp) {p : Pipeline υ}
    (inv : p.Sound) {newId : SessionId} {req : HttpRequest}
    (turn : p.waiting = [] ∨ env.waits p.transport newId req = true) :
    Sound (p.dispatch env info conn newId req) := by
  obtain ⟨h, handled⟩ : ∃ h, (env.serving info p.transport.world).handleRequest p.transport conn
    newId req = h := ⟨_, rfl⟩
  have queues := handleRequest_queues info streamable p.transport conn newId req handled
  obtain ⟨distinct, arrived, -⟩ := outstanding_queues queues inv.distinct inv.arrived
  have silent (waits : env.waits p.transport newId req = true) : h.written = [] :=
    handled ▸ waits_silent info streamable conn waits
  have longer (d : DeferredPost) (member : d ∈ p.deferred) :
      d.sink < h.transport.world.arrivals.length ∧ d.post < p.posts + 1 :=
    ⟨(inv.known d member).1.trans_le queues.arrivals, (inv.known d member).2.trans (Nat.lt_succ_self _)⟩
  have responded : ∀ r ∈ p.responses ++ h.written.map fun w => (p.posts, w), r.1 < p.posts + 1 := by
    intro r member
    rcases List.mem_append.mp member with old | new
    · exact (inv.responded r old).trans (Nat.lt_succ_self _)
    · obtain ⟨w, -, rfl⟩ := List.mem_map.mp new
      exact Nat.lt_succ_self _
  have inOrder := inv.inOrder_append queues.single
  simp only [dispatch, handled]
  rcases queues.jobs with ⟨none, -⟩ | ⟨defers, quiet, grows, -⟩
  · rw [if_neg (by omega)]
    refine ⟨distinct, arrived, longer, inv.dispatched, responded, inOrder, fun post waits r member => ?_⟩
    obtain ⟨d, mine, open_, rfl⟩ := mem_waiting.mp waits
    have before := waiting_queues inv queues mine open_
    rcases turn with nobody | waits
    · rw [nobody] at before
      cases before
    · rw [silent waits, List.map_nil, List.append_nil] at member
      exact inv.ahead d.post before r member
  · rw [if_pos defers]
    refine ⟨distinct, arrived, fun d member => ?_, ?_, responded, inOrder,
      fun post waits r member => ?_⟩
    · rcases List.mem_append.mp member with old | new
      · exact longer d old
      · cases List.mem_singleton.mp new
        exact ⟨grows, Nat.lt_succ_self _⟩
    · refine List.pairwise_append.mpr ⟨inv.dispatched, List.pairwise_singleton _ _,
        fun d old d' new => ?_⟩
      cases List.mem_singleton.mp new
      exact inv.known d old
    · rw [quiet, List.map_nil, List.append_nil] at member
      obtain ⟨d, mine, open_, rfl⟩ := mem_waiting.mp waits
      rcases List.mem_append.mp mine with old | new
      · exact inv.ahead d.post (waiting_queues inv queues old open_) r member
      · cases List.mem_singleton.mp new
        exact inv.responded r member

theorem elsewhere_sound (streamable : env.config.mode = .streamableHttp) {p : Pipeline υ}
    (inv : p.Sound) (other : Nat) (newId : SessionId) (req : HttpRequest) :
    Sound { p with transport :=
      ((env.serving info p.transport.world).handleRequest p.transport other newId req).transport } := by
  have queues := handleRequest_queues info streamable p.transport other newId req rfl
  obtain ⟨distinct, arrived, -⟩ := outstanding_queues queues inv.distinct inv.arrived
  refine ⟨distinct, arrived, fun d member => ?_, inv.dispatched, inv.responded, inv.inOrder,
    fun post waits => ?_⟩
  · exact ⟨(inv.known d member).1.trans_le queues.arrivals, (inv.known d member).2⟩
  · obtain ⟨d, mine, open_, rfl⟩ := mem_waiting.mp waits
    exact inv.ahead d.post (waiting_queues inv queues mine open_)

/-- A step of the server's that calls no sink of the connection. -/
theorem Sound.serve {p : Pipeline υ} (inv : p.Sound) {s : Server υ} {done : List Nat}
    (arrivals : s.arrivals = p.transport.world.arrivals)
    (perm : (done ++ s.outstanding).Perm p.transport.world.outstanding) :
    Sound { p with transport := { p.transport with world := s } } := by
  have fewer {sink : Nat} (member : sink ∈ s.outstanding) : sink ∈ p.transport.world.outstanding :=
    perm.mem_iff.mp (List.mem_append_right _ member)
  refine ⟨?_, fun sink member => ?_, ?_, inv.dispatched, inv.responded, inv.inOrder,
    fun post waits => ?_⟩
  · exact (List.nodup_append.mp (perm.nodup_iff.mpr inv.distinct)).2.1
  · rw [arrivals]
    exact inv.arrived sink (fewer member)
  · rw [arrivals]
    exact inv.known
  · obtain ⟨d, mine, open_, rfl⟩ := mem_waiting.mp waits
    exact inv.ahead d.post (mem_waiting.mpr ⟨d, mine, fewer open_, rfl⟩)

theorem Sound.post_injective {p : Pipeline υ} (inv : p.Sound) {a b : DeferredPost}
    (first : a ∈ p.deferred) (second : b ∈ p.deferred) (ne : a ≠ b) : a.post ≠ b.post := by
  have apart : p.deferred.Pairwise fun a b => a.post ≠ b.post :=
    inv.dispatched.imp fun before => before.2.ne
  have symmetric : Std.Symm fun a b : DeferredPost => a.post ≠ b.post := ⟨fun _ _ => Ne.symm⟩
  exact apart.forall first second ne

theorem Sound.answer {p : Pipeline υ} (inv : p.Sound) {s : Server υ} {sink : Nat} {response : Json}
    (arrivals : s.arrivals = p.transport.world.arrivals)
    (perm : ([sink] ++ s.outstanding).Perm p.transport.world.outstanding)
    (turn : ∀ d ∈ p.deferred, d.sink = sink → ∀ post ∈ p.waiting, d.post ≤ post) :
    Sound ({ p with transport := { p.transport with world := s } }.answer env sink response) := by
  have served := inv.serve arrivals perm
  unfold Pipeline.answer
  cases found : p.deferred.find? fun d => d.sink == sink with
  | none => exact served
  | some d =>
    have mine : d ∈ p.deferred := List.mem_of_find?_eq_some found
    have own : d.sink = sink := by simpa using List.find?_some found
    have open_ : sink ∈ p.transport.world.outstanding :=
      perm.mem_iff.mp (List.mem_append_left _ (List.mem_singleton.mpr rfl))
    have waits : d.post ∈ p.waiting := mem_waiting.mpr ⟨d, mine, own ▸ open_, rfl⟩
    have gone : sink ∉ s.outstanding := by
      have distinct := perm.nodup_iff.mpr inv.distinct
      exact (List.nodup_cons.mp distinct).1
    dsimp only
    refine ⟨served.distinct, served.arrived, served.known, served.dispatched, fun r member => ?_,
      ?_, fun post waits' r member => ?_⟩
    · rcases List.mem_append.mp member with old | new
      · exact inv.responded r old
      · cases List.mem_singleton.mp new
        exact (inv.known d mine).2
    · rw [List.map_append, List.pairwise_append]
      refine ⟨inv.inOrder, List.pairwise_singleton _ _, fun post old post' new => ?_⟩
      obtain ⟨r, member, rfl⟩ := List.mem_map.mp old
      cases List.mem_singleton.mp new
      exact inv.ahead d.post waits r member
    · have before := served.ahead post waits'
      rcases List.mem_append.mp member with old | new
      · exact before r old
      · cases List.mem_singleton.mp new
        obtain ⟨d', mine', open', rfl⟩ := mem_waiting.mp waits'
        have ne : d ≠ d' := by
          rintro rfl
          exact gone (own ▸ open')
        have waited : d'.post ∈ p.waiting :=
          mem_waiting.mpr ⟨d', mine', perm.mem_iff.mp (List.mem_append_right _ open'), rfl⟩
        have le := turn d mine own d'.post waited
        exact lt_of_le_of_ne le (inv.post_injective mine mine' ne)

theorem step_sound (streamable : env.config.mode = .streamableHttp) (p : Pipeline υ)
    (event : PipelineEvent υ) (p' : Pipeline υ) (inv : p.Sound) (turn : p.InTurn env event)
    (h : p.step env info conn event = some p') : p'.Sound := by
  cases event with
  | dispatches newId req =>
    cases h
    exact dispatch_sound streamable inv turn
  | elsewhere other newId req =>
    cases h
    exact elsewhere_sound streamable inv other newId req
  | sweeps ids =>
    cases h
    exact ⟨inv.distinct, inv.arrived, inv.known, inv.dispatched, inv.responded, inv.inOrder,
      inv.ahead⟩
  | serves event =>
    by_cases arrives : ∃ message sessionId batch, event = .arrives message sessionId batch
    · obtain ⟨message, sessionId, batch, rfl⟩ := arrives
      cases h
    · have other : ∀ message sessionId batch, event ≠ .arrives message sessionId batch :=
        fun message sessionId batch same => arrives ⟨message, sessionId, batch, same⟩
      have stepped : (p.transport.world.step info event).map (p.serve env event) = some p' := by
        cases event with
        | arrives message sessionId batch => exact absurd rfl (other message sessionId batch)
        | _ => exact h
      obtain ⟨s, served, rfl⟩ := Option.map_eq_some_iff.mp stepped
      obtain ⟨arrivals, done, perm, delivered⟩ := step_outstanding info other served
      cases event with
      | delivers place =>
        obtain ⟨sink, response, queued, rfl⟩ := delivered place rfl
        simp only [InTurn, queued] at turn
        simp only [serve, queued]
        exact inv.answer arrivals perm turn
      | _ => exact inv.serve arrivals perm

/-- Where no response overtakes an earlier request of its connection that is still with the
    worker pool, the responses are enqueued in the order in which the requests came. -/
theorem responses_in_request_order (env : HttpEnv (Server υ)) (info : ServerInfo) (conn : Nat)
    (streamable : env.config.mode = .streamableHttp) (user : υ) (events : List (PipelineEvent υ))
    (p : Pipeline υ) (meets : Meets (step env info conn) (InTurn env) (initial user) events)
    (h : run (step env info conn) (initial user) events = some p) :
    (p.responses.map Prod.fst).Pairwise (· < ·) :=
  (run_invariant (fun p event p' inv turn h => step_sound streamable p event p' inv turn h)
    (initial_sound user) meets h).inOrder

instance decidableInTurn (env : HttpEnv (Server υ)) (p : Pipeline υ) (event : PipelineEvent υ) :
    Decidable (p.InTurn env event) :=
  match event with
  | .dispatches _ _ => inferInstanceAs (Decidable (_ ∨ _))
  | .serves (.delivers place) =>
    match h : p.transport.world.deliveries[place]? with
    | some (sink, _) => decidable_of_iff
        (∀ d ∈ p.deferred, d.sink = sink → ∀ post ∈ p.waiting, d.post ≤ post)
        (by simp only [InTurn, h])
    | none => .isTrue (by simp only [InTurn, h])
  | .serves (.registers _) | .serves (.setsWorkers _) | .serves (.setsPageSize _)
  | .serves .invalidates | .serves (.runs _) | .serves (.arrives _ _ _) | .serves (.runsJob _)
  | .serves (.requestsSampling _ _ _ _) | .serves (.requestsElicitation _ _ _ _)
  | .serves (.requestsRoots _ _ _) | .serves .stops | .elsewhere _ _ _ | .sweeps _ =>
    .isTrue True.intro

/-- A server with one worker, and a session that was opened over another connection. -/
def openSession : List (PipelineEvent Unit) :=
  [.serves (.registers quietTool), .serves (.setsWorkers 1), .serves (.runs true),
    .elsewhere 1 (ascii "s") (requestIn "POST" [] helloText),
    .elsewhere 1 [] (requestIn "POST" (ascii "s") initializedText)]

/-- Two calls go to the worker pool and come back in turn, and a ping follows. -/
def callsThenPing : List (PipelineEvent Unit) :=
  openSession ++
    [PipelineEvent.dispatches [] (requestIn "POST" (ascii "s") callText),
      .dispatches [] (requestIn "POST" (ascii "s") callText),
      .serves (.runsJob 1), .serves (.runsJob 0), .serves (.delivers 1), .serves (.delivers 0),
      .dispatches [] (requestIn "POST" (ascii "s") pingText)]

theorem calls_then_ping_in_order : ∃ p, run (step quietEnv {} 0) (initial ()) callsThenPing = some p ∧
    p.responses.map Prod.fst = [0, 1, 2] ∧ (p.responses.map Prod.fst).Pairwise (· < ·) := by
  have posts : (run (step quietEnv {} 0) (initial ()) callsThenPing).map
      (fun p => p.responses.map Prod.fst) = some [0, 1, 2] := by decide +kernel
  obtain ⟨p, ran, three⟩ := Option.map_eq_some_iff.mp posts
  exact ⟨p, ran, three, responses_in_request_order quietEnv {} 0 rfl () callsThenPing p
    (by decide +kernel) ran⟩

/-- A ping behind a call that the worker pool has taken is answered first. -/
theorem ping_overtakes_call : ¬ ∀ (env : HttpEnv (Server Unit)) (info : ServerInfo) (conn : Nat)
    (events : List (PipelineEvent Unit)) (p : Pipeline Unit), env.config.mode = .streamableHttp →
    run (step env info conn) (initial ()) events = some p →
    (p.responses.map Prod.fst).Pairwise (· < ·) := by
  intro ordered
  have posts : (run (step quietEnv {} 0) (initial ()) (openSession ++
      [PipelineEvent.dispatches [] (requestIn "POST" (ascii "s") callText),
        .dispatches [] (requestIn "POST" (ascii "s") pingText),
        .serves (.runsJob 0), .serves (.delivers 0)])).map
      (fun p => p.responses.map Prod.fst) = some [1, 0] := by decide +kernel
  obtain ⟨p, ran, overtaken⟩ := Option.map_eq_some_iff.mp posts
  have sorted := ordered quietEnv {} 0 _ p rfl ran
  rw [overtaken] at sorted
  revert sorted
  decide

end Pipeline

end CppMcp
