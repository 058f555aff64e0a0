import CppMcp.Client.Completion

namespace CppMcp

open Lib

/-- The state is the one of the promise: waiting while there is no value, else its terminal. -/
def PendingRequest.Agrees (r : PendingRequest) : Prop :=
  (r.promise = none ∧ r.state = .waiting) ∨
  ∃ o, r.promise = some o ∧ o.terminal = r.state ∧ r.state ≠ .waiting

def Client.Settled (c : Client) : Prop := ∀ r ∈ c.requests, r.Agrees

/-- What `complete_pending` makes of an outcome: a handshake that is not accepted has failed. -/
def PendingRequest.ending (r : PendingRequest) (outcome : McpOutcome) : McpOutcome :=
  if outcome.terminal = .succeeded ∧ r.method = Protocol.methodInitialize then
    match acceptInitialize outcome.result with
    | .ok _ => outcome
    | .error _ => handshakeFailed
  else outcome

/-- The request under a key. -/
def Client.keyed (c : Client) (id : RequestId) : Option PendingRequest :=
  (c.pendingMap.lookup id).bind fun pr => c.requests[pr]?

/-- No request that has ended is under the key, unless it has ended this way. -/
def Client.Spares (c : Client) (id : RequestId) (outcome : McpOutcome) : Prop :=
  ∀ r ∈ c.keyed id, r.state ≠ .waiting → (r.ending outcome).terminal = r.state

def timedOut : McpOutcome :=
  { terminal := .timedOut
    failure := some (.mcp Protocol.requestTimedOut "request timed out" none) }

/-- The key under which a task completes a request without a look at its state. -/
def Client.completion (c : Client) : Task → Option (RequestId × McpOutcome)
  | .message message =>
    match parseMessageClient message with
    | .success resp => some (resp.id, { terminal := .succeeded, result := resp.result })
    | .error resp => some (resp.id, { terminal := .errored, rpcError := some resp.error })
    | _ => none
  | .timer pr =>
    match c.requests[pr]? with
    | some r => if r.state = .waiting then some (r.id, timedOut) else none
    | none => none
  | _ => none

/-- The step is no response and no timer that finds a request which has ended otherwise. -/
def KeepsTerminals (c : Client) (event : ClientEvent) : Prop :=
  event = .runTask → ∀ task ∈ c.strand.head?, ∀ ends ∈ c.completion task, c.Spares ends.1 ends.2

instance (c : Client) (id : RequestId) (outcome : McpOutcome) : Decidable (c.Spares id outcome) :=
  inferInstanceAs (Decidable (∀ r ∈ c.keyed id, r.state ≠ .waiting → _))

instance (c : Client) (event : ClientEvent) : Decidable (KeepsTerminals c event) :=
  inferInstanceAs (Decidable (event = .runTask → _))

theorem forall_mem_some {α : Type} (a : α) (P : α → Prop) : (∀ b ∈ some a, P b) ↔ P a := by
  simp only [Option.mem_def, Option.some.injEq, forall_eq']

theorem PendingRequest.Agrees.waiting {r : PendingRequest} (agrees : r.Agrees)
    (waits : r.state = .waiting) : r.promise = none := by
  rcases agrees with ⟨unset, -⟩ | ⟨o, -, -, ended⟩
  · exact unset
  · exact absurd waits ended

theorem PendingRequest.Agrees.ended {r : PendingRequest} (agrees : r.Agrees)
    (ended : r.state ≠ .waiting) : ∃ o, r.promise = some o ∧ o.terminal = r.state := by
  rcases agrees with ⟨-, waits⟩ | ⟨o, set, terminal, -⟩
  · exact absurd waits ended
  · exact ⟨o, set, terminal⟩

theorem Client.Settled.congr {c c' : Client} (settled : c.Settled)
    (requests : c'.requests = c.requests) : c'.Settled := by
  unfold Client.Settled
  rw [requests]
  exact settled

theorem Client.Settled.of_getElem? {c : Client}
    (each : ∀ (pr : Nat) (r : PendingRequest), c.requests[pr]? = some r → r.Agrees) :
    c.Settled := by
  intro r member
  obtain ⟨pr, found⟩ := List.mem_iff_getElem?.mp member
  exact each pr r found

theorem Client.Settled.at {c : Client} (settled : c.Settled) {pr : Nat} {r : PendingRequest}
    (found : c.requests[pr]? = some r) : r.Agrees := settled r (List.mem_of_getElem? found)

theorem update_settled {c : Client} (settled : c.Settled) (pr : Nat)
    {f : PendingRequest → PendingRequest}
    (each : ∀ r, c.requests[pr]? = some r → r.Agrees → (f r).Agrees) : (c.update pr f).Settled := by
  apply Client.Settled.of_getElem?
  intro place r' found
  simp only [Client.update, List.getElem?_modify] at found
  obtain ⟨r, old, rfl⟩ := Option.map_eq_some_iff.mp found
  split
  · rename_i same
    subst same
    exact each r old (settled.at old)
  · exact settled.at old

variable (env : ClientEnv)

/-- `finish` leaves state and promise in agreement unless it changes how a request has ended. -/
theorem finish_settled_iff {c : Client} (settled : c.Settled) {pr : Nat} {r : PendingRequest}
    (present : c.requests[pr]? = some r) {outcome : McpOutcome}
    (terminal : outcome.terminal ≠ .waiting) :
    (c.finish env pr outcome).Settled ↔ (r.state ≠ .waiting → outcome.terminal = r.state) := by
  unfold Client.finish
  simp only [present]
  by_cases waits : r.state = .waiting
  · rw [if_pos waits]
    refine iff_of_true (Client.Settled.congr ?_ (dispatch_aside env _ _).requests)
      fun ended => absurd waits ended
    refine update_settled settled pr fun r' present' agrees => ?_
    obtain rfl : r = r' := by simpa [present] using present'
    exact .inr ⟨outcome, by simp [PendingRequest.finished, agrees.waiting waits], rfl, terminal⟩
  · rw [if_neg waits]
    obtain ⟨o, set, ends⟩ := (settled.at present).ended waits
    constructor
    · intro after _
      have found : (c.update pr fun r => { r with state := outcome.terminal }).requests[pr]? =
          some { r with state := outcome.terminal } := by
        simp [Client.update, present]
      obtain ⟨o', set', ends'⟩ := (after.at found).ended terminal
      obtain rfl : o = o' := by simpa [set] using set'
      exact ends'.symm.trans ends
    · intro same
      refine update_settled settled pr fun r' present' agrees => ?_
      obtain rfl : r = r' := by simpa [present] using present'
      exact .inr ⟨o, set, ends.trans (same waits).symm, terminal⟩

theorem ending_terminal {r : PendingRequest} {outcome : McpOutcome}
    (terminal : outcome.terminal ≠ .waiting) : (r.ending outcome).terminal ≠ .waiting := by
  unfold PendingRequest.ending
  split
  · split
    · exact terminal
    · decide
  · exact terminal

theorem completePending_ending {c : Client} {id : RequestId} {pr : Nat} {r : PendingRequest}
    (found : c.pendingMap.lookup id = some pr) (present : c.requests[pr]? = some r)
    (outcome : McpOutcome) : ∃ aside, c.Aside aside ∧
      c.completePending env id outcome = (aside.forget id r).finish env pr (r.ending outcome) := by
  simp only [Client.completePending, found, present, PendingRequest.ending]
  split
  · cases accepted : acceptInitialize outcome.result with
    | ok ir =>
      have greeted : c.Aside
          { c with serverResult := some ir, connected := true, initialized := true } :=
        .of_eq rfl rfl rfl rfl rfl rfl rfl rfl
      exact ⟨_, greeted.trans (rawSend_aside _ _), rfl⟩
    | error e =>
      have logged (e : Exn) : c.Aside
          { c with log := c.log ++ ["initialize result parse failed: " ++ e.what] } :=
        .of_eq rfl rfl rfl rfl rfl rfl rfl rfl
      cases e with
      | mcp code message data => exact ⟨c, .refl c, rfl⟩
      | std what => exact ⟨_, logged (.std what), rfl⟩
      | other => exact ⟨_, logged .other, rfl⟩
  · exact ⟨c, .refl c, rfl⟩

theorem completePending_settled_iff {c : Client} (settled : c.Settled) (id : RequestId)
    {outcome : McpOutcome} (terminal : outcome.terminal ≠ .waiting) :
    (c.completePending env id outcome).Settled ↔ c.Spares id outcome := by
  unfold Client.Spares Client.keyed
  cases found : c.pendingMap.lookup id with
  | none =>
    have same : c.completePending env id outcome = c := by
      simp [Client.completePending, found]
    rw [same]
    exact iff_of_true settled fun r none => by cases none
  | some pr =>
    rw [Option.bind_some]
    cases present : c.requests[pr]? with
    | none =>
      have same : c.completePending env id outcome = c := by
        simp [Client.completePending, found, present]
      rw [same]
      exact iff_of_true settled fun r none => by cases none
    | some r =>
      obtain ⟨aside, off, eq⟩ := completePending_ending env found present outcome
      have requests : (aside.forget id r).requests = c.requests := off.requests
      rw [eq, finish_settled_iff env (settled.congr requests) (requests ▸ present)
        (ending_terminal terminal)]
      constructor
      · intro spared r' same ended
        cases same
        exact spared ended
      · exact fun spares ended => spares r rfl ended

theorem cancelTask_settled {c : Client} (settled : c.Settled) (id : RequestId) (reason : String) :
    (c.cancelTask env id reason).Settled := by
  unfold Client.cancelTask
  split
  · exact settled
  · rename_i pr found
    split
    · exact settled
    · rename_i r present
      split
      · rename_i waits
        have off := rawSend_aside c (serializeNotification ⟨Protocol.notifCancelled,
          some (.mk [("requestId", requestIdToJson id), ("reason", .string reason)])⟩)
        refine (completePending_settled_iff env (settled.congr off.requests) id (by simp)).mpr ?_
        intro r' keyed ended
        have own : some r = some r' := by
          rw [← keyed, Client.keyed, off.pendingMap, found, off.requests, Option.bind_some, present]
        cases own
        exact absurd waits ended
      · exact settled

theorem failPending_settled {c : Client} (settled : c.Settled) (reason : String) (pr : Nat) :
    (c.failPending env reason pr).Settled := by
  unfold Client.failPending
  split
  · exact settled
  · rename_i r present
    split
    · rename_i waits
      refine (finish_settled_iff env settled present (by simp)).mpr ?_
      exact fun ended => absurd waits ended
    · exact settled

theorem failLoop_settled {c : Client} (settled : c.Settled) (reason : String) (prs : List Nat) :
    (prs.foldl (Client.failPending env reason) c).Settled := by
  induction prs generalizing c with
  | nil => exact settled
  | cons pr prs ih => exact ih (failPending_settled env settled reason pr)

theorem drain_settled {c : Client} (settled : c.Settled) (reason : String) :
    (c.drain env reason).Settled := by
  have failed := failLoop_settled env (c := { c with connected := false })
    (settled.congr rfl) reason c.keyedRequests
  exact failed.congr rfl

theorem onTransportDisconnect_settled {c : Client} (settled : c.Settled) :
    (c.onTransportDisconnect env).Settled := by
  have drained := drain_settled env settled "transport disconnected"
  unfold Client.onTransportDisconnect
  dsimp only
  split
  · exact drained.congr (invoke_aside env _ _ _).requests
  · exact drained

theorem registerTask_settled {c : Client} (settled : c.Settled) (pr : Nat) (params : Option Json) :
    (c.registerTask pr params).Settled := by
  unfold Client.registerTask
  split
  · exact settled
  · rename_i r present
    have keyed : (c.registerPending pr r).Settled := by
      have marked : (c.update pr fun r => { r with registered := true }).Settled :=
        update_settled settled pr fun r _ agrees => agrees
      exact marked.congr rfl
    dsimp only
    split
    · have armed : ((c.registerPending pr r).update pr fun r => { r with timer := true }).Settled :=
        update_settled keyed pr fun r _ agrees => agrees
      exact armed.congr (rawSend_aside _ _).requests
    · exact keyed.congr (rawSend_aside _ _).requests

theorem onTransportMessage_settled_iff {c c' : Client} (settled : c.Settled) {message : Json}
    (h : c.onTransportMessage env message = .ok c') : c'.Settled ↔
      ∀ ends ∈ c.completion (.message message), c.Spares ends.1 ends.2 := by
  unfold Client.onTransportMessage at h
  have answers {id : RequestId} {outcome : McpOutcome} (terminal : outcome.terminal ≠ .waiting) :
      (c.completePending env id outcome).Settled ↔
        ∀ ends ∈ some (id, outcome), c.Spares ends.1 ends.2 := by
    rw [completePending_settled_iff env settled id terminal]
    exact (forall_mem_some (id, outcome) fun ends => c.Spares ends.1 ends.2).symm
  cases parsed : parseMessageClient message with
  | request req =>
    simp only [parsed] at h
    cases h
    refine iff_of_true (settled.congr (handleInboundRequest_aside env c req).requests) ?_
    simp [Client.completion, parsed]
  | notification notif =>
    simp only [parsed] at h
    refine iff_of_true (settled.congr (handleNotification_aside env h).requests) ?_
    simp [Client.completion, parsed]
  | success resp =>
    simp only [parsed] at h
    cases h
    simp only [Client.completion, parsed]
    exact answers (by simp)
  | error resp =>
    simp only [parsed] at h
    cases h
    simp only [Client.completion, parsed]
    exact answers (by simp)

theorem onTimer_settled_iff {c : Client} (settled : c.Settled) (pr : Nat) :
    (c.onTimer env pr).Settled ↔
      ∀ ends ∈ c.completion (.timer pr), c.Spares ends.1 ends.2 := by
  cases present : c.requests[pr]? with
  | none =>
    simp only [Client.onTimer, Client.completion, present]
    exact iff_of_true settled fun ends none => by cases none
  | some r =>
    by_cases waits : r.state = .waiting
    · simp only [Client.onTimer, Client.completion, present, waits, if_true]
      show (c.completePending env r.id timedOut).Settled ↔ _
      rw [completePending_settled_iff env settled r.id (by decide)]
      exact (forall_mem_some (r.id, timedOut) fun ends => c.Spares ends.1 ends.2).symm
    · simp only [Client.onTimer, Client.completion, present, waits, if_false]
      exact iff_of_true settled fun ends none => by cases none

theorem runTask_settled_iff {c : Client} (settled : c.Settled) (task : Task) :
    (c.runTask env task).Settled ↔
      ∀ ends ∈ c.completion task, c.Spares ends.1 ends.2 := by
  have other {c' : Client} (settled' : c'.Settled) (plain : c.completion task = none) :
      c'.Settled ↔
        ∀ ends ∈ c.completion task, c.Spares ends.1 ends.2 :=
    iff_of_true settled' fun ends some => by simp [plain] at some
  cases task with
  | register pr params => exact other (registerTask_settled settled pr params) rfl
  | message message =>
    simp only [Client.runTask]
    cases handled : c.onTransportMessage env message with
    | ok c' => exact onTransportMessage_settled_iff env settled handled
    | error e =>
      have plain : c.completion (.message message) = none := by
        unfold Client.onTransportMessage at handled
        cases parsed : parseMessageClient message <;> simp only [parsed] at handled
        all_goals first
          | cases handled
          | simp [Client.completion, parsed]
      dsimp only
      split
      · exact other (onTransportDisconnect_settled env (settled.congr rfl)) plain
      · exact other settled plain
  | transportDisconnect => exact other (onTransportDisconnect_settled env settled) rfl
  | cancel id reason => exact other (cancelTask_settled env settled id reason) rfl
  | timer pr => exact onTimer_settled_iff env settled pr
  | drain reason => exact other (drain_settled env settled reason) rfl
  | send message => exact other (settled.congr (rawSend_aside c message).requests) rfl

theorem step_settled_iff {c c' : Client} {event : ClientEvent} (settled : c.Settled)
    (h : c.step env event = some c') : c'.Settled ↔ KeepsTerminals c event := by
  have other {c' : Client} (plain : event ≠ .runTask) (settled' : c'.Settled) :
      c'.Settled ↔ KeepsTerminals c event :=
    iff_of_true settled' fun runs => absurd runs plain
  cases step_cases h with
  | runTask task rest head alive =>
    have keeps : KeepsTerminals c .runTask ↔
        ∀ ends ∈ c.completion task, c.Spares ends.1 ends.2 := by
      simp only [KeepsTerminals, head, List.head?_cons, forall_mem_some, true_implies]
    rw [keeps]
    exact runTask_settled_iff env (c := { c with strand := rest }) (settled.congr rfl) task
  | builds thread args =>
    apply other (by simp)
    unfold Client.submitBuild
    split
    · exact settled.congr rfl
    · intro r member
      rcases List.mem_append.mp member with old | new
      · exact settled r old
      · cases List.mem_singleton.mp new
        exact .inl ⟨rfl, rfl⟩
  | tests thread args =>
    apply other (by simp)
    unfold Client.submitTest
    split
    · exact settled
    · exact settled.congr rfl
  | timerExpires pr =>
    apply other (by simp)
    have unarmed : (c.update pr fun r => { r with timer := false }).Settled :=
      update_settled settled pr fun r _ agrees => agrees
    exact unarmed.congr rfl
  | runCallback job rest queued =>
    exact other (by simp) (settled.congr (fire_aside env _ job).requests)
  | runJob place job found =>
    exact other (by simp) (settled.congr (runAndRespond_aside env _ job).requests)
  | disconnectInline =>
    exact other (by simp) (drain_settled env (c := { c with ended := true }) (settled.congr rfl) _)
  | stopDrainsInline =>
    exact other (by simp)
      (drain_settled env (c := { c with ended := true, stopDrained := true }) (settled.congr rfl) _)
  | _ => exact other (by simp) (settled.congr rfl)

/-- From the first state in which a request no longer waits, its state stays what it is, and what
    the promise holds and the callback was given is an outcome with this terminal. -/
def TerminalsFinal (transport : Bool) (events : List ClientEvent) : Prop :=
  ∀ front middle back c c', events = front ++ middle ++ back →
    run (Client.step env) (Client.initial transport) front = some c →
    run (Client.step env) c middle = some c' →
    ∀ pr r, c.requests[pr]? = some r → r.state ≠ .waiting → ∃ r' o,
      c'.requests[pr]? = some r' ∧ r'.state = r.state ∧ r'.promise = some o ∧
      o.terminal = r.state ∧ ∀ call ∈ c'.calls, call.finishes pr = true → call.passes o

/-- Terminal states are final in a run exactly if no response and no timer finds a request that
    has ended in another state. -/
theorem terminal_states_final_iff (transport : Bool) (events : List ClientEvent) (c : Client)
    (h : run (Client.step env) (Client.initial transport) events = some c) :
    TerminalsFinal env transport events ↔
      Meets (Client.step env) KeepsTerminals (Client.initial transport) events := by
  have start : (Client.initial transport).Settled := fun r member => by cases member
  have exact (c : Client) (event : ClientEvent) (c' : Client) (settled : c.Settled)
      (h : c.step env event = some c') : c'.Settled ↔ KeepsTerminals c event :=
    step_settled_iff env settled h
  rw [← along_iff_meets exact start h]
  constructor
  · intro final front back t split reached
    apply Client.Settled.of_getElem?
    intro pr r present
    by_cases waits : r.state = .waiting
    · exact .inl ⟨(run_completedOnce env reached).unset pr r present waits, waits⟩
    · obtain ⟨r', o, present', -, set, terminal, -⟩ :=
        final front [] back t t (by rw [split, List.append_nil]) reached rfl pr r present waits
      obtain rfl : r = r' := by simpa [present] using present'
      exact .inr ⟨o, set, terminal, waits⟩
  · intro settled front middle back c c' split reached later pr r present ended
    have before : c.Settled := settled front (middle ++ back) c (by rw [split, List.append_assoc])
      reached
    have reached' : run (Client.step env) (Client.initial transport) (front ++ middle) = some c' := by
      rw [run_append, reached]
      exact later
    have after : c'.Settled := settled (front ++ middle) back c' split reached'
    obtain ⟨o, set, terminal⟩ := (before.at present).ended ended
    have kept : c'.promiseOf pr = some o := by
      apply run_promise env _ later
      rw [Client.promiseOf, present]
      exact set
    obtain ⟨r', present', set'⟩ := Option.bind_eq_some_iff.mp kept
    have state : r'.state = r.state := by
      rcases after.at present' with ⟨unset, -⟩ | ⟨o', set'', terminal', -⟩
      · rw [unset] at set'
        cases set'
      · obtain rfl : o = o' := by simpa [set'] using set''
        exact terminal'.symm.trans terminal
    refine ⟨r', o, present', state, set', terminal, fun call member finishes => ?_⟩
    obtain ⟨o', held, passes⟩ := (run_completedOnce env reached').passed call member pr finishes
    obtain rfl : o = o' := by simpa [kept] using held
    exact passes

/-- The answers to a ping under its id and, too late, once more under the id. -/
def answeredTwice : List ClientEvent :=
  answeredPing ++ [.arrives (makeErrorResponse (.int 2) 1 "no"), .runTask]

theorem answered_twice_final : TerminalsFinal {} true answeredTwice := by
  have runs : (run (Client.step {}) (Client.initial true) answeredTwice).isSome = true := by
    decide +kernel
  obtain ⟨c, h⟩ := Option.isSome_iff_exists.mp runs
  refine (terminal_states_final_iff {} true answeredTwice c h).mpr ?_
  decide +kernel

/-- The result of a ping comes under its token, so that its id stays a key, and an error follows
    under the id. -/
def answeredByToken : List ClientEvent :=
  watchedPing ++ [.arrives (makeSuccessResponse (.str "t") (.integer 7)), .runTask]

theorem late_error_overwrites : ¬ TerminalsFinal {} true
    (answeredByToken ++ [.arrives (makeErrorResponse (.int 2) 1 "no"), .runTask]) := by
  have shape : ((run (Client.step {}) (Client.initial true) answeredByToken).bind fun c =>
      (run (Client.step {}) c [.arrives (makeErrorResponse (.int 2) 1 "no"), .runTask]).map
        fun c' => (c.requests[1]?.map (·.state), c'.requests[1]?.map (·.state))) =
      some (some .succeeded, some .errored) := by decide +kernel
  obtain ⟨c, h, rest⟩ := Option.bind_eq_some_iff.mp shape
  obtain ⟨c', later, seen⟩ := Option.map_eq_some_iff.mp rest
  simp only [Prod.mk.injEq, Option.map_eq_some_iff] at seen
  obtain ⟨⟨r, present, succeeded⟩, r', present', errored⟩ := seen
  intro final
  obtain ⟨r'', o, found, same, -⟩ := final _ _ [] c c' (by rw [List.append_nil]) h later 1 r present
    (by rw [succeeded]; decide)
  obtain rfl : r' = r'' := by simpa [present'] using found
  rw [succeeded, errored] at same
  cases same

end CppMcp
