import CppMcp.Lib.Table
import CppMcp.Server.Machine
import CppMcp.Server.Responses

namespace CppMcp

open Lib

variable {υ : Type}

/-- The number under which a message is looked up among the outbound requests. -/
def answeredId (message : Json) : Option Int :=
  match parseMessage message with
  | .success ⟨.int n, _⟩ => some n
  | .error ⟨.int n, _⟩ => some n
  | _ => none

/-- A response message that arrives under the session. -/
def ServerEvent.isResponseFrom (sessionId : SessionId) : ServerEvent υ → Bool
  | .arrives message sender _ => sender == sessionId && !message.contains "method"
  | _ => false

def ServerEvent.ends : ServerEvent υ → Bool
  | .stops => true
  | _ => false

/-- A callback of the outbound request `id` was called in the step. -/
def Server.Completes (s s' : Server υ) (id : Int) : Prop :=
  ∃ ok payload, s'.completions = s.completions ++ [⟨id, ok, payload⟩]

/-- The step completes an outstanding request only by a response from its own session,
    and takes away no other entry but by stopping the server. -/
def Isolated (s : Server υ) (event : ServerEvent υ) (s' : Server υ) : Prop :=
  ∀ id p, s.outboundPending.lookup id = some p →
    (s.Completes s' id → event.isResponseFrom p.sessionId = true) ∧
    (s'.outboundPending.lookup id = none → s.Completes s' id ∨ event.ends = true)

/-- What is looked up under an outstanding id is a response from the session asked. -/
def Server.answersOwn (s : Server υ) : ServerEvent υ → Prop
  | .arrives message sender _ => s.stopping = false → ∀ id p, answeredId message = some id →
      s.outboundPending.lookup id = some p →
      sender = p.sessionId ∧ message.contains "method" = false
  | _ => True

/-- Ids are given out once. -/
def FreshIds (s : Server υ) : Prop :=
  ∀ id p, s.outboundPending.lookup id = some p → id < s.nextOutboundId

theorem callBack_outbound (s : Server υ) (callback : Handler υ Unit) :
    (s.callBack callback).outboundPending = s.outboundPending ∧
      (s.callBack callback).completions = s.completions ∧
      (s.callBack callback).nextOutboundId = s.nextOutboundId := by
  unfold Server.callBack
  split <;> exact ⟨rfl, rfl, rfl⟩

theorem completeServerRequest_outbound {s : Server υ} {id : Int} {p : OutboundPending υ}
    (found : s.outboundPending.lookup id = some p) (ok : Bool) (payload : Json) :
    (s.completeServerRequest id ok payload).outboundPending = s.outboundPending.erase id ∧
      (s.completeServerRequest id ok payload).completions =
        s.completions ++ [⟨id, ok, payload⟩] ∧
      (s.completeServerRequest id ok payload).nextOutboundId = s.nextOutboundId := by
  simp only [Server.completeServerRequest, found]
  exact callBack_outbound _ _

theorem completeServerRequest_absent {s : Server υ} {id : Int}
    (absent : s.outboundPending.lookup id = none) (ok : Bool) (payload : Json) :
    s.completeServerRequest id ok payload = s := by
  simp only [Server.completeServerRequest, absent]

structure SameOutbound (s s' : Server υ) : Prop where
  outboundPending : s'.outboundPending = s.outboundPending
  completions : s'.completions = s.completions
  nextOutboundId : s'.nextOutboundId = s.nextOutboundId

variable (info : ServerInfo)

/-- A message completes the outstanding request whose id it is looked up under, and
    otherwise leaves the table. -/
theorem onMessage_outbound (s : Server υ) (message : Json) (sessionId : SessionId) (batch : Bool) :
    (∃ id p ok payload, answeredId message = some id ∧ s.outboundPending.lookup id = some p ∧
      (s.onMessage info message sessionId batch).outboundPending = s.outboundPending.erase id ∧
      (s.onMessage info message sessionId batch).completions =
        s.completions ++ [⟨id, ok, payload⟩] ∧
      (s.onMessage info message sessionId batch).nextOutboundId = s.nextOutboundId) ∨
    ((∀ id, answeredId message = some id → s.outboundPending.lookup id = none) ∧
      SameOutbound s (s.onMessage info message sessionId batch)) := by
  simp only [Server.onMessage, answeredId]
  cases parsed : parseMessage message with
  | request req =>
    refine .inr ⟨by simp, ?_⟩
    simp only
    split
    · exact ⟨rfl, rfl, rfl⟩
    · have serving := (processRequest_spec info req sessionId (s.arrived message)).2
      exact ⟨serving.outboundPending, serving.completions, serving.nextOutboundId⟩
  | notification notif =>
    refine .inr ⟨by simp, ?_⟩
    simp only [Server.processNotification]
    split
    · exact ⟨rfl, rfl, rfl⟩
    · split <;> exact ⟨rfl, rfl, rfl⟩
  | success resp =>
    obtain ⟨id, result⟩ := resp
    cases id with
    | int n =>
      simp only [Server.onClientResponse, Option.some.injEq]
      cases found : s.outboundPending.lookup n with
      | some p =>
        have present : (s.arrived message).outboundPending.lookup n = some p := found
        exact .inl ⟨n, p, true, result, rfl, found,
          completeServerRequest_outbound present true result⟩
      | none =>
        have absent : (s.arrived message).outboundPending.lookup n = none := found
        rw [completeServerRequest_absent absent]
        exact .inr ⟨fun id same => same ▸ found, rfl, rfl, rfl⟩
    | null => exact .inr ⟨by simp, ⟨rfl, rfl, rfl⟩⟩
    | str text => exact .inr ⟨by simp, ⟨rfl, rfl, rfl⟩⟩
  | error resp =>
    obtain ⟨id, error⟩ := resp
    cases id with
    | int n =>
      simp only [Server.isOutbound, Server.onClientErrorResponse, Option.some.injEq]
      cases found : s.outboundPending.lookup n with
      | some p =>
        have present : (s.arrived message).outboundPending.lookup n = some p := found
        simp only [present, Option.isSome_some, if_true]
        exact .inl ⟨n, p, false, _, rfl, found, completeServerRequest_outbound present false _⟩
      | none =>
        have absent : (s.arrived message).outboundPending.lookup n = none := found
        simp only [absent, Option.isSome_none]
        exact .inr ⟨fun id same => same ▸ found, rfl, rfl, rfl⟩
    | null => exact .inr ⟨by simp, ⟨rfl, rfl, rfl⟩⟩
    | str text => exact .inr ⟨by simp, ⟨rfl, rfl, rfl⟩⟩

/-- A server request leaves the other entries, and takes a fresh id for its own. -/
theorem sendServerRequest_outbound {s : Server υ} (fresh : FreshIds s) (p : OutboundPending υ)
    (params : Json) (sends : Bool) :
    (∀ id q, s.outboundPending.lookup id = some q →
      (s.sendServerRequest p params sends).outboundPending.lookup id = some q) ∧
    (s.sendServerRequest p params sends).completions = s.completions ∧
    FreshIds (s.sendServerRequest p params sends) := by
  have other {id : Int} {q : OutboundPending υ} (found : s.outboundPending.lookup id = some q) :
      id ≠ s.nextOutboundId := by
    have bound := fresh id q found
    omega
  unfold Server.sendServerRequest
  split
  · dsimp only
    split
    · refine ⟨fun id q found => ?_, rfl, fun id q found => ?_⟩
      · simpa [AList.lookup_insert_ne (other found)] using found
      · show id < s.nextOutboundId + 1
        rcases lookup_insert_cases found with ⟨new, -⟩ | ⟨-, old⟩
        · omega
        · have bound := fresh id q old
          omega
    · refine ⟨fun id q found => ?_, rfl, fun id q found => ?_⟩
      · simp only [Server.logText]
        rw [AList.lookup_erase_ne (other found), AList.lookup_insert_ne (other found), found]
      · show id < s.nextOutboundId + 1
        obtain ⟨other, old⟩ := lookup_erase found
        rw [AList.lookup_insert_ne other] at old
        have bound := fresh id q old
        omega
  · exact ⟨fun id q found => found, rfl, fresh⟩

/-- A step that leaves every entry and calls no callback is isolated. -/
theorem isolated_of_kept {s s' : Server υ} {event : ServerEvent υ}
    (kept : ∀ id q, s.outboundPending.lookup id = some q →
      s'.outboundPending.lookup id = some q) (silent : s'.completions = s.completions) :
    Isolated s event s' := by
  intro id p found
  refine ⟨fun ⟨ok, payload, called⟩ => ?_, fun gone => ?_⟩
  · rw [silent] at called
    simp at called
  · rw [kept id p found] at gone
    cases gone

theorem sameOutbound_isolated {s s' : Server υ} {event : ServerEvent υ}
    (same : SameOutbound s s') : Isolated s event s' :=
  isolated_of_kept (fun _ _ found => same.outboundPending ▸ found) same.completions

theorem FreshIds.same {s s' : Server υ} (fresh : FreshIds s) (same : SameOutbound s s') :
    FreshIds s' := by
  intro id p found
  rw [same.nextOutboundId]
  exact fresh id p (same.outboundPending ▸ found)

theorem runJob_outbound (s : Server υ) (jobs : List Job) (job : Job) :
    SameOutbound s ({ s with jobs }.runJob info job) := by
  have serving := (processRequest_spec info job.request job.sessionId { s with jobs }).2
  exact ⟨serving.outboundPending, serving.completions, serving.nextOutboundId⟩

theorem onMessage_isolated_iff (s : Server υ) (message : Json) (sessionId : SessionId)
    (batch : Bool) (working : s.stopping = false) :
    Isolated s (.arrives message sessionId batch) (s.onMessage info message sessionId batch) ↔
      s.answersOwn (.arrives message sessionId batch) := by
  rcases onMessage_outbound info s message sessionId batch with
    ⟨id, p, ok, payload, answered, found, table, called, -⟩ | ⟨absent, same⟩
  · constructor
    · intro isolated _ id' p' answered' found'
      rw [answered] at answered'
      cases answered'
      rw [found] at found'
      cases found'
      have response := (isolated id p found).1 ⟨ok, payload, called⟩
      simpa [ServerEvent.isResponseFrom] using response
    · intro own id' p' found'
      by_cases same : id' = id
      · subst same
        rw [found] at found'
        cases found'
        refine ⟨fun _ => ?_, fun _ => .inl ⟨ok, payload, called⟩⟩
        simpa [ServerEvent.isResponseFrom] using own working id' p answered found
      · refine ⟨fun ⟨ok', payload', called'⟩ => ?_, fun gone => ?_⟩
        · rw [called] at called'
          have eq := List.append_cancel_left called'
          simp only [List.cons.injEq, CompletedRequest.mk.injEq] at eq
          exact absurd eq.1.1.symm same
        · rw [table, AList.lookup_erase_ne same, found'] at gone
          cases gone
  · refine iff_of_true (sameOutbound_isolated same) fun _ id p answered found => ?_
    rw [absent id answered] at found
    cases found

theorem request_isolated {s : Server υ} (fresh : FreshIds s) {event : ServerEvent υ}
    (capable : Bool) (p : OutboundPending υ) (params : Json) (sends : Bool) :
    Isolated s event (if capable then s.sendServerRequest p params sends else s) ∧
      FreshIds (if capable then s.sendServerRequest p params sends else s) := by
  cases capable with
  | true =>
    obtain ⟨kept, silent, fresh'⟩ := sendServerRequest_outbound fresh p params sends
    exact ⟨isolated_of_kept kept silent, fresh'⟩
  | false => exact ⟨sameOutbound_isolated ⟨rfl, rfl, rfl⟩, fresh⟩

theorem step_quiet {s s' : Server υ} (fresh : FreshIds s) {event : ServerEvent υ}
    (h : s.step info event = some s')
    (quiet : ∀ message sessionId batch, event ≠ .arrives message sessionId batch) :
    Isolated s event s' ∧ FreshIds s' := by
  have unchanged {s' : Server υ} (same : SameOutbound s s') : Isolated s event s' ∧ FreshIds s' :=
    ⟨sameOutbound_isolated same, fresh.same same⟩
  cases event with
  | arrives message sessionId batch => exact absurd rfl (quiet message sessionId batch)
  | runsJob place =>
    simp only [Server.step] at h
    split at h
    · cases h
      exact unchanged (runJob_outbound info s _ _)
    · cases h
  | delivers place =>
    simp only [Server.step] at h
    split at h
    · cases h
      exact unchanged ⟨rfl, rfl, rfl⟩
    · cases h
  | requestsSampling params callbacks sessionId sends =>
    cases h
    exact request_isolated fresh _ _ _ _
  | requestsElicitation params callbacks sessionId sends =>
    cases h
    exact request_isolated fresh _ _ _ _
  | requestsRoots callbacks sessionId sends =>
    cases h
    exact request_isolated fresh _ _ _ _
  | registers registry | setsWorkers n | runs starts =>
    cases h
    split <;> exact unchanged ⟨rfl, rfl, rfl⟩
  | setsPageSize n | invalidates =>
    cases h
    exact unchanged ⟨rfl, rfl, rfl⟩
  | stops =>
    cases h
    refine ⟨fun id p _ => ⟨fun ⟨ok, payload, called⟩ => ?_, fun _ => .inr rfl⟩, fun id p found => ?_⟩
    · simp at called
    · simp at found

theorem step_freshIds {s s' : Server υ} {event : ServerEvent υ} (fresh : FreshIds s)
    (h : s.step info event = some s') : FreshIds s' := by
  cases event with
  | arrives message sessionId batch =>
    simp only [Server.step, Option.ite_none_left_eq_some, Option.some.injEq] at h
    obtain ⟨-, rfl⟩ := h
    rcases onMessage_outbound info s message sessionId batch with
      ⟨id, p, ok, payload, -, -, table, -, next⟩ | ⟨-, same⟩
    · intro id' q found
      rw [table] at found
      rw [next]
      exact fresh id' q (lookup_erase found).2
    · exact fresh.same same
  | _ => exact (step_quiet info fresh h (by simp)).2

/-- A step is isolated exactly when what it looks up is the session's own response. -/
theorem step_isolated_iff {s : Server υ} (fresh : FreshIds s) (event : ServerEvent υ) :
    (∀ s', s.step info event = some s' → Isolated s event s') ↔ s.answersOwn event := by
  cases event with
  | arrives message sessionId batch =>
    cases stopping : s.stopping with
    | true =>
      refine iff_of_true (fun s' h => ?_) fun working => ?_
      · simp [Server.step, stopping] at h
      · rw [stopping] at working
        cases working
    | false =>
      rw [← onMessage_isolated_iff info s message sessionId batch stopping]
      simp [Server.step, stopping]
  | _ => exact iff_of_true (fun s' h => (step_quiet info fresh h (by simp)).1) True.intro

/-- Every step of a run leaves each outstanding request to its own session exactly when
    every message that is looked up under an outstanding id is such a response. -/
theorem run_isolated_iff (user : υ) (events : List (ServerEvent υ)) :
    Meets (Server.step info) (fun s e => ∀ s', s.step info e = some s' → Isolated s e s')
      (Server.initial user) events ↔
    Meets (Server.step info) (fun s e => s.answersOwn e) (Server.initial user) events := by
  refine meets_congr (fun s e s' fresh h => step_freshIds info fresh h)
    (fun s e fresh => step_isolated_iff info fresh e) (fun id p found => ?_) events
  simp [Server.initial] at found

/-- The session's `initialize`, with the roots capability. -/
def rootsHello : Json :=
  serializeRequest ⟨.int 1, Protocol.methodInitialize,
    some (.mk [("capabilities", .mk [("roots", .mk [])])])⟩

/-- The server asks session `a` for its roots. -/
def askedRoots : List (ServerEvent Unit) :=
  [.runs true, .arrives rootsHello (ascii "a") false, .requestsRoots {} (ascii "a") true]

/-- Session `b` answers in its place. -/
def forgedAnswer : ServerEvent Unit :=
  .arrives (makeSuccessResponse (.int 1) .null) (ascii "b") false

theorem forged_answer_completes : ∃ s s', run (Server.step {}) (Server.initial ()) askedRoots =
    some s ∧ s.step {} forgedAnswer = some s' ∧ ¬ Isolated s forgedAnswer s' := by
  have shape : (run (Server.step {}) (Server.initial ()) askedRoots).map
      (fun s => ((s.outboundPending.lookup 1).map fun p => p.sessionId, s.completions,
        (s.step {} forgedAnswer).map fun s' => s'.completions)) =
      some (some (ascii "a"), [], some [⟨1, true, .null⟩]) := by decide
  obtain ⟨s, h, seen⟩ := Option.map_eq_some_iff.mp shape
  simp only [Prod.mk.injEq, Option.map_eq_some_iff] at seen
  obtain ⟨⟨p, found, asked⟩, before, s', stepped, after⟩ := seen
  refine ⟨s, s', h, stepped, fun isolated => ?_⟩
  have own := (isolated 1 p found).1 ⟨true, .null, by rw [before, after]; rfl⟩
  rw [asked] at own
  exact absurd own (by decide)

end CppMcp
