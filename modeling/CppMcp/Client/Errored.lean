import CppMcp.Client.Correlation

namespace CppMcp

open Lib

/-- A step after which no request is errored that was not before. -/
def Client.Sober (c c' : Client) : Prop :=
  ∀ (pr : Nat) (r' : PendingRequest), c'.requests[pr]? = some r' → r'.state = .errored →
    ∃ r, c.requests[pr]? = some r ∧ r.state = .errored

theorem Client.Sober.of_eq {c c' : Client} (requests : c'.requests = c.requests) : c.Sober c' :=
  fun _ r found errored => ⟨r, requests ▸ found, errored⟩

theorem Client.Sober.refl (c : Client) : c.Sober c := .of_eq rfl

theorem Client.Sober.trans {a b c : Client} (first : a.Sober b) (second : b.Sober c) : a.Sober c := by
  intro pr r found errored
  obtain ⟨r', found', errored'⟩ := second pr r found errored
  exact first pr r' found' errored'

theorem Client.Aside.sober {c c' : Client} (aside : c.Aside c') : c.Sober c' := .of_eq aside.requests

theorem update_sober (c : Client) (pr : Nat) {f : PendingRequest → PendingRequest}
    (each : ∀ r, (f r).state = .errored → r.state = .errored) : c.Sober (c.update pr f) := by
  intro pr' r' found errored
  simp only [Client.update, List.getElem?_modify] at found
  obtain ⟨r, present, rfl⟩ := Option.map_eq_some_iff.mp found
  refine ⟨r, present, ?_⟩
  by_cases same : pr = pr'
  · rw [if_pos same] at errored
    exact each r errored
  · rw [if_neg same] at errored
    exact errored

variable (env : ClientEnv)

theorem finish_sober (c : Client) (pr : Nat) {outcome : McpOutcome}
    (other : outcome.terminal ≠ .errored) : c.Sober (c.finish env pr outcome) := by
  unfold Client.finish
  split
  · exact .refl c
  · split
    · exact (update_sober c pr fun r errored => absurd errored other).trans
        (dispatch_aside env _ _).sober
    · exact update_sober c pr fun r errored => absurd errored other

/-- The answer to an `initialize` request that the client does not accept. -/
def Client.refuses (c : Client) (id : RequestId) (outcome : McpOutcome) : Bool :=
  match (c.pendingMap.lookup id).bind fun pr => c.requests[pr]? with
  | some r =>
    outcome.terminal == .succeeded && r.method == Protocol.methodInitialize &&
      !(acceptInitialize outcome.result).isOk
  | none => false

theorem completePending_sober {c : Client} {id : RequestId} {outcome : McpOutcome}
    (accepts : c.refuses id outcome = false) (other : outcome.terminal ≠ .errored) :
    c.Sober (c.completePending env id outcome) := by
  have forgotten : ∀ {before : Client} (pr : Nat) r, c.Sober before →
      c.Sober ((before.forget id r).finish env pr outcome) := by
    intro before pr r sober
    have same : before.Sober (before.forget id r) := .of_eq rfl
    exact (sober.trans same).trans (finish_sober env _ pr other)
  cases found : c.pendingMap.lookup id with
  | none =>
    simp only [Client.completePending, found]
    exact .refl c
  | some pr =>
    cases present : c.requests[pr]? with
    | none =>
      simp only [Client.completePending, found, present]
      exact .refl c
    | some r =>
      simp only [Client.completePending, found, present]
      split
      · rename_i handshake
        obtain ⟨succeeded, method⟩ := handshake
        cases accepted : acceptInitialize outcome.result with
        | ok ir =>
          apply forgotten pr r
          refine Client.Sober.trans ?_ (rawSend_aside _ _).sober
          exact .of_eq rfl
        | error e =>
          simp [Client.refuses, found, present, succeeded, method, accepted, Except.isOk,
            Except.toBool] at accepts
      · exact forgotten pr r (.refl c)

theorem refuses_of_other {c : Client} {id : RequestId} {outcome : McpOutcome}
    (other : outcome.terminal ≠ .succeeded) : c.refuses id outcome = false := by
  unfold Client.refuses
  split
  · simp [other]
  · rfl

theorem onTimer_sober (c : Client) (pr : Nat) : c.Sober (c.onTimer env pr) := by
  unfold Client.onTimer
  repeat' split
  all_goals first
    | exact .refl c
    | exact completePending_sober env (refuses_of_other (by simp)) (by simp)

theorem cancelTask_sober (c : Client) (id : RequestId) (reason : String) :
    c.Sober (c.cancelTask env id reason) := by
  unfold Client.cancelTask
  repeat' split
  all_goals first
    | exact .refl c
    | exact (rawSend_aside c _).sober.trans
        (completePending_sober env (refuses_of_other (by simp)) (by simp))

theorem drain_sober (c : Client) (reason : String) : c.Sober (c.drain env reason) := by
  have each : ∀ (c : Client) pr, c.Sober (c.failPending env reason pr) := by
    intro c pr
    unfold Client.failPending
    repeat' split
    all_goals first
      | exact .refl c
      | exact finish_sober env c pr (by simp)
  have loop : ∀ (prs : List Nat) (c : Client),
      c.Sober (prs.foldl (Client.failPending env reason) c) := by
    intro prs
    induction prs with
    | nil => exact fun c => .refl c
    | cons pr prs ih => exact fun c => (each c pr).trans (ih _)
  exact loop c.keyedRequests { c with connected := false }

theorem onTransportDisconnect_sober (c : Client) : c.Sober (c.onTransportDisconnect env) :=
  (drain_sober env c _).trans (onTransportDisconnect_aside env c).sober

theorem registerTask_sober (c : Client) (pr : Nat) (params : Option Json) :
    c.Sober (c.registerTask pr params) := by
  cases present : c.requests[pr]? with
  | none =>
    simp only [Client.registerTask, present]
    exact .refl c
  | some r =>
    obtain ⟨mid, off, -, -, -, -, -, -, -, timer, marked⟩ := registerTask_spec c pr params present
    have registered : c.Sober mid := by
      intro pr' r' found errored
      rw [marked] at found
      exact update_sober c pr (f := fun r => { r with registered := true, timer := timer r })
        (fun r errored => errored) pr' r' found errored
    exact registered.trans off.sober

/-- The message is an answer to `initialize` that the client does not accept. -/
def Client.refusesMessage (c : Client) (message : Json) : Bool :=
  match parseMessageClient message with
  | .success resp => c.refuses resp.id { terminal := .succeeded, result := resp.result }
  | _ => false

/-- A message makes a request errored only when it is an error with a key of that request. -/
def Client.ErrsBy (c : Client) (message : Json) (pr : Nat) : Prop :=
  ∃ resp, parseMessageClient message = .error resp ∧ c.pendingMap.lookup resp.id = some pr

theorem onTransportMessage_errored {c c' : Client} {message : Json}
    (accepts : c.refusesMessage message = false) (h : c.onTransportMessage env message = .ok c')
    (pr : Nat) (r' : PendingRequest) (found : c'.requests[pr]? = some r')
    (errored : r'.state = .errored) :
    (∃ r, c.requests[pr]? = some r ∧ r.state = .errored) ∨ c.ErrsBy message pr := by
  unfold Client.onTransportMessage at h
  cases parsed : parseMessageClient message with
  | request req =>
    simp only [parsed] at h
    cases h
    exact .inl ((handleInboundRequest_aside env c req).sober pr r' found errored)
  | notification notif =>
    simp only [parsed, Client.handleNotification] at h
    split at h
    · exact .inl ((handleProgress_aside env h).sober pr r' found errored)
    · cases h
      exact .inl ((handlePush_aside env c notif).sober pr r' found errored)
  | success resp =>
    simp only [parsed] at h
    cases h
    simp only [Client.refusesMessage, parsed] at accepts
    exact .inl (completePending_sober env accepts (by simp) pr r' found errored)
  | error resp =>
    simp only [parsed] at h
    cases h
    by_cases own : c.pendingMap.lookup resp.id = some pr
    · exact .inr ⟨resp, parsed, own⟩
    · rw [completePending_other env c _ _ (by simp) own] at found
      exact .inl ⟨r', found, errored⟩

theorem step_errored {c c' : Client} {event : ClientEvent} (h : c.step env event = some c')
    (accepts : ∀ message rest, event = .runTask → c.strand = .message message :: rest →
      c.refusesMessage message = false) (pr : Nat) (r' : PendingRequest)
    (found : c'.requests[pr]? = some r') (errored : r'.state = .errored) :
    (∃ r, c.requests[pr]? = some r ∧ r.state = .errored) ∨
      ∃ message rest, event = .runTask ∧ c.strand = .message message :: rest ∧
        c.ErrsBy message pr := by
  have sober : ∀ {before : Client}, before.requests = c.requests → before.Sober c' →
      (∃ r, c.requests[pr]? = some r ∧ r.state = .errored) ∨
        ∃ message rest, event = .runTask ∧ c.strand = .message message :: rest ∧
          c.ErrsBy message pr := by
    intro before requests sober
    obtain ⟨r, old, was⟩ := sober pr r' found errored
    exact .inl ⟨r, requests ▸ old, was⟩
  cases step_cases h with
  | runTask task rest head =>
    cases task with
    | register place params =>
      exact sober rfl (registerTask_sober { c with strand := rest } place params)
    | transportDisconnect =>
      exact sober rfl (onTransportDisconnect_sober env { c with strand := rest })
    | cancel id reason =>
      exact sober rfl (cancelTask_sober env { c with strand := rest } id reason)
    | timer place => exact sober rfl (onTimer_sober env { c with strand := rest } place)
    | drain reason => exact sober rfl (drain_sober env { c with strand := rest } reason)
    | send message => exact sober rfl (rawSend_aside { c with strand := rest } message).sober
    | message message =>
      simp only [Client.runTask] at found
      split at found
      · rename_i c' handled
        have fine := accepts message rest rfl head
        rcases onTransportMessage_errored env (c := { c with strand := rest }) fine handled pr r'
          found errored with old | errs
        · exact .inl old
        · exact .inr ⟨message, rest, rfl, head, errs⟩
      · split at found
        · rename_i e _ _
          exact .inl (onTransportDisconnect_sober env { c with
            strand := rest, log := c.log ++ ["McpClient io loop died: " ++ e.what],
            ioAlive := false, ended := true } pr r' found errored)
        · exact .inl ⟨r', found, errored⟩
  | builds thread args =>
    simp only [Client.submitBuild] at found
    split at found
    · exact .inl ⟨r', found, errored⟩
    · rcases getElem?_concat found with old | ⟨-, rfl⟩
      · exact .inl ⟨r', old, errored⟩
      · cases errored
  | timerExpires place =>
    exact sober rfl (update_sober (c.post (.timer place)) place
      (f := fun r => { r with timer := false }) fun r errored => errored)
  | disconnectInline | stopDrainsInline => exact sober rfl (drain_sober env _ _)
  | runCallback job rest => exact sober rfl (fire_aside env _ job).sober
  | tests thread args =>
    apply sober rfl (.of_eq _)
    unfold Client.submitTest
    split <;> rfl
  | _ => exact sober rfl (.of_eq rfl)

end CppMcp
