import CppMcp.Client.Completion

namespace CppMcp

open Lib

/-- An end that an answer brings, as against the client's own ends. -/
def McpOutcome.IsAnswer (o : McpOutcome) : Prop := o.terminal = .succeeded ∨ o.terminal = .errored

/-- A step that puts no answer into a promise. -/
def Client.Mum (c c' : Client) : Prop :=
  ∀ pr o, o.IsAnswer → c'.promiseOf pr = some o → c.promiseOf pr = some o

namespace Client.Mum

theorem of_eq {c c' : Client} (requests : c'.requests = c.requests) : c.Mum c' := by
  intro pr o _ set
  rwa [promiseOf, requests] at set

theorem refl (c : Client) : c.Mum c := .of_eq rfl

theorem trans {a b c : Client} (first : a.Mum b) (second : b.Mum c) : a.Mum c :=
  fun pr o answer set => first pr o answer (second pr o answer set)

end Client.Mum

theorem Client.Aside.mum {c c' : Client} (aside : c.Aside c') : c.Mum c' := .of_eq aside.requests

theorem update_mum (c : Client) (pr : Nat) {f : PendingRequest → PendingRequest}
    (each : ∀ r, (f r).promise = r.promise) : c.Mum (c.update pr f) := by
  intro place o _ set
  rw [update_promiseOf] at set
  split at set
  · simp only [each] at set
    exact set
  · exact set

variable (env : ClientEnv)

theorem finish_promise {c : Client} {pr place : Nat} {outcome o : McpOutcome}
    (set : (c.finish env pr outcome).promiseOf place = some o) :
    c.promiseOf place = some o ∨ (place = pr ∧ o = outcome) := by
  unfold Client.finish at set
  split at set
  · exact .inl set
  · rename_i r present
    split at set
    · rw [Client.promiseOf, (dispatch_aside env _ _).requests] at set
      change (c.update pr (PendingRequest.finished outcome)).promiseOf place = some o at set
      rw [update_promiseOf] at set
      split at set
      · rename_i same
        subst same
        simp only [present, Option.bind_some, PendingRequest.finished] at set
        cases empty : r.promise with
        | some held =>
          rw [empty] at set
          exact .inl (by simpa [Client.promiseOf, present, empty] using set)
        | none =>
          rw [empty] at set
          exact .inr ⟨rfl, (Option.some.inj set).symm⟩
      · exact .inl set
    · rw [update_promiseOf] at set
      split at set
      · exact .inl set
      · exact .inl set

/-- The promise gets the outcome of its request, or the failure of a handshake. -/
theorem completePending_promise {c : Client} {id : RequestId} {outcome o : McpOutcome} {pr : Nat}
    (set : (c.completePending env id outcome).promiseOf pr = some o) : c.promiseOf pr = some o ∨
      ∃ r, c.pendingMap.lookup id = some pr ∧ c.requests[pr]? = some r ∧ (o = outcome ∨
        outcome.terminal = .succeeded ∧ o = handshakeFailed ∧
          r.method = Protocol.methodInitialize) := by
  cases found : c.pendingMap.lookup id with
  | none =>
    simp only [Client.completePending, found] at set
    exact .inl set
  | some owner =>
    cases present : c.requests[owner]? with
    | none =>
      simp only [Client.completePending, found, present] at set
      exact .inl set
    | some r =>
      have ends {before : Client} {final : McpOutcome} (same : before.requests = c.requests)
          (set : ((before.forget id r).finish env owner final).promiseOf pr = some o) :
          c.promiseOf pr = some o ∨ (pr = owner ∧ o = final) := by
        refine (finish_promise env set).imp_left fun old => ?_
        change before.promiseOf pr = some o at old
        rwa [Client.promiseOf, same] at old
      have failed {before : Client} (handshake : outcome.terminal = .succeeded ∧
          r.method = Protocol.methodInitialize) (same : before.requests = c.requests)
          (set : ((before.forget id r).finish env owner handshakeFailed).promiseOf pr = some o) :
          c.promiseOf pr = some o ∨ ∃ r, some owner = some pr ∧ c.requests[pr]? = some r ∧
            (o = outcome ∨ outcome.terminal = .succeeded ∧ o = handshakeFailed ∧
              r.method = Protocol.methodInitialize) := by
        refine (ends same set).imp_right ?_
        rintro ⟨rfl, final⟩
        exact ⟨r, rfl, present, .inr ⟨handshake.1, final, handshake.2⟩⟩
      simp only [Client.completePending, found, present] at set
      split at set
      · rename_i handshake
        split at set
        · refine (ends ?_ set).imp_right ?_
          · exact (rawSend_aside _ _).requests
          · rintro ⟨rfl, final⟩
            exact ⟨r, rfl, present, .inl final⟩
        · exact failed handshake rfl set
        · refine failed handshake ?_ set
          rfl
      · refine (ends rfl set).imp_right ?_
        rintro ⟨rfl, final⟩
        exact ⟨r, rfl, present, .inl final⟩

/-- An outcome of the client's own is no answer. -/
theorem completePending_mum (c : Client) (id : RequestId) {outcome : McpOutcome}
    (own : ¬ outcome.IsAnswer) : c.Mum (c.completePending env id outcome) := by
  intro pr o answer set
  rcases completePending_promise env set with old | ⟨r, -, -, rfl | ⟨succeeded, -⟩⟩
  · exact old
  · exact absurd answer own
  · exact absurd (.inl succeeded) own

theorem onTimer_mum (c : Client) (pr : Nat) : c.Mum (c.onTimer env pr) := by
  unfold Client.onTimer
  repeat' split
  all_goals first
    | exact .refl c
    | exact completePending_mum env c _ (by simp [McpOutcome.IsAnswer])

theorem cancelTask_mum (c : Client) (id : RequestId) (reason : String) :
    c.Mum (c.cancelTask env id reason) := by
  unfold Client.cancelTask
  repeat' split
  all_goals first
    | exact .refl c
    | exact (rawSend_aside c _).mum.trans
        (completePending_mum env _ _ (by simp [McpOutcome.IsAnswer]))

theorem failPending_mum (reason : String) (c : Client) (pr : Nat) :
    c.Mum (c.failPending env reason pr) := by
  unfold Client.failPending
  repeat' split
  · exact .refl c
  · intro place o answer set
    rcases finish_promise env set with old | ⟨-, rfl⟩
    · exact old
    · simp [McpOutcome.IsAnswer] at answer
  · exact .refl c

theorem drain_mum (c : Client) (reason : String) : c.Mum (c.drain env reason) := by
  have loop (prs : List Nat) (c : Client) :
      c.Mum (prs.foldl (Client.failPending env reason) c) := by
    induction prs generalizing c with
    | nil => exact .refl c
    | cons pr rest ih => exact (failPending_mum env reason c pr).trans (ih _)
  exact loop c.keyedRequests { c with connected := false }

theorem onTransportDisconnect_mum (c : Client) : c.Mum (c.onTransportDisconnect env) :=
  (drain_mum env c _).trans (onTransportDisconnect_aside env c).mum

theorem registerTask_mum (c : Client) (pr : Nat) (params : Option Json) :
    c.Mum (c.registerTask pr params) := by
  cases present : c.requests[pr]? with
  | none =>
    simp only [Client.registerTask, present]
    exact .refl c
  | some r =>
    obtain ⟨mid, off, -, -, -, -, -, -, -, timer, marked⟩ := registerTask_spec c pr params present
    have kept : c.Mum mid := by
      intro place o answer set
      rw [Client.promiseOf, marked] at set
      exact update_mum c pr (f := fun r => { r with registered := true, timer := timer r })
        (fun r => rfl) place o answer set
    exact kept.trans off.mum

/-- The outcome that a message is to the request with this id and method. An answer to
    `initialize` may be one that the client does not accept. -/
inductive Resolves (m : Json) (id : RequestId) (method : String) : McpOutcome → Prop where
  | succeeds {result : Json} (parsed : parseMessageClient m = .success ⟨id, result⟩) :
      Resolves m id method { terminal := .succeeded, result }
  | fails {error : JsonRpcErrorDetail} (parsed : parseMessageClient m = .error ⟨id, error⟩) :
      Resolves m id method { terminal := .errored, rpcError := some error }
  | misfits {result : Json} (parsed : parseMessageClient m = .success ⟨id, result⟩)
      (greeting : method = Protocol.methodInitialize) : Resolves m id method handshakeFailed

/-- The message brings this outcome to a request under whose key it comes. -/
def Client.Brings (c : Client) (m : Json) (pr : Nat) (o : McpOutcome) : Prop :=
  ∃ id r, c.pendingMap.lookup id = some pr ∧ c.requests[pr]? = some r ∧ Resolves m id r.method o

theorem onTransportMessage_promise {c c' : Client} {m : Json} {pr : Nat} {o : McpOutcome}
    (h : c.onTransportMessage env m = .ok c') (answer : o.IsAnswer)
    (set : c'.promiseOf pr = some o) : c.promiseOf pr = some o ∨ c.Brings m pr o := by
  rcases onTransportMessage_cases env h with aside | ⟨resp, parsed, rfl⟩ | ⟨resp, parsed, rfl⟩
  · exact .inl (aside.mum pr o answer set)
  · refine (completePending_promise env set).imp_right ?_
    rintro ⟨r, found, present, rfl | ⟨-, rfl, greeting⟩⟩
    · exact ⟨resp.id, r, found, present, .succeeds parsed⟩
    · exact ⟨resp.id, r, found, present, .misfits parsed greeting⟩
  · refine (completePending_promise env set).imp_right ?_
    rintro ⟨r, found, present, rfl | ⟨succeeded, -⟩⟩
    · exact ⟨resp.id, r, found, present, .fails parsed⟩
    · cases succeeded

/-- An answer comes into a promise by a message at the head of the strand only. -/
theorem step_brings {c c' : Client} {event : ClientEvent} (h : c.step env event = some c')
    {pr : Nat} {o : McpOutcome} (answer : o.IsAnswer) (unset : c.promiseOf pr ≠ some o)
    (set : c'.promiseOf pr = some o) :
    ∃ m rest, event = .runTask ∧ c.strand = .message m :: rest ∧ c.Brings m pr o := by
  have mum {before : Client} (requests : before.requests = c.requests) (mum : before.Mum c') :
      ∃ m rest, event = .runTask ∧ c.strand = .message m :: rest ∧ c.Brings m pr o := by
    have old := mum pr o answer set
    rw [Client.promiseOf, requests] at old
    exact absurd old unset
  cases step_cases h with
  | runTask task rest head =>
    cases task with
    | register place params =>
      exact mum rfl (registerTask_mum { c with strand := rest } place params)
    | transportDisconnect => exact mum rfl (onTransportDisconnect_mum env { c with strand := rest })
    | cancel id reason => exact mum rfl (cancelTask_mum env { c with strand := rest } id reason)
    | timer place => exact mum rfl (onTimer_mum env { c with strand := rest } place)
    | drain reason => exact mum rfl (drain_mum env { c with strand := rest } reason)
    | send m => exact mum rfl (rawSend_aside { c with strand := rest } m).mum
    | message m =>
      simp only [Client.runTask] at set
      split at set
      · rename_i c' handled
        rcases onTransportMessage_promise env handled answer set with old | brings
        · exact absurd old unset
        · exact ⟨m, rest, rfl, head, brings⟩
      · split at set
        · rename_i e _ _
          exact absurd (onTransportDisconnect_mum env { c with
            strand := rest, log := c.log ++ ["McpClient io loop died: " ++ e.what],
            ioAlive := false, ended := true } pr o answer set) unset
        · exact absurd set unset
  | builds thread args =>
    simp only [Client.submitBuild] at set
    split at set
    · exact absurd set unset
    · obtain ⟨r, present, promise⟩ := Option.bind_eq_some_iff.mp set
      rcases getElem?_concat present with old | ⟨-, rfl⟩
      · exact absurd (by simp [Client.promiseOf, old, promise]) unset
      · cases promise
  | timerExpires place =>
    exact mum rfl (update_mum (c.post (.timer place)) place
      (f := fun r => { r with timer := false }) fun r => rfl)
  | disconnectInline | stopDrainsInline => exact mum rfl (drain_mum env _ _)
  | runCallback job rest => exact mum rfl (fire_aside env _ job).mum
  | tests thread args =>
    apply mum rfl (.of_eq _)
    unfold Client.submitTest
    split <;> rfl
  | _ => exact mum rfl (.of_eq rfl)

end CppMcp
