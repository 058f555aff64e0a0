import CppMcp.Client.Correlation
import CppMcp.Http.Client
import CppMcp.JsonRpc.RoundTrip

namespace CppMcp

open Lib

/-- No request is stored under the null id. -/
structure NullFree (c : Client) : Prop where
  ids : ∀ (pr : Nat) (r : PendingRequest), c.requests[pr]? = some r → r.id ≠ .null
  unkeyed : c.pendingMap.lookup .null = none

theorem NullFree.settle {c c' : Client} (inv : NullFree c) (settles : c.Settles c') :
    NullFree c' where
  ids pr r' h := by
    obtain ⟨r, before, step⟩ := settles.back h
    rw [step.id]
    exact inv.ids pr r before
  unkeyed := by
    cases found : c'.pendingMap.lookup .null with
    | none => rfl
    | some pr =>
      have before := settles.pendingMap .null pr found
      rw [inv.unkeyed] at before
      cases before

theorem NullFree.congr {c c' : Client} (inv : NullFree c) (requests : c'.requests = c.requests)
    (pendingMap : c'.pendingMap = c.pendingMap) : NullFree c' :=
  ⟨by rw [requests]; exact inv.ids, by rw [pendingMap]; exact inv.unkeyed⟩

theorem registerTask_nullFree {c : Client} (inv : NullFree c) (pr : Nat) (params : Option Json) :
    NullFree (c.registerTask pr params) := by
  cases present : c.requests[pr]? with
  | none => simpa only [Client.registerTask, present] using inv
  | some r =>
    obtain ⟨mid, off, map, -, -, -, -, -, -, timer, marked⟩ := registerTask_spec c pr params present
    refine NullFree.settle ⟨fun pr' r' h => ?_, ?_⟩ off.settles
    · rw [marked, List.getElem?_modify] at h
      obtain ⟨r₀, before, rfl⟩ := Option.map_eq_some_iff.mp h
      have named := inv.ids pr' r₀ before
      split <;> exact named
    · rw [map]
      rw [registerPending_lookup, if_neg, inv.unkeyed]
      rintro (same | ⟨own, same⟩)
      · exact inv.ids pr r present same.symm
      · simp [PendingRequest.hasOwnToken, ← same, RequestId.isNull] at own

variable (env : ClientEnv)

theorem step_nullFree {c c' : Client} {event : ClientEvent} (inv : NullFree c)
    (h : c.step env event = some c') : NullFree c' := by
  rcases step_kinds env h with ⟨thread, args, params, -, rfl⟩ | ⟨-, rest, pr, params, -, rfl⟩ |
    ⟨before, requests, pendingMap, settles⟩
  · refine ⟨fun pr r found => ?_, inv.unkeyed⟩
    rcases getElem?_concat found with old | ⟨-, rfl⟩
    · exact inv.ids pr r old
    · simp [SubmitArgs.request]
  · have kept : NullFree { c with strand := rest } := inv.congr rfl rfl
    exact registerTask_nullFree kept pr params
  · exact (inv.congr requests pendingMap).settle settles

theorem run_nullFree {transport : Bool} {events : List ClientEvent} {c : Client}
    (h : run (Client.step env) (Client.initial transport) events = some c) : NullFree c := by
  refine run_keeps (fun _ _ _ inv h => step_nullFree env inv h) ?_ h
  exact ⟨fun pr r found => by simp [Client.initial] at found, by simp [Client.initial]⟩

theorem failureMessage_parsed (codec : JsonCodec) (r : ClientResponse) :
    ∃ detail, parseMessageClient (codec.failureMessage r) = .error ⟨.null, detail⟩ := by
  have fits : RequestId.null.Fits := True.intro
  exact ⟨_, makeErrorResponse_round_trip fits (failureCode_fits r.status) _ _⟩

/-- `handle_response` and then `on_transport_message` on what it handed on. -/
def Client.afterResponse (codec : JsonCodec) (attached sseOpen : Bool) (c : Client)
    (r : ClientResponse) : Except Exn Client :=
  (codec.handleResponse attached sseOpen r).messages.foldlM (Client.onTransportMessage env) c

/-- An HTTP failure changes nothing about the client. -/
theorem afterResponse_failure {c : Client} (inv : NullFree c) (codec : JsonCodec)
    (attached sseOpen : Bool) {r : ClientResponse} (failure : ¬ (200 ≤ r.status ∧ r.status < 300)) :
    c.afterResponse env codec attached sseOpen r = .ok c := by
  have refused : ¬ (r.status = 200 ∨ r.status = 202) := by omega
  simp only [Client.afterResponse, JsonCodec.handleResponse, if_neg refused]
  cases attached with
  | false => rfl
  | true =>
    obtain ⟨detail, parsed⟩ := failureMessage_parsed codec r
    have ignored : c.onTransportMessage env (codec.failureMessage r) = .ok c := by
      simp only [Client.onTransportMessage, parsed, Client.completePending, inv.unkeyed]
    simp only [if_true, List.foldlM_cons, ignored]
    rfl

/-- No HTTP failure completes a request. -/
theorem http_failure_leaves_waiting (transport : Bool) (events : List ClientEvent) (c : Client)
    (h : run (Client.step env) (Client.initial transport) events = some c) (codec : JsonCodec)
    (attached sseOpen : Bool) (r : ClientResponse) (failure : ¬ (200 ≤ r.status ∧ r.status < 300))
    (pr : Nat) (request : PendingRequest) (pending : c.requests[pr]? = some request)
    (waits : request.state = .waiting) :
    ∃ c', c.afterResponse env codec attached sseOpen r = .ok c' ∧
      ∃ request', c'.requests[pr]? = some request' ∧ request'.state = .waiting :=
  ⟨c, afterResponse_failure env (run_nullFree env h) codec attached sseOpen failure, request,
    pending, waits⟩

/-- A session that the server has forgotten. -/
def forgottenSession : ClientResponse := ⟨404, [], ascii "Session not found", ascii "s"⟩

def noJson : JsonCodec := ⟨fun _ => [], fun _ => none⟩

def pendingPing : List ClientEvent := handshake ++ submission { method := "ping" }

theorem forgotten_session_waits :
    ∃ c c' request, run (Client.step {}) (Client.initial true) pendingPing = some c ∧
      c.afterResponse {} noJson true false forgottenSession = .ok c' ∧
      c'.requests[1]? = some request ∧ request.state = .waiting := by
  have shape : (run (Client.step {}) (Client.initial true) pendingPing).map
      (fun c => (c.requests[1]?).map fun r => r.state) = some (some .waiting) := by decide
  obtain ⟨c, h, seen⟩ := Option.map_eq_some_iff.mp shape
  obtain ⟨request, pending, waits⟩ := Option.map_eq_some_iff.mp seen
  obtain ⟨c', after, request', kept, waits'⟩ :=
    http_failure_leaves_waiting {} true pendingPing c h noJson true false forgottenSession
      (by decide) 1 request pending waits
  exact ⟨c, c', request', h, after, kept, waits'⟩

/-- The 404 that answers a ping reaches the client as an error response to nobody, and the
    ping goes on waiting. -/
theorem ping_hangs_on_404 :
    (run (Client.step {}) (Client.initial true) pendingPing).bind (fun c =>
      (c.afterResponse {} noJson true false forgottenSession).toOption.map fun c' =>
        ((c'.requests[1]?).map fun r => (r.id, r.method, r.state), c'.sent[2]?)) =
      some (some (RequestId.int 2, "ping", RequestState.waiting),
        some (serializeRequest ⟨.int 2, "ping", none⟩)) := by
  decide

end CppMcp
