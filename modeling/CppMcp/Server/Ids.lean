import CppMcp.JsonRpc.Grammar
import CppMcp.Server.Discipline

namespace CppMcp

open Lib

/-- The integer that a JSON number stands for, signed or unsigned. -/
def Json.integerValue : Json → Option Int
  | .integer n => some n.toInt
  | .unsigned n => some n.toNat
  | _ => none

def SameId (a b : Json) : Prop :=
  a.integerValue = b.integerValue ∧ (a.integerValue = none → a = b)

def EchoesId (raw response : Json) : Prop :=
  ∃ id echoed, raw.find? "id" = some id ∧ response.find? "id" = some echoed ∧ SameId id echoed

/-- The id is an integer beyond the range of `int64_t`. -/
def OversizedId (raw : Json) : Prop :=
  ∃ n : UInt64, raw.find? "id" = some (.unsigned n) ∧ 2 ^ 63 ≤ n.toNat

theorem toInt64_iff (n : UInt64) : (n.toNat : Int) = n.toInt64.toInt ↔ ¬ 2 ^ 63 ≤ n.toNat := by
  have wrapped : n.toInt64.toInt = n.toBitVec.toInt := rfl
  have size : n.toBitVec.toNat = n.toNat := rfl
  have bound := n.toNat_lt
  rw [wrapped, BitVec.toInt_eq_toNat_cond, size]
  split <;> omega

theorem isId_echoed_iff {id : Json} {rid : RequestId} (typed : IsId id rid) :
    SameId id (requestIdToJson rid) ↔ ¬ ∃ n : UInt64, id = .unsigned n ∧ 2 ^ 63 ≤ n.toNat := by
  cases typed with
  | integer n =>
    have same : Int64.ofInt n.toInt = n := Int64.ofInt_toInt n
    simp [SameId, requestIdToJson, Json.ofInt, same, Json.integerValue]
  | string s => simp [SameId, requestIdToJson, Json.integerValue]
  | unsigned n =>
    have value : SameId (.unsigned n) (requestIdToJson (.int n.toInt64.toInt)) ↔
        (n.toNat : Int) = n.toInt64.toInt := by
      simp [SameId, requestIdToJson, Json.ofInt, Json.integerValue]
    rw [value, toInt64_iff]
    constructor
    · rintro small ⟨m, same, large⟩
      cases same
      exact small large
    · exact fun small large => small ⟨n, rfl, large⟩

theorem sameId_symm {a b : Json} (same : SameId a b) : SameId b a := by
  refine ⟨same.1.symm, fun other => ?_⟩
  exact (same.2 (same.1.trans other)).symm

theorem sameId_trans {a b c : Json} (first : SameId a b) (second : SameId b c) : SameId a c := by
  refine ⟨first.1.trans second.1, fun other => ?_⟩
  rw [first.2 other, second.2 (first.1.symm.trans other)]

/-- The id of a request comes back exactly unless it is oversized. -/
theorem response_echoes_iff {raw response : Json} {req : JsonRpcRequest}
    (parsed : parseMessage raw = .request req) (answers : IsResponse req.id response) :
    EchoesId raw response ↔ ¬ OversizedId raw := by
  obtain ⟨id, found, typed⟩ := (parseMessage_isRequest parsed).id
  have echo : EchoesId raw response ↔ SameId id (requestIdToJson req.id) := by
    simp only [EchoesId, found, answers.id, Option.some.injEq]
    exact ⟨fun ⟨_, _, rfl, rfl, same⟩ => same, fun same => ⟨_, _, rfl, rfl, same⟩⟩
  rw [echo, isId_echoed_iff typed]
  simp only [OversizedId, found, Option.some.injEq]

variable {υ : Type}

/-- After `stop` nothing is on its way to a sink any more. -/
structure Server.Idle (s : Server υ) : Prop where
  stopping : s.stopping = true
  jobs : s.jobs = []
  deliveries : s.deliveries = []
  answers : ∀ answer ∈ s.answers, s.AnswersRequest answer ∨ s.Rejects answer.1

theorem Server.Idle.congr {s s' : Server υ} (idle : s.Idle) (stopping : s'.stopping = s.stopping)
    (arrivals : s'.arrivals = s.arrivals) (jobs : s'.jobs = s.jobs)
    (deliveries : s'.deliveries = s.deliveries) (answers : s'.answers = s.answers) : s'.Idle := by
  refine ⟨stopping ▸ idle.stopping, jobs ▸ idle.jobs, deliveries ▸ idle.deliveries, ?_⟩
  rw [answers]
  simpa only [Server.AnswersRequest, Server.Rejects, arrivals] using idle.answers

theorem sendServerRequest_stopping (s : Server υ) (p : OutboundPending υ) (params : Json)
    (sends : Bool) : (s.sendServerRequest p params sends).stopping = s.stopping := by
  unfold Server.sendServerRequest
  split
  · dsimp only
    split <;> rfl
  · rfl

theorem Server.Idle.sendServerRequest {s : Server υ} (idle : s.Idle) (p : OutboundPending υ)
    (params : Json) (sends : Bool) : (s.sendServerRequest p params sends).Idle := by
  obtain ⟨arrivals, jobs, deliveries, answers⟩ := sendServerRequest_queues s p params sends
  exact idle.congr (sendServerRequest_stopping s p params sends) arrivals jobs deliveries answers

variable (info : ServerInfo)

theorem step_idle {s s' : Server υ} {event : ServerEvent υ} (idle : s.Idle)
    (h : s.step info event = some s') : s'.Idle := by
  cases event with
  | arrives message sessionId batch => simp [Server.step, idle.stopping] at h
  | runsJob place => simp [Server.step, idle.jobs] at h
  | delivers place => simp [Server.step, idle.deliveries] at h
  | requestsSampling params callbacks sessionId sends =>
    cases h
    unfold Server.requestSampling
    split
    · exact idle.sendServerRequest _ _ _
    · exact idle
  | requestsElicitation params callbacks sessionId sends =>
    cases h
    unfold Server.requestElicitation
    split
    · exact idle.sendServerRequest _ _ _
    · exact idle
  | requestsRoots callbacks sessionId sends =>
    cases h
    unfold Server.requestRoots
    split
    · exact idle.sendServerRequest _ _ _
    · exact idle
  | registers registry | setsWorkers n | runs starts =>
    cases h
    split <;> exact idle.congr rfl rfl rfl rfl rfl
  | setsPageSize n | invalidates =>
    cases h
    exact idle.congr rfl rfl rfl rfl rfl
  | stops =>
    cases h
    exact ⟨rfl, rfl, rfl, idle.answers⟩

/-- Running or stopped, nothing but requests and messages in error is ever answered. -/
def Answering (s : Server υ) : Prop := Disciplined s ∨ s.Idle

theorem initial_answering (user : υ) : Answering (Server.initial user) :=
  .inl ⟨by simp [Server.initial], by simp [Server.initial], by simp [Server.initial],
    by simp [Server.initial]⟩

theorem step_answering {s s' : Server υ} {event : ServerEvent υ} (inv : Answering s)
    (h : s.step info event = some s') : Answering s' := by
  rcases inv with inv | idle
  · cases stop : event.isStop with
    | false => exact .inl (step_disciplined info inv stop h)
    | true =>
      cases event with
      | stops =>
        cases h
        exact .inr ⟨rfl, rfl, rfl, inv.answers⟩
      | _ => cases stop
  · exact .inr (step_idle info idle h)

theorem Answering.answers {s : Server υ} (inv : Answering s) :
    ∀ answer ∈ s.answers, s.AnswersRequest answer ∨ s.Rejects answer.1 :=
  inv.elim (fun inv => inv.answers) fun idle => idle.answers

theorem run_answers {user : υ} {events : List (ServerEvent υ)} {s : Server υ}
    (h : run (Server.step info) (Server.initial user) events = some s) :
    ∀ answer ∈ s.answers, s.AnswersRequest answer ∨ s.Rejects answer.1 := by
  have inv : Answering s :=
    run_keeps (fun _ _ _ inv h => step_answering info inv h) (initial_answering user) h
  exact inv.answers

theorem run_response {user : υ} {events : List (ServerEvent υ)} {s : Server υ}
    (h : run (Server.step info) (Server.initial user) events = some s) {sink : Nat}
    {raw response : Json} {req : JsonRpcRequest} (arrived : s.arrivals[sink]? = some raw)
    (parsed : parseMessage raw = .request req) (called : (sink, response) ∈ s.answers) :
    IsResponse req.id response := by
  rcases run_answers info h _ called with
    ⟨raw', req', arrived', parsed', fits⟩ | ⟨raw', resp, arrived', parsed'⟩
  · rw [arrived] at arrived'
    cases arrived'
    rw [parsed] at parsed'
    cases parsed'
    exact fits
  · rw [arrived] at arrived'
    cases arrived'
    rw [parsed] at parsed'
    cases parsed'

/-- A sink gets the id of its request back unless that id is oversized; among the other
    requests, equal ids of two responses come from equal ids of the requests. -/
theorem id_echoed_iff (user : υ) (events : List (ServerEvent υ)) (s : Server υ)
    (h : run (Server.step info) (Server.initial user) events = some s) :
    (∀ (sink : Nat) (raw response : Json) (req : JsonRpcRequest),
      s.arrivals[sink]? = some raw → parseMessage raw = .request req →
      (sink, response) ∈ s.answers → (EchoesId raw response ↔ ¬ OversizedId raw)) ∧
    (∀ (sink sink' : Nat) (raw raw' response response' : Json) (req req' : JsonRpcRequest),
      s.arrivals[sink]? = some raw → parseMessage raw = .request req → ¬ OversizedId raw →
      s.arrivals[sink']? = some raw' → parseMessage raw' = .request req' → ¬ OversizedId raw' →
      (sink, response) ∈ s.answers → (sink', response') ∈ s.answers →
      response.find? "id" = response'.find? "id" →
      ∃ id id', raw.find? "id" = some id ∧ raw'.find? "id" = some id' ∧ SameId id id') := by
  have echo (sink : Nat) (raw response : Json) (req : JsonRpcRequest)
      (arrived : s.arrivals[sink]? = some raw) (parsed : parseMessage raw = .request req)
      (called : (sink, response) ∈ s.answers) : EchoesId raw response ↔ ¬ OversizedId raw :=
    response_echoes_iff parsed (run_response info h arrived parsed called)
  refine ⟨echo, fun sink sink' raw raw' response response' req req' arrived parsed fits arrived'
    parsed' fits' called called' equal => ?_⟩
  obtain ⟨id, echoed, found, answered, same⟩ :=
    (echo sink raw response req arrived parsed called).mpr fits
  obtain ⟨id', echoed', found', answered', same'⟩ :=
    (echo sink' raw' response' req' arrived' parsed' called').mpr fits'
  rw [answered, answered', Option.some.injEq] at equal
  exact ⟨id, id', found, found', sameId_trans same (equal ▸ sameId_symm same')⟩

def pingWith (id : Json) : Json :=
  .mk [("jsonrpc", .string "2.0"), ("id", id), ("method", .string Protocol.methodPing)]

def onePing (id : Json) : List (ServerEvent Unit) := [.arrives (pingWith id) [] false]

theorem ping_id_echoed :
    ∃ s response, run (Server.step {}) (Server.initial ()) (onePing (.integer 1)) = some s ∧
      (0, response) ∈ s.answers ∧ EchoesId (pingWith (.integer 1)) response := by
  obtain ⟨s, h, seen⟩ : ∃ s,
      run (Server.step {}) (Server.initial ()) (onePing (.integer 1)) = some s ∧
      s.arrivals = [pingWith (.integer 1)] ∧
      s.answers = [(0, makeSuccessResponse (.int 1) emptyResult)] := ⟨_, rfl, rfl, rfl⟩
  have called : (0, makeSuccessResponse (.int 1) emptyResult) ∈ s.answers := by simp [seen.2]
  refine ⟨s, _, h, called, ?_⟩
  refine ((id_echoed_iff {} () (onePing (.integer 1)) s h).1 0 (pingWith (.integer 1)) _
    ⟨.int 1, Protocol.methodPing, none⟩ (by rw [seen.1]; rfl) (by decide) called).mpr ?_
  rintro ⟨n, found, -⟩
  have other : (pingWith (.integer 1)).find? "id" = some (.integer 1) := by decide
  rw [other] at found
  cases found

/-- The largest unsigned id comes back as -1, which is the id of another request too. -/
theorem oversized_id_wraps :
    ∃ s response, run (Server.step {}) (Server.initial ())
        (onePing (.unsigned 18446744073709551615) ++ onePing (.integer (-1))) = some s ∧
      s.arrivals = [pingWith (.unsigned 18446744073709551615), pingWith (.integer (-1))] ∧
      s.answers = [(0, response), (1, response)] ∧
      parseMessage (pingWith (.unsigned 18446744073709551615)) =
        .request ⟨.int (-1), Protocol.methodPing, none⟩ ∧
      response.find? "id" = some (.integer (-1)) ∧
      ¬ EchoesId (pingWith (.unsigned 18446744073709551615)) response := by
  refine ⟨_, makeSuccessResponse (.int (-1)) emptyResult, rfl, rfl, rfl, by decide, by decide, ?_⟩
  rintro ⟨id, echoed, found, answered, same, -⟩
  have other : (pingWith (.unsigned 18446744073709551615)).find? "id" =
      some (.unsigned 18446744073709551615) := rfl
  have back : (makeSuccessResponse (.int (-1)) emptyResult).find? "id" = some (.integer (-1)) := by
    decide
  rw [other] at found
  rw [back] at answered
  cases found
  cases answered
  exact absurd same (by decide)

end CppMcp
