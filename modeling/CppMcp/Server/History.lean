import CppMcp.Server.Ids
import CppMcp.Server.Turns

namespace CppMcp

open Lib

variable {υ : Type}

/-- A step that keeps the arrivals and adds to the answers. -/
structure Server.Adds (s s' : Server υ) : Prop where
  arrivals : s'.arrivals = s.arrivals
  answers : ∃ added, s'.answers = s.answers ++ added

theorem Server.Adds.of_eq {s s' : Server υ} (arrivals : s'.arrivals = s.arrivals)
    (answers : s'.answers = s.answers) : s.Adds s' :=
  ⟨arrivals, [], by rw [answers, List.append_nil]⟩

theorem Server.Adds.refl (s : Server υ) : s.Adds s := .of_eq rfl rfl

theorem Server.Adds.respond {s s' : Server υ} (arrivals : s'.arrivals = s.arrivals)
    (answers : s'.answers = s.answers) (sink : Nat) (response : Json) :
    s.Adds (s'.respond sink response) :=
  ⟨arrivals, [(sink, response)], congrArg (· ++ [(sink, response)]) answers⟩

theorem Server.Adds.aside {s s' : Server υ} (aside : s.Aside s') : s.Adds s' :=
  .of_eq aside.arrivals aside.answers

variable (info : ServerInfo)

theorem step_adds {s s' : Server υ} {event : ServerEvent υ}
    (other : ∀ message sessionId batch, event ≠ .arrives message sessionId batch)
    (h : s.step info event = some s') : s.Adds s' := by
  cases step_turns info h with
  | @serves message sessionId batch | @defers message sessionId | @hears message sessionId batch
  | @refuses message sessionId batch => exact absurd rfl (other message sessionId _)
  | @works place job found =>
    obtain ⟨-, -, arrivals, -, -, answers⟩ := runJob_queues info
      { s with jobs := s.jobs.eraseIdx place } job
    exact .of_eq arrivals answers
  | delivers found =>
    apply Server.Adds.respond
    · rfl
    · rfl
  | registers registry | starts | stops => exact .of_eq rfl rfl
  | fails aside => exact .of_eq aside.arrivals aside.answers
  | aside quiet aside => exact .aside aside

theorem onMessage_adds (s : Server υ) (message : Json) (sessionId : SessionId) (batch : Bool) :
    (s.arrived message).Adds (s.onMessage info message sessionId batch) := by
  have turns := onMessage_turns info s message sessionId batch
  generalize s.onMessage info message sessionId batch = after at turns ⊢
  cases turns with
  | @serves _ _ _ req parsed =>
    have serving := (processRequest_spec info req sessionId (s.arrived message)).2
    exact .respond serving.arrivals serving.answers _ _
  | defers parsed deferrable => exact .of_eq rfl rfl
  | hears other aside => exact .aside aside
  | refuses other response => exact .respond rfl rfl _ _
  | aside quiet aside => cases quiet

/-- The new answers of the server's sinks. -/
def Server.answered (s s' : Server υ) : List Json := (s'.answers.drop s.answers.length).map Prod.snd

/-- The new requests of the server. Only `send_server_request` sends one. -/
def Server.asked (s s' : Server υ) : ServerEvent υ → List Json
  | .requestsSampling .. | .requestsElicitation .. | .requestsRoots .. =>
    (s'.sent.drop s.sent.length).map Prod.snd
  | _ => []

theorem Server.Adds.answered {s s' : Server υ} (adds : s.Adds s') {response : Json}
    (new : response ∈ s.answered s') : ∃ sink, (sink, response) ∈ s'.answers := by
  obtain ⟨added, answers⟩ := adds.answers
  simp only [Server.answered, answers, List.drop_left] at new
  obtain ⟨⟨sink, response⟩, member, rfl⟩ := List.mem_map.mp new
  exact ⟨sink, answers ▸ List.mem_append_right _ member⟩

/-- A request whose params are an object. -/
def Asks (m : Json) : Prop :=
  ∃ (rid : Int) (method : String) (params : Json), params.isObject = true ∧
    m = serializeRequest ⟨.int rid, method, some params⟩

theorem sendServerRequest_asks (s : Server υ) (p : OutboundPending υ) {params : Json}
    (keyed : params.isObject = true) (sends : Bool) :
    ∀ m ∈ ((s.sendServerRequest p params sends).sent.drop s.sent.length).map Prod.snd, Asks m := by
  intro m member
  unfold Server.sendServerRequest at member
  split at member
  · dsimp only at member
    split at member
    · simp only [List.drop_left, List.map_cons, List.map_nil, List.mem_singleton] at member
      exact ⟨s.nextOutboundId, p.method, params, keyed, member⟩
    · simp [Server.logText] at member
  · simp at member

theorem step_asks {s s' : Server υ} {event : ServerEvent υ} (h : s.step info event = some s') :
    ∀ m ∈ s.asked s' event, Asks m := by
  have none (m : Json) (member : m ∈ (s.sent.drop s.sent.length).map Prod.snd) : Asks m := by
    simp at member
  cases event with
  | requestsSampling params callbacks sessionId sends =>
    cases h
    unfold Server.requestSampling
    split
    · exact sendServerRequest_asks s _ rfl sends
    · exact none
  | requestsElicitation params callbacks sessionId sends =>
    cases h
    unfold Server.requestElicitation
    split
    · exact sendServerRequest_asks s _ rfl sends
    · exact none
  | requestsRoots callbacks sessionId sends =>
    cases h
    unfold Server.requestRoots
    split
    · exact sendServerRequest_asks s _ rfl sends
    · exact none
  | _ => simp [Server.asked]

end CppMcp
