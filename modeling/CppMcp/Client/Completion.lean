import CppMcp.Client.Correlation
import CppMcp.Client.Moves

namespace CppMcp

open Lib Relation

def Client.promiseOf (c : Client) (pr : Nat) : Option McpOutcome :=
  c.requests[pr]?.bind fun r => r.promise

/-- How often a terminal callback of the request was invoked or waits to be. -/
def Client.firings (c : Client) (pr : Nat) : Nat :=
  c.callbackQueue.count (.terminal pr) + c.calls.countP (Call.finishes pr)

def Call.passes (o : McpOutcome) : Call → Prop
  | .complete _ result => o.terminal = .succeeded ∧ result = o.result
  | .error _ outcome => o.terminal ≠ .succeeded ∧ outcome = o
  | _ => False

structure CompletedOnce (c : Client) : Prop where
  unset : ∀ (pr : Nat) (r : PendingRequest), c.requests[pr]? = some r → r.state = .waiting →
    r.promise = none
  outcome : ∀ (pr : Nat) (r : PendingRequest) (o : McpOutcome), c.requests[pr]? = some r →
    r.promise = some o → r.outcome = o
  once : ∀ pr, c.firings pr ≤ 1
  quiet : ∀ pr, c.promiseOf pr = none → c.firings pr = 0
  passed : ∀ call ∈ c.calls, ∀ pr, call.finishes pr = true →
    ∃ o, c.promiseOf pr = some o ∧ call.passes o

/-- A move that completes nothing and invokes no terminal callback. -/
theorem CompletedOnce.still {c c' : Client} (inv : CompletedOnce c)
    (requests : ∀ (pr : Nat) (r' : PendingRequest), c'.requests[pr]? = some r' →
      ∃ r, c.requests[pr]? = some r ∧ (r'.state = .waiting → r.state = .waiting) ∧
        r'.outcome = r.outcome ∧ r'.promise = r.promise)
    (promises : ∀ pr, c'.promiseOf pr = c.promiseOf pr)
    (firings : ∀ pr, c'.firings pr ≤ c.firings pr)
    (calls : ∀ call ∈ c'.calls, ∀ pr, call.finishes pr = true → call ∈ c.calls) :
    CompletedOnce c' where
  unset pr r' found waits := by
    obtain ⟨r, old, state, -, promise⟩ := requests pr r' found
    rw [promise]
    exact inv.unset pr r old (state waits)
  outcome pr r' o found set := by
    obtain ⟨r, old, -, outcome, promise⟩ := requests pr r' found
    rw [outcome]
    exact inv.outcome pr r o old (promise ▸ set)
  once pr := (firings pr).trans (inv.once pr)
  quiet pr empty := by
    have none := inv.quiet pr (promises pr ▸ empty)
    have fewer := firings pr
    omega
  passed call member pr finishes := by
    rw [promises]
    exact inv.passed call (calls call member pr finishes) pr finishes

theorem CompletedOnce.of_eq {c c' : Client} (inv : CompletedOnce c)
    (requests : c'.requests = c.requests) (firings : ∀ pr, c'.firings pr ≤ c.firings pr)
    (calls : ∀ call ∈ c'.calls, ∀ pr, call.finishes pr = true → call ∈ c.calls) :
    CompletedOnce c' :=
  inv.still (fun _ r found => ⟨r, requests ▸ found, id, rfl, rfl⟩)
    (fun pr => by simp only [Client.promiseOf, requests]) firings calls

variable (env : ClientEnv)

@[simp] theorem invoke_requests (c : Client) (label : String) (call : Call) :
    (c.invoke env label call).requests = c.requests := (invoke_aside env c label call).requests

@[simp] theorem invoke_callbackQueue (c : Client) (label : String) (call : Call) :
    (c.invoke env label call).callbackQueue = c.callbackQueue := by
  unfold Client.invoke
  split <;> rfl

@[simp] theorem invoke_calls (c : Client) (label : String) (call : Call) :
    (c.invoke env label call).calls = c.calls ++ [call] := by
  unfold Client.invoke
  split <;> rfl

theorem invoke_firings (c : Client) (label : String) (call : Call) (pr : Nat) :
    (c.invoke env label call).firings pr =
      c.firings pr + if call.finishes pr then 1 else 0 := by
  simp only [Client.firings, invoke_callbackQueue, invoke_calls, List.countP_append,
    List.countP_singleton]
  omega

theorem invoke_completedOnce {c : Client} (inv : CompletedOnce c) (label : String) {call : Call}
    (other : ∀ pr, call.finishes pr = false) : CompletedOnce (c.invoke env label call) := by
  apply inv.of_eq (invoke_requests env c label call)
  · intro pr
    rw [invoke_firings, other]
    simp
  · intro call' member pr finishes
    rw [invoke_calls, List.mem_append, List.mem_singleton] at member
    rcases member with old | rfl
    · exact old
    · rw [other pr] at finishes
      cases finishes

theorem fireProgress_completedOnce {c : Client} (inv : CompletedOnce c) (pr : Nat)
    (progress : Double) (total : Option Double) :
    CompletedOnce (c.fire env (.progress pr progress total)) := by
  simp only [Client.fire]
  split
  · split
    · exact invoke_completedOnce env inv _ fun _ => rfl
    · exact inv
  · exact inv

/-- A terminal callback runs for the first time, after the promise was set. -/
theorem invoke_passes {c : Client} (inv : CompletedOnce c) {pr : Nat} {o : McpOutcome}
    (set : c.promiseOf pr = some o) (first : c.firings pr = 0) (label : String) {call : Call}
    (own : ∀ place, call.finishes place = (pr == place)) (passes : call.passes o) :
    CompletedOnce (c.invoke env label call) := by
  have promises (place : Nat) :
      (c.invoke env label call).promiseOf place = c.promiseOf place := by
    simp only [Client.promiseOf, invoke_requests]
  refine ⟨?_, ?_, fun place => ?_, fun place empty => ?_, fun call' member place finishes => ?_⟩
  · rw [invoke_requests]
    exact inv.unset
  · rw [invoke_requests]
    exact inv.outcome
  · rw [invoke_firings, own]
    by_cases same : pr = place
    · subst same
      simp [first]
    · simpa [same] using inv.once place
  · rw [promises] at empty
    have ne : pr ≠ place := by
      rintro rfl
      rw [set] at empty
      cases empty
    rw [invoke_firings, own]
    simpa [ne] using inv.quiet place empty
  · rw [promises]
    rw [invoke_calls, List.mem_append, List.mem_singleton] at member
    rcases member with old | rfl
    · exact inv.passed call' old place finishes
    · rw [own] at finishes
      rw [← beq_iff_eq.mp finishes]
      exact ⟨o, set, passes⟩

theorem fireTerminal_completedOnce {c : Client} (inv : CompletedOnce c) {pr : Nat} {o : McpOutcome}
    (set : c.promiseOf pr = some o) (first : c.firings pr = 0) :
    CompletedOnce (c.fire env (.terminal pr)) := by
  obtain ⟨r, present, promise⟩ := Option.bind_eq_some_iff.mp set
  have outcome : r.outcome = o := inv.outcome pr r o present promise
  simp only [Client.fire, present, outcome]
  split
  · rename_i succeeded
    split
    · exact invoke_passes env inv set first _ (fun _ => rfl) ⟨succeeded, rfl⟩
    · exact inv
  · rename_i failed
    split
    · exact invoke_passes env inv set first _ (fun _ => rfl) ⟨failed, rfl⟩
    · exact inv

theorem dispatchTerminal_completedOnce {c : Client} (inv : CompletedOnce c) {pr : Nat}
    {o : McpOutcome} (set : c.promiseOf pr = some o) (first : c.firings pr = 0) :
    CompletedOnce (c.dispatch env (.terminal pr)) := by
  unfold Client.dispatch
  split
  · have posted (place : Nat) :
        Client.firings { c with callbackQueue := c.callbackQueue ++ [.terminal pr] } place =
          c.firings place + if pr = place then 1 else 0 := by
      simp only [Client.firings, List.count_append, List.count_singleton, beq_iff_eq,
        CallbackJob.terminal.injEq]
      omega
    refine ⟨inv.unset, inv.outcome, fun place => ?_, fun place empty => ?_, inv.passed⟩
    · rw [posted]
      by_cases same : pr = place
      · subst same
        simp [first]
      · simpa [same] using inv.once place
    · have ne : pr ≠ place := by
        rintro rfl
        have held : c.promiseOf pr = none := empty
        rw [set] at held
        cases held
      rw [posted]
      simpa [ne] using inv.quiet place empty
  · exact fireTerminal_completedOnce env inv set first

theorem update_promiseOf (c : Client) (pr : Nat) (f : PendingRequest → PendingRequest)
    (place : Nat) : (c.update pr f).promiseOf place =
      if pr = place then c.requests[place]?.bind fun r => (f r).promise else c.promiseOf place := by
  simp only [Client.promiseOf, Client.update, List.getElem?_modify]
  split <;> cases c.requests[place]? <;> rfl

theorem marks_completedOnce {c : Client} (inv : CompletedOnce c) (pr : Nat)
    {f : PendingRequest → PendingRequest}
    (each : ∀ r, ((f r).state = .waiting → r.state = .waiting) ∧ (f r).outcome = r.outcome ∧
      (f r).promise = r.promise) : CompletedOnce (c.update pr f) := by
  refine inv.still (fun place r' found => ?_) (fun place => ?_) (fun _ => Nat.le_refl _)
    fun call member _ _ => member
  · simp only [Client.update, List.getElem?_modify] at found
    obtain ⟨r, old, rfl⟩ := Option.map_eq_some_iff.mp found
    refine ⟨r, old, ?_⟩
    split
    · exact each r
    · exact ⟨id, rfl, rfl⟩
  · rw [update_promiseOf]
    split
    · simp only [(each _).2.2]
      rfl
    · rfl

/-- `finish` on a request that waits: its promise is set, and nothing fired before. -/
theorem finished_completedOnce {c : Client} (inv : CompletedOnce c) {pr : Nat} {r : PendingRequest}
    (present : c.requests[pr]? = some r) (waits : r.state = .waiting) {outcome : McpOutcome}
    (terminal : outcome.terminal ≠ .waiting) :
    CompletedOnce (c.update pr (PendingRequest.finished outcome)) ∧
      (c.update pr (PendingRequest.finished outcome)).promiseOf pr = some outcome ∧
      (c.update pr (PendingRequest.finished outcome)).firings pr = 0 := by
  have empty : r.promise = none := inv.unset pr r present waits
  have silent : c.firings pr = 0 := inv.quiet pr (by simp [Client.promiseOf, present, empty])
  have set : (c.update pr (PendingRequest.finished outcome)).promiseOf pr = some outcome := by
    simp [update_promiseOf, present, PendingRequest.finished, empty]
  have others {place : Nat} (ne : pr ≠ place) :
      (c.update pr (PendingRequest.finished outcome)).promiseOf place = c.promiseOf place := by
    rw [update_promiseOf, if_neg ne]
  refine ⟨⟨fun place r' found waits' => ?_, fun place r' o found promise => ?_, inv.once,
    fun place none => ?_, fun call member place finishes => ?_⟩, set, silent⟩
  · by_cases same : pr = place
    · subst same
      simp only [Client.update, List.getElem?_modify_eq, present] at found
      cases found
      exact absurd waits' terminal
    · simp only [Client.update, List.getElem?_modify_ne _ _ same] at found
      exact inv.unset place r' found waits'
  · by_cases same : pr = place
    · subst same
      simp only [Client.update, List.getElem?_modify_eq, present] at found
      cases found
      simpa [PendingRequest.finished, empty] using promise
    · simp only [Client.update, List.getElem?_modify_ne _ _ same] at found
      exact inv.outcome place r' o found promise
  · by_cases same : pr = place
    · subst same
      exact silent
    · rw [others same] at none
      exact inv.quiet place none
  · obtain ⟨o, held, passes⟩ := inv.passed call member place finishes
    by_cases same : pr = place
    · subst same
      simp [Client.promiseOf, present, empty] at held
    · exact ⟨o, (others same).trans held, passes⟩

theorem finish_completedOnce {c : Client} (inv : CompletedOnce c) (pr : Nat) {outcome : McpOutcome}
    (terminal : outcome.terminal ≠ .waiting) : CompletedOnce (c.finish env pr outcome) := by
  unfold Client.finish
  split
  · exact inv
  · rename_i r present
    split
    · rename_i waits
      obtain ⟨finished, set, silent⟩ := finished_completedOnce inv present waits terminal
      exact dispatchTerminal_completedOnce env finished set silent
    · -- A later `finish` overwrites the state, and nothing else.
      exact marks_completedOnce inv pr fun r => ⟨fun waits => absurd waits terminal, rfl, rfl⟩

theorem submitted_completedOnce {c : Client} (inv : CompletedOnce c) (thread : Nat)
    (args : SubmitArgs) (params : Option Json) :
    CompletedOnce (c.submitted env thread args params) := by
  have promises (pr : Nat) :
      (c.submitted env thread args params).promiseOf pr = c.promiseOf pr := by
    simp only [Client.promiseOf, Client.submitted, List.getElem?_append]
    by_cases old : pr < c.requests.length
    · rw [if_pos old]
    · rw [if_neg old, List.getElem?_eq_none (Nat.le_of_not_lt old)]
      cases pr - c.requests.length <;> rfl
  refine ⟨fun pr r found waits => ?_, fun pr r o found promise => ?_, inv.once,
    fun pr empty => inv.quiet pr (promises pr ▸ empty), fun call member pr finishes => ?_⟩
  · rcases getElem?_concat found with old | ⟨-, rfl⟩
    · exact inv.unset pr r old waits
    · rfl
  · rcases getElem?_concat found with old | ⟨-, rfl⟩
    · exact inv.outcome pr r o old promise
    · cases promise
  · rw [promises]
    exact inv.passed call member pr finishes

theorem fires_completedOnce {c : Client} (inv : CompletedOnce c) {job : CallbackJob}
    {rest : List CallbackJob} (queued : c.callbackQueue = job :: rest) :
    CompletedOnce ({ c with callbackQueue := rest }.fire env job) := by
  have split (pr : Nat) :
      c.firings pr = Client.firings { c with callbackQueue := rest } pr +
        if job == .terminal pr then 1 else 0 := by
    simp only [Client.firings, queued, List.count_cons]
    omega
  have taken : CompletedOnce { c with callbackQueue := rest } := by
    have fewer (pr : Nat) :
        Client.firings { c with callbackQueue := rest } pr ≤ c.firings pr := by
      rw [split pr]
      omega
    exact inv.of_eq rfl fewer fun call member _ _ => member
  cases job with
  | progress pr progress total => exact fireProgress_completedOnce env taken pr progress total
  | terminal pr =>
    have counted := split pr
    have once := inv.once pr
    simp only [beq_self_eq_true, if_true] at counted
    cases set : c.promiseOf pr with
    | none =>
      have silent := inv.quiet pr set
      omega
    | some o =>
      have first : Client.firings { c with callbackQueue := rest } pr = 0 := by omega
      exact fireTerminal_completedOnce env taken set first

theorem Client.Moves.completedOnce {c c' : Client} (move : Client.Moves env c c')
    (inv : CompletedOnce c) : CompletedOnce c' := by
  cases move with
  | aside requests calls callbackQueue =>
    have same (pr : Nat) : c'.firings pr ≤ c.firings pr := by
      rw [Client.firings, calls, callbackQueue]
      exact Nat.le_refl _
    exact inv.of_eq requests same fun call member _ _ => calls ▸ member
  | marks pr each => exact marks_completedOnce inv pr each
  | tells label other => exact invoke_completedOnce env inv label other
  | reports pr progress total =>
    unfold Client.dispatch
    split
    · refine inv.of_eq rfl (fun place => ?_) fun call member _ _ => member
      simp [Client.firings, List.count_append]
    · exact fireProgress_completedOnce env inv pr progress total
  | finishes pr terminal => exact finish_completedOnce env inv pr terminal
  | submits thread args params => exact submitted_completedOnce env inv thread args params
  | fires queued => exact fires_completedOnce env inv queued

theorem Client.Moves.promise {c c' : Client} (move : Client.Moves env c c') {pr : Nat}
    {o : McpOutcome} (set : c.promiseOf pr = some o) : c'.promiseOf pr = some o := by
  have kept {c' : Client} (requests : c'.requests = c.requests) : c'.promiseOf pr = some o := by
    rw [Client.promiseOf, requests]
    exact set
  have updated (place : Nat) {f : PendingRequest → PendingRequest}
      (each : ∀ r : PendingRequest, r.promise = some o → (f r).promise = some o) :
      (c.update place f).promiseOf pr = some o := by
    obtain ⟨r, present, promise⟩ := Option.bind_eq_some_iff.mp set
    rw [update_promiseOf]
    split
    · simp only [present, Option.bind_some]
      exact each r promise
    · exact set
  cases move with
  | aside requests calls callbackQueue => exact kept requests
  | marks place each => exact updated place fun r promise => (each r).2.2.trans promise
  | tells label other => exact kept (invoke_requests env c _ _)
  | reports place progress total => exact kept (dispatch_aside env c _).requests
  | finishes place terminal =>
    unfold Client.finish
    split
    · exact set
    · split
      · rw [Client.promiseOf, (dispatch_aside env _ _).requests]
        exact updated place fun r promise => by simp [PendingRequest.finished, promise]
      · exact updated place fun r promise => promise
  | submits thread args params =>
    obtain ⟨r, present, promise⟩ := Option.bind_eq_some_iff.mp set
    have bound := (List.getElem?_eq_some_iff.mp present).1
    simp only [Client.promiseOf, Client.submitted, List.getElem?_append_left bound]
    exact set
  | fires queued => exact kept (fire_aside env _ _).requests

theorem course_completedOnce {c c' : Client} (course : c.Course env c') (inv : CompletedOnce c) :
    CompletedOnce c' := by
  induction course with
  | refl => exact inv
  | tail _ move ih => exact move.completedOnce env ih

theorem course_promise {c c' : Client} (course : c.Course env c') {pr : Nat} {o : McpOutcome}
    (set : c.promiseOf pr = some o) : c'.promiseOf pr = some o := by
  induction course with
  | refl => exact set
  | tail _ move ih => exact move.promise env ih

theorem initial_completedOnce (transport : Bool) : CompletedOnce (Client.initial transport) := by
  refine ⟨fun pr r found => ?_, fun pr r o found => ?_, fun pr => ?_, fun pr _ => ?_,
    fun call member => ?_⟩
  · simp [Client.initial] at found
  · simp [Client.initial] at found
  · simp [Client.firings, Client.initial]
  · simp [Client.firings, Client.initial]
  · simp [Client.initial] at member

theorem run_completedOnce {transport : Bool} {events : List ClientEvent} {c : Client}
    (h : run (Client.step env) (Client.initial transport) events = some c) : CompletedOnce c :=
  run_keeps (fun _ _ _ inv h => course_completedOnce env (step_course env h) inv)
    (initial_completedOnce transport) h

theorem run_promise {events : List ClientEvent} {c c' : Client} {pr : Nat} {o : McpOutcome}
    (set : c.promiseOf pr = some o) (h : run (Client.step env) c events = some c') :
    c'.promiseOf pr = some o := by
  have keeps : ∀ (c : Client) e c', c.promiseOf pr = some o → c.step env e = some c' →
      c'.promiseOf pr = some o := fun _ _ _ set h => course_promise env (step_course env h) set
  exact run_keeps keeps set h

/-- In every run, a promise is empty while its request waits and keeps the value it gets,
    one terminal callback is invoked at most, and it is told what `get` returns or throws. -/
theorem requests_complete_once (transport : Bool) (before after : List ClientEvent) (c c' : Client)
    (h : run (Client.step env) (Client.initial transport) before = some c)
    (later : run (Client.step env) c after = some c') (pr : Nat) (r : PendingRequest)
    (present : c.requests[pr]? = some r) :
    (r.state = .waiting → r.promise = none) ∧
    (∀ o, r.promise = some o → c'.promiseOf pr = some o) ∧
    c.calls.countP (Call.finishes pr) ≤ 1 ∧
    (∀ result, Call.complete pr result ∈ c.calls → ∃ o, r.promise = some o ∧
      o.terminal = .succeeded ∧ o.result = result ∧ r.get = some (.ok result)) ∧
    ∀ o, Call.error pr o ∈ c.calls → r.promise = some o ∧ o.terminal ≠ .succeeded ∧
      r.get = some (.error o.thrown) := by
  have inv := run_completedOnce env h
  have held {o : McpOutcome} : c.promiseOf pr = some o ↔ r.promise = some o := by
    simp [Client.promiseOf, present]
  refine ⟨inv.unset pr r present, fun o set => run_promise env (held.mpr set) later, ?_,
    fun result member => ?_, fun o member => ?_⟩
  · have once := inv.once pr
    rw [Client.firings] at once
    omega
  · obtain ⟨o, set, succeeded, same⟩ := inv.passed _ member pr (by simp [Call.finishes])
    have promise := held.mp set
    exact ⟨o, promise, succeeded, same.symm, by simp [PendingRequest.get, promise, succeeded, same]⟩
  · obtain ⟨o', set, failed, same⟩ := inv.passed _ member pr (by simp [Call.finishes])
    subst same
    have promise := held.mp set
    exact ⟨promise, failed, by simp [PendingRequest.get, promise, failed]⟩

/-- A ping that is keyed twice, with both callbacks and a timeout. -/
def watchedPing : List ClientEvent :=
  handshake ++ submission { method := "ping", onComplete := true, onError := true,
                            onProgress := true, timeout := 5, progressToken := some (.str "t") }

/-- The other sources that would complete it, after its answer. -/
def lateEnds : List ClientEvent :=
  [.arrives (makeSuccessResponse (.int 2) (.integer 8)),
    .arrives (makeErrorResponse (.str "t") 1 "no"), .cancel 1 "late", .runTask, .runTask, .runTask,
    .disconnect, .peerCloses, .runTask, .runTask]

def answeredPing : List ClientEvent :=
  watchedPing ++ [.arrives (makeSuccessResponse (.int 2) (.integer 7)), .runTask]

theorem answered_ping_completes_once : ∃ c c' r o,
    run (Client.step {}) (Client.initial true) answeredPing = some c ∧
    run (Client.step {}) c lateEnds = some c' ∧ c.requests[1]? = some r ∧
    c.calls.countP (Call.finishes 1) ≤ 1 ∧ r.get = some (.ok (.integer 7)) ∧
    r.promise = some o ∧ c'.promiseOf 1 = some o := by
  have shape : ((run (Client.step {}) (Client.initial true) answeredPing).bind fun c =>
      (run (Client.step {}) c lateEnds).map fun _ => (c.requests[1]?.isSome, c.calls)) =
      some (true, [.complete 1 (.integer 7)]) := by decide +kernel
  obtain ⟨c, h, rest⟩ := Option.bind_eq_some_iff.mp shape
  obtain ⟨c', later, seen⟩ := Option.map_eq_some_iff.mp rest
  simp only [Prod.mk.injEq] at seen
  obtain ⟨r, present⟩ := Option.isSome_iff_exists.mp seen.1
  obtain ⟨-, kept, once, completed, -⟩ :=
    requests_complete_once {} true answeredPing lateEnds c c' h later 1 r present
  obtain ⟨o, promise, -, -, got⟩ := completed (.integer 7) (by simp [seen.2])
  exact ⟨c, c', r, o, h, later, present, once, got, promise, kept o promise⟩

end CppMcp
