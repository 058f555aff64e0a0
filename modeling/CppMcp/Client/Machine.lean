import CppMcp.Client.Inbound
import CppMcp.Lib.Run

namespace CppMcp

/-- What the threads of a client do, one atomic step each. `tests`, `builds` and `posts`
    are the three steps of `submit_request` on a user thread; an `Inline` shutdown step runs
    on the io thread, or with no io loop left. -/
inductive ClientEvent where
  | connect
  | rollback
  | tests (thread : Nat) (args : SubmitArgs)
  | builds (thread : Nat)
  | posts (thread : Nat)
  | cancel (pr : Nat) (reason : String)
  | arrives (message : Json)
  | peerCloses
  | timerExpires (pr : Nat)
  | runTask
  | runCallback
  | runJob (place : Nat)
  | disconnect
  | disconnectInline
  | stopBegins
  | stopDrains
  | stopDrainsInline
  | stopEnds
deriving DecidableEq

/-- The token of a new request whose number is `num`. -/
def SubmitArgs.token (args : SubmitArgs) (num : Int) : RequestId :=
  if args.onProgress then
    match args.progressToken with
    | none => .int num
    | some (.int _) => .int num
    | some token => token
  else args.progressToken.getD .null

/-- `(*params)["_meta"]["progressToken"] = token`. Only an object or a null takes `[]`
    with a key. -/
def withProgressToken (params : Option Json) (token : RequestId) : Except Exn Json :=
  let params := params.getD (.object [])
  if params.isObject ∨ params.isNull then
    let metaObject := match params.find? "_meta" with
      | some m => if m.isObject then m else .object []
      | none => .object []
    .ok (params.set "_meta" (metaObject.set "progressToken" (requestIdToJson token)))
  else .error (Json.typeError 305 "cannot use operator[] with a string argument with " params)

def SubmitArgs.sentParams (args : SubmitArgs) (num : Int) : Except Exn (Option Json) :=
  if args.onProgress then (withProgressToken args.params (args.token num)).map some
  else .ok args.params

def SubmitArgs.request (env : ClientEnv) (args : SubmitArgs) (num : Int) : PendingRequest where
  id := .int num
  method := args.method
  progressToken := args.token num
  onComplete := args.onComplete
  onError := args.onError
  onProgress := args.onProgress
  timeout := if args.timeout ≤ 0 ∧ 0 < env.defaultTimeout then env.defaultTimeout else args.timeout

/-- The fast-fail test of `submit_request`; a thread that fails it is back in user code. -/
def Client.submitTest (c : Client) (thread : Nat) (args : SubmitArgs) : Client :=
  if c.stopping ∨ (c.connected = false ∧ args.method ≠ Protocol.methodInitialize) then c
  else { c with submissions := c.submissions.insert thread (.tested args) }

/-- The client once the `PendingRequest` of a submission is built. -/
def Client.submitted (env : ClientEnv) (c : Client) (thread : Nat) (args : SubmitArgs)
    (params : Option Json) : Client :=
  { c with
    nextId := c.nextId + 1
    requests := c.requests ++ [args.request env c.nextId]
    submissions := c.submissions.insert thread (.built c.requests.length params) }

/-- From the `fetch_add` to the built `PendingRequest`; a throw leaves the number used. -/
def Client.submitBuild (env : ClientEnv) (c : Client) (thread : Nat) (args : SubmitArgs) : Client :=
  match args.sentParams c.nextId with
  | .error _ => { c with nextId := c.nextId + 1, submissions := c.submissions.erase thread }
  | .ok params => c.submitted env thread args params

def Client.submitPost (c : Client) (thread pr : Nat) (params : Option Json) : Client :=
  { c with submissions := c.submissions.erase thread }.post (.register pr params)

/-- The registration task of `submit_request`. -/
def Client.registerTask (c : Client) (pr : Nat) (params : Option Json) : Client :=
  match c.requests[pr]? with
  | none => c
  | some r =>
    let c := c.registerPending pr r
    let c := if 0 < r.timeout then c.update pr fun r => { r with timer := true } else c
    c.rawSend (serializeRequest ⟨r.id, r.method, params⟩)

/-- What a drain does, on the strand or inline. -/
def Client.drain (env : ClientEnv) (c : Client) (reason : String) : Client :=
  { c with connected := false }.failAllPending env reason

/-- A task of the strand. An exception ends the client's own io loop, whose thread then
    fails what is pending; a loop of the owner's drops the task. -/
def Client.runTask (env : ClientEnv) (c : Client) : Task → Client
  | .register pr params => c.registerTask pr params
  | .message message =>
    match c.onTransportMessage env message with
    | .ok c => c
    | .error e =>
      if env.ownsIoContext then
        { c with log := c.log ++ ["McpClient io loop died: " ++ e.what], ioAlive := false,
                 ended := true }.onTransportDisconnect env
      else c
  | .transportDisconnect => c.onTransportDisconnect env
  | .cancel id reason => c.cancelTask env id reason
  | .timer pr => c.onTimer env pr
  | .drain reason => c.drain env reason
  | .send message => c.rawSend message

def Client.step (env : ClientEnv) (c : Client) : ClientEvent → Option Client
  | .connect => if c.transport then some { c with running := true, ended := c.stopDrained } else none
  | .rollback => some { c with connected := false }
  | .tests thread args =>
    if (c.submissions.lookup thread).isNone then some (c.submitTest thread args) else none
  | .builds thread =>
    match c.submissions.lookup thread with
    | some (.tested args) => some (c.submitBuild env thread args)
    | _ => none
  | .posts thread =>
    match c.submissions.lookup thread with
    | some (.built pr params) => some (c.submitPost thread pr params)
    | _ => none
  | .cancel pr reason => (c.requests[pr]?).map fun r => c.post (.cancel r.id reason)
  | .arrives message => some (c.post (.message message))
  | .peerCloses => some ({ c with ended := true }.post .transportDisconnect)
  | .timerExpires pr =>
    match c.requests[pr]? with
    | some r =>
      if r.timer then some ((c.update pr fun r => { r with timer := false }).post (.timer pr))
      else none
    | none => none
  | .runTask =>
    match c.strand with
    | [] => none
    | task :: rest => if c.ioAlive then some ({ c with strand := rest }.runTask env task) else none
  | .runCallback =>
    match c.callbackQueue with
    | [] => none
    | job :: rest => some ({ c with callbackQueue := rest }.fire env job)
  | .runJob place =>
    match c.pool[place]? with
    | some job => some ({ c with pool := c.pool.eraseIdx place }.runAndRespond env job)
    | none => none
  | .disconnect => some ({ c with ended := true }.post (.drain "client disconnected"))
  | .disconnectInline => some ({ c with ended := true }.drain env "client disconnected")
  | .stopBegins => if c.stopping then none else some { c with stopping := true }
  | .stopDrains =>
    if c.stopping ∧ c.stopDrained = false then
      some ({ c with ended := true, stopDrained := true }.post (.drain "client shutting down"))
    else none
  | .stopDrainsInline =>
    if c.stopping ∧ c.stopDrained = false then
      some ({ c with ended := true, stopDrained := true }.drain env "client shutting down")
    else none
  | .stopEnds =>
    if c.stopDrained then some { c with transport := false, running := false } else none

/-- The steps again, one constructor for each event, with the condition under which it
    is taken. -/
inductive Client.Stepped (env : ClientEnv) (c : Client) : ClientEvent → Client → Prop where
  | connect (transport : c.transport = true) :
      Stepped env c .connect { c with running := true, ended := c.stopDrained }
  | rollback : Stepped env c .rollback { c with connected := false }
  | tests (thread : Nat) (args : SubmitArgs) (free : c.submissions.lookup thread = none) :
      Stepped env c (.tests thread args) (c.submitTest thread args)
  | builds (thread : Nat) (args : SubmitArgs)
      (tested : c.submissions.lookup thread = some (.tested args)) :
      Stepped env c (.builds thread) (c.submitBuild env thread args)
  | posts (thread pr : Nat) (params : Option Json)
      (held : c.submissions.lookup thread = some (.built pr params)) :
      Stepped env c (.posts thread) (c.submitPost thread pr params)
  | cancel (pr : Nat) (reason : String) (r : PendingRequest)
      (present : c.requests[pr]? = some r) :
      Stepped env c (.cancel pr reason) (c.post (.cancel r.id reason))
  | arrives (message : Json) : Stepped env c (.arrives message) (c.post (.message message))
  | peerCloses : Stepped env c .peerCloses ({ c with ended := true }.post .transportDisconnect)
  | timerExpires (pr : Nat) (r : PendingRequest) (present : c.requests[pr]? = some r)
      (armed : r.timer = true) : Stepped env c (.timerExpires pr)
        ((c.update pr fun r => { r with timer := false }).post (.timer pr))
  | runTask (task : Task) (rest : List Task) (head : c.strand = task :: rest)
      (alive : c.ioAlive = true) :
      Stepped env c .runTask ({ c with strand := rest }.runTask env task)
  | runCallback (job : CallbackJob) (rest : List CallbackJob)
      (queued : c.callbackQueue = job :: rest) :
      Stepped env c .runCallback ({ c with callbackQueue := rest }.fire env job)
  | runJob (place : Nat) (job : InboundJob) (found : c.pool[place]? = some job) :
      Stepped env c (.runJob place)
        ({ c with pool := c.pool.eraseIdx place }.runAndRespond env job)
  | disconnect :
      Stepped env c .disconnect ({ c with ended := true }.post (.drain "client disconnected"))
  | disconnectInline :
      Stepped env c .disconnectInline ({ c with ended := true }.drain env "client disconnected")
  | stopBegins (working : c.stopping = false) :
      Stepped env c .stopBegins { c with stopping := true }
  | stopDrains (stopping : c.stopping = true) (first : c.stopDrained = false) :
      Stepped env c .stopDrains
        ({ c with ended := true, stopDrained := true }.post (.drain "client shutting down"))
  | stopDrainsInline (stopping : c.stopping = true) (first : c.stopDrained = false) :
      Stepped env c .stopDrainsInline
        ({ c with ended := true, stopDrained := true }.drain env "client shutting down")
  | stopEnds (drained : c.stopDrained = true) :
      Stepped env c .stopEnds { c with transport := false, running := false }

theorem step_cases {env : ClientEnv} {c c' : Client} {event : ClientEvent}
    (h : c.step env event = some c') : Client.Stepped env c event c' := by
  cases event with
  | connect =>
    simp only [Client.step, Option.ite_none_right_eq_some, Option.some.injEq] at h
    obtain ⟨transport, rfl⟩ := h
    exact .connect transport
  | tests thread args =>
    simp only [Client.step, Option.ite_none_right_eq_some, Option.some.injEq] at h
    obtain ⟨free, rfl⟩ := h
    exact .tests thread args (Option.isNone_iff_eq_none.mp free)
  | builds thread =>
    simp only [Client.step] at h
    split at h
    · rename_i args tested
      cases h
      exact .builds thread args tested
    · cases h
  | posts thread =>
    simp only [Client.step] at h
    split at h
    · rename_i pr params held
      cases h
      exact .posts thread pr params held
    · cases h
  | cancel pr reason =>
    simp only [Client.step, Option.map_eq_some_iff] at h
    obtain ⟨r, present, rfl⟩ := h
    exact .cancel pr reason r present
  | timerExpires pr =>
    simp only [Client.step] at h
    split at h
    · rename_i r present
      simp only [Option.ite_none_right_eq_some, Option.some.injEq] at h
      obtain ⟨armed, rfl⟩ := h
      exact .timerExpires pr r present armed
    · cases h
  | runTask =>
    simp only [Client.step] at h
    split at h
    · cases h
    · rename_i task rest head
      simp only [Option.ite_none_right_eq_some, Option.some.injEq] at h
      obtain ⟨alive, rfl⟩ := h
      exact .runTask task rest head alive
  | runCallback =>
    simp only [Client.step] at h
    split at h
    · cases h
    · rename_i job rest queued
      cases h
      exact .runCallback job rest queued
  | runJob place =>
    simp only [Client.step] at h
    split at h
    · rename_i job found
      cases h
      exact .runJob place job found
    · cases h
  | stopBegins =>
    simp only [Client.step, Option.ite_none_left_eq_some, Option.some.injEq,
      Bool.not_eq_true] at h
    obtain ⟨working, rfl⟩ := h
    exact .stopBegins working
  | stopDrains =>
    simp only [Client.step, Option.ite_none_right_eq_some, Option.some.injEq] at h
    obtain ⟨⟨stopping, first⟩, rfl⟩ := h
    exact .stopDrains stopping first
  | stopDrainsInline =>
    simp only [Client.step, Option.ite_none_right_eq_some, Option.some.injEq] at h
    obtain ⟨⟨stopping, first⟩, rfl⟩ := h
    exact .stopDrainsInline stopping first
  | stopEnds =>
    simp only [Client.step, Option.ite_none_right_eq_some, Option.some.injEq] at h
    obtain ⟨drained, rfl⟩ := h
    exact .stopEnds drained
  | rollback =>
    cases h
    exact .rollback
  | arrives message =>
    cases h
    exact .arrives message
  | peerCloses =>
    cases h
    exact .peerCloses
  | disconnect =>
    cases h
    exact .disconnect
  | disconnectInline =>
    cases h
    exact .disconnectInline

/-- A client before `connect`, with a transport attached or not. -/
def Client.initial (transport : Bool) : Client := { transport }

end CppMcp
