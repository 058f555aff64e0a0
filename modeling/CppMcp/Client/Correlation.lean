import CppMcp.Client.Frame

namespace CppMcp

open Lib

/-- A submission whose integer token is taken over unchecked: one without `on_progress`. -/
def SubmitArgs.takesNumericToken (args : SubmitArgs) : Bool :=
  match args.progressToken with
  | some (.int _) => !args.onProgress
  | _ => false

def ClientEvent.keepsTokensApart : ClientEvent → Bool
  | .tests _ args => !args.takesNumericToken
  | _ => true

/-- Every registered request that still waits is stored under its own id. -/
def Client.Keyed (c : Client) : Prop :=
  ∀ (pr : Nat) (r : PendingRequest), c.requests[pr]? = some r → r.registered = true →
    r.state = .waiting → c.pendingMap.lookup r.id = some pr

/-- The invariant behind `Keyed`: ids are numbers given out once, an integer token is the
    request's own id, and a key is the id or the token of the request under it. -/
structure Correlated (c : Client) : Prop where
  ids : ∀ (pr : Nat) (r : PendingRequest), c.requests[pr]? = some r →
    ∃ n, r.id = .int n ∧ n < c.nextId
  distinct : ∀ (pr pr' : Nat) (r r' : PendingRequest), c.requests[pr]? = some r →
    c.requests[pr']? = some r' → r.id = r'.id → pr = pr'
  tokens : ∀ (pr : Nat) (r : PendingRequest) (n : Int), c.requests[pr]? = some r →
    r.progressToken = .int n → r.id = .int n
  entries : ∀ key pr, c.pendingMap.lookup key = some pr → ∃ r, c.requests[pr]? = some r ∧
    (key = r.id ∨ (r.hasOwnToken = true ∧ key = r.progressToken))
  chosen : ∀ thread args, c.submissions.lookup thread = some (.tested args) →
    args.takesNumericToken = false
  keyed : c.Keyed

theorem PendingRequest.Settles.hasOwnToken {r r' : PendingRequest} (settles : r.Settles r') :
    r'.hasOwnToken = r.hasOwnToken := by
  simp only [PendingRequest.hasOwnToken, settles.id, settles.progressToken]

/-- Under an own token there is no id of any request. -/
theorem Correlated.token_ne_id {c : Client} (inv : Correlated c) {pr pr' : Nat}
    {r r' : PendingRequest} (h : c.requests[pr]? = some r) (h' : c.requests[pr']? = some r')
    (own : r.hasOwnToken = true) : r'.id ≠ r.progressToken := by
  intro same
  obtain ⟨n, id, -⟩ := inv.ids pr' r' h'
  have token : r.progressToken = .int n := by rw [← same, id]
  have clash := inv.tokens pr r n h token
  simp [PendingRequest.hasOwnToken, token, clash] at own

theorem Client.Settles.keyed {c c' : Client} (settles : c.Settles c')
    (same : c'.pendingMap = c.pendingMap) (keyed : c.Keyed) : c'.Keyed := by
  intro pr r' h registered waits
  obtain ⟨r, before, step⟩ := settles.back h
  rw [same, step.id]
  exact keyed pr r before (step.registered ▸ registered) (step.waiting waits)

/-- A settling step keeps everything but `Keyed`, which is shown for each step. -/
theorem Correlated.settle {c c' : Client} (inv : Correlated c) (settles : c.Settles c')
    (keyed : c'.Keyed) : Correlated c' where
  ids pr r' h := by
    obtain ⟨r, before, step⟩ := settles.back h
    rw [step.id, settles.nextId]
    exact inv.ids pr r before
  distinct pr pr' r s h h' same := by
    obtain ⟨r₀, before, step⟩ := settles.back h
    obtain ⟨s₀, before', step'⟩ := settles.back h'
    exact inv.distinct pr pr' r₀ s₀ before before' (by rw [← step.id, ← step'.id, same])
  tokens pr r' n h token := by
    obtain ⟨r, before, step⟩ := settles.back h
    rw [step.id]
    exact inv.tokens pr r n before (by rw [← step.progressToken, token])
  entries key pr h := by
    obtain ⟨r, before, which⟩ := inv.entries key pr (settles.pendingMap key pr h)
    obtain ⟨r', after, step⟩ := settles.requests pr r before
    refine ⟨r', after, ?_⟩
    rwa [step.id, step.progressToken, step.hasOwnToken]
  chosen thread args h := inv.chosen thread args (by rw [← settles.submissions, h])
  keyed := keyed

theorem Correlated.aside {c c' : Client} (inv : Correlated c) (off : c.Aside c') : Correlated c' :=
  inv.settle off.settles (off.settles.keyed off.pendingMap inv.keyed)

/-- The invariant reads four fields only. -/
theorem Correlated.congr {c c' : Client} (inv : Correlated c) (requests : c'.requests = c.requests)
    (pendingMap : c'.pendingMap = c.pendingMap) (nextId : c'.nextId = c.nextId)
    (submissions : c'.submissions = c.submissions) : Correlated c' where
  ids := by rw [requests, nextId]; exact inv.ids
  distinct := by rw [requests]; exact inv.distinct
  tokens := by rw [requests]; exact inv.tokens
  entries := by rw [requests, pendingMap]; exact inv.entries
  chosen := by rw [submissions]; exact inv.chosen
  keyed := by unfold Client.Keyed; rw [requests, pendingMap]; exact inv.keyed

variable (env : ClientEnv)

theorem completePending_correlated {c : Client} (inv : Correlated c) (id : RequestId)
    (outcome : McpOutcome) (terminal : outcome.terminal ≠ .waiting) :
    Correlated (c.completePending env id outcome) := by
  apply inv.settle (completePending_settles env c id outcome terminal)
  obtain ⟨same, -⟩ | ⟨owner, r, aside, final, found, present, off, terminal, eq⟩ :=
    completePending_cases env c id outcome terminal
  · rw [same]
    exact inv.keyed
  · rw [eq]
    have inv := inv.aside off
    rw [← off.requests] at present
    rw [← off.pendingMap] at found
    intro pr r' after registered waits
    have ne : owner ≠ pr := by
      intro same
      subst same
      rw [finish_same env _ _ _ after] at waits
      exact terminal waits
    rw [finish_other env _ _ _ ne] at after
    have before : aside.requests[pr]? = some r' := after
    have kept := inv.keyed pr r' before registered waits
    have otherId : r'.id ≠ id := fun same => ne (Option.some.inj (found.symm.trans (same ▸ kept)))
    rw [finish_pendingMap, forget_keeps otherId fun own => inv.token_ne_id present before own]
    exact kept

theorem failAllPending_keyed {c : Client} (keyed : c.Keyed) (reason : String) :
    (c.failAllPending env reason).Keyed := by
  intro pr r' after registered waits
  obtain ⟨r, before, step⟩ := (failAllPending_settles env c reason).back after
  have key := keyed pr r before (step.registered ▸ registered) (step.waiting waits)
  exact absurd waits (failAllPending_met env c reason key after)

theorem drain_correlated {c : Client} (inv : Correlated c) (reason : String) :
    Correlated (c.drain env reason) := by
  have cut : Correlated { c with connected := false } := inv.congr rfl rfl rfl rfl
  exact cut.settle (failAllPending_settles env _ reason) (failAllPending_keyed env cut.keyed reason)

theorem onTransportDisconnect_correlated {c : Client} (inv : Correlated c) :
    Correlated (c.onTransportDisconnect env) :=
  (drain_correlated env inv _).aside (onTransportDisconnect_aside env c)

theorem registerPending_lookup (c : Client) (pr : Nat) (r : PendingRequest) (key : RequestId) :
    (c.registerPending pr r).pendingMap.lookup key =
      if key = r.id ∨ (r.hasOwnToken = true ∧ key = r.progressToken) then some pr
      else c.pendingMap.lookup key := by
  simp only [Client.registerPending]
  by_cases own : r.hasOwnToken = true
  · by_cases token : key = r.progressToken
    · subst token
      simp [own]
    · by_cases same : key = r.id
      · subst same
        simp [own, AList.lookup_insert_ne token]
      · simp [own, token, same, AList.lookup_insert_ne]
  · by_cases same : key = r.id
    · subst same
      simp [own]
    · simp [own, same, AList.lookup_insert_ne]

theorem registerTask_correlated {c : Client} (inv : Correlated c) (pr : Nat)
    (params : Option Json) : Correlated (c.registerTask pr params) := by
  cases present : c.requests[pr]? with
  | none => simpa only [Client.registerTask, present] using inv
  | some r =>
    obtain ⟨mid, off, map, nextId, submissions, -, -, -, -, timer, marked⟩ :=
      registerTask_spec c pr params present
    refine Correlated.aside ?_ off
    have forth : ∀ (pr' : Nat) (r₀ : PendingRequest), c.requests[pr']? = some r₀ →
        ∃ r', mid.requests[pr']? = some r' ∧ r'.id = r₀.id ∧ r'.progressToken = r₀.progressToken := by
      intro pr' r₀ h
      rw [marked, List.getElem?_modify, h]
      split
      · exact ⟨_, rfl, rfl, rfl⟩
      · exact ⟨_, rfl, rfl, rfl⟩
    have back : ∀ (pr' : Nat) (r' : PendingRequest), mid.requests[pr']? = some r' →
        ∃ r₀, c.requests[pr']? = some r₀ ∧ r'.id = r₀.id ∧ r'.progressToken = r₀.progressToken ∧
          r'.state = r₀.state ∧ (pr ≠ pr' → r' = r₀) := by
      intro pr' r' h
      rw [marked] at h
      by_cases same : pr = pr'
      · subst same
        rw [List.getElem?_modify_eq, present] at h
        cases h
        exact ⟨r, present, rfl, rfl, rfl, fun ne => absurd rfl ne⟩
      · rw [List.getElem?_modify_ne _ _ same] at h
        exact ⟨r', h, rfl, rfl, rfl, fun _ => rfl⟩
    refine ⟨?_, ?_, ?_, ?_, ?_, ?_⟩
    · intro pr' r' h
      obtain ⟨r₀, before, id, -⟩ := back pr' r' h
      rw [id, nextId]
      exact inv.ids pr' r₀ before
    · intro pr₁ pr₂ r₁ r₂ h₁ h₂ same
      obtain ⟨s₁, before₁, id₁, -⟩ := back pr₁ r₁ h₁
      obtain ⟨s₂, before₂, id₂, -⟩ := back pr₂ r₂ h₂
      exact inv.distinct pr₁ pr₂ s₁ s₂ before₁ before₂ (by rw [← id₁, ← id₂, same])
    · intro pr' r' n h token
      obtain ⟨r₀, before, id, same, -⟩ := back pr' r' h
      rw [id]
      exact inv.tokens pr' r₀ n before (by rw [← same, token])
    · intro key pr' h
      rw [map, registerPending_lookup] at h
      have known : ∃ r₀, c.requests[pr']? = some r₀ ∧
          (key = r₀.id ∨ (r₀.hasOwnToken = true ∧ key = r₀.progressToken)) := by
        split at h
        · rename_i which
          cases h
          exact ⟨r, present, which⟩
        · exact inv.entries key pr' h
      obtain ⟨r₀, before, which⟩ := known
      obtain ⟨r', after, id, token⟩ := forth pr' r₀ before
      refine ⟨r', after, ?_⟩
      simpa only [PendingRequest.hasOwnToken, id, token] using which
    · rw [submissions]
      exact inv.chosen
    · intro pr' r' h registered waits
      obtain ⟨r₀, before, id, token, state, other⟩ := back pr' r' h
      rw [map, registerPending_lookup, id]
      by_cases same : pr = pr'
      · subst same
        rw [present] at before
        cases before
        simp
      · have kept := inv.keyed pr' r₀ before (other same ▸ registered) (state ▸ waits)
        have ids : r₀.id ≠ r.id := fun eq => same (inv.distinct pr pr' r r₀ present before eq.symm)
        rw [if_neg, kept]
        rintro (eq | ⟨own, eq⟩)
        · exact ids eq
        · exact inv.token_ne_id present before own eq

theorem getElem?_concat {α : Type} {xs : List α} {x y : α} {i : Nat}
    (h : (xs ++ [x])[i]? = some y) : xs[i]? = some y ∨ (i = xs.length ∧ y = x) := by
  by_cases bound : i < xs.length
  · rw [List.getElem?_append_left bound] at h
    exact .inl h
  · rw [List.getElem?_append_right (by omega), List.getElem?_singleton] at h
    split at h
    · cases h
      exact .inr ⟨by omega, rfl⟩
    · cases h

theorem SubmitArgs.token_int {args : SubmitArgs} (checked : args.takesNumericToken = false)
    {num n : Int} (token : args.token num = .int n) : n = num := by
  unfold SubmitArgs.token at token
  split at token
  · split at token
    · cases token
      rfl
    · cases token
      rfl
    · rename_i other _
      exact absurd token (other n)
  · rename_i silent
    cases given : args.progressToken with
    | none => simp [given] at token
    | some value =>
      simp only [given, Option.getD_some] at token
      subst token
      simp [SubmitArgs.takesNumericToken, given, silent] at checked

/-- A new request gets a number that no request before it has. -/
theorem submitBuild_correlated {c : Client} (inv : Correlated c) {thread : Nat} {args : SubmitArgs}
    (tested : c.submissions.lookup thread = some (.tested args)) :
    Correlated (c.submitBuild env thread args) := by
  have checked := inv.chosen thread args tested
  unfold Client.submitBuild Client.submitted
  split
  · refine ⟨fun pr r h => ?_, inv.distinct, inv.tokens, inv.entries, fun other args h => ?_, inv.keyed⟩
    · obtain ⟨n, id, bound⟩ := inv.ids pr r h
      exact ⟨n, id, by simp only; omega⟩
    · exact inv.chosen other args (lookup_erase h).2
  · refine ⟨fun pr r h => ?_, fun pr pr' r r' h h' same => ?_, fun pr r n h token => ?_,
      fun key pr h => ?_, fun other args h => ?_, fun pr r h registered waits => ?_⟩
    · rcases getElem?_concat h with h | ⟨-, rfl⟩
      · obtain ⟨n, id, bound⟩ := inv.ids pr r h
        exact ⟨n, id, by simp only; omega⟩
      · exact ⟨c.nextId, rfl, by simp only; omega⟩
    · have fresh : ∀ (pr : Nat) (r : PendingRequest), c.requests[pr]? = some r →
          r.id ≠ .int c.nextId := by
        intro pr r h eq
        obtain ⟨n, id, bound⟩ := inv.ids pr r h
        rw [id] at eq
        cases eq
        omega
      rcases getElem?_concat h with h | ⟨rfl, rfl⟩
      · rcases getElem?_concat h' with h' | ⟨rfl, rfl⟩
        · exact inv.distinct pr pr' r r' h h' same
        · exact absurd same (fresh pr r h)
      · rcases getElem?_concat h' with h' | ⟨rfl, rfl⟩
        · exact absurd same.symm (fresh pr' r' h')
        · rfl
    · rcases getElem?_concat h with h | ⟨-, rfl⟩
      · exact inv.tokens pr r n h token
      · rw [SubmitArgs.token_int checked token]
        rfl
    · obtain ⟨r, present, which⟩ := inv.entries key pr h
      have bound := (List.getElem?_eq_some_iff.mp present).1
      exact ⟨r, by simp only; rw [List.getElem?_append_left bound, present], which⟩
    · rcases lookup_insert_cases h with ⟨-, new⟩ | ⟨-, old⟩
      · cases new
      · exact inv.chosen other args old
    · rcases getElem?_concat h with h | ⟨-, rfl⟩
      · exact inv.keyed pr r h registered waits
      · cases registered

theorem runTask_correlated {c : Client} (inv : Correlated c) (task : Task) :
    Correlated (c.runTask env task) := by
  cases task with
  | register pr params => exact registerTask_correlated inv pr params
  | message message =>
    simp only [Client.runTask]
    split
    · rename_i c' h
      rcases onTransportMessage_cases env h with off | ⟨resp, -, rfl⟩ | ⟨resp, -, rfl⟩
      · exact inv.aside off
      · exact completePending_correlated env inv _ _ (by simp)
      · exact completePending_correlated env inv _ _ (by simp)
    · split
      · exact onTransportDisconnect_correlated env (inv.congr rfl rfl rfl rfl)
      · exact inv
  | transportDisconnect => exact onTransportDisconnect_correlated env inv
  | cancel id reason =>
    rcases cancelTask_cases env c id reason with same | ⟨sent, outcome, off, terminal, eq⟩
    · simpa only [Client.runTask, same] using inv
    · simp only [Client.runTask, eq]
      exact completePending_correlated env (inv.aside off) id outcome terminal
  | timer pr =>
    rcases onTimer_cases env c pr with same | ⟨r, outcome, -, terminal, eq⟩
    · simpa only [Client.runTask, same] using inv
    · simp only [Client.runTask, eq]
      exact completePending_correlated env inv r.id outcome terminal
  | drain reason => exact drain_correlated env inv reason
  | send message => exact inv.aside (rawSend_aside c message)

theorem step_correlated {c c' : Client} {event : ClientEvent} (inv : Correlated c)
    (apart : event.keepsTokensApart = true) (h : c.step env event = some c') : Correlated c' := by
  cases step_cases h with
  | tests thread args =>
    unfold Client.submitTest
    split
    · exact inv
    · refine ⟨inv.ids, inv.distinct, inv.tokens, inv.entries, fun other args' found => ?_,
        inv.keyed⟩
      rcases lookup_insert_cases found with ⟨-, new⟩ | ⟨-, old⟩
      · cases new
        simpa [ClientEvent.keepsTokensApart] using apart
      · exact inv.chosen other args' old
  | builds thread args tested => exact submitBuild_correlated env inv tested
  | posts thread pr params held =>
    refine ⟨inv.ids, inv.distinct, inv.tokens, inv.entries, fun other args found => ?_, inv.keyed⟩
    exact inv.chosen other args (lookup_erase found).2
  | runTask task rest =>
    refine runTask_correlated env ?_ _
    exact inv.congr rfl rfl rfl rfl
  | timerExpires pr =>
    have unarmed := update_settles c pr (fun r => { r with timer := false })
      fun r => ⟨rfl, rfl, rfl, fun h => h⟩
    exact (inv.settle unarmed (unarmed.keyed rfl inv.keyed)).congr rfl rfl rfl rfl
  | disconnectInline | stopDrainsInline =>
    refine drain_correlated env ?_ _
    exact inv.congr rfl rfl rfl rfl
  | runCallback job rest =>
    refine Correlated.aside ?_ (fire_aside env _ _)
    exact inv.congr rfl rfl rfl rfl
  | _ => exact inv.congr rfl rfl rfl rfl

theorem initial_correlated (transport : Bool) : Correlated (Client.initial transport) where
  ids _ _ h := by simp [Client.initial] at h
  distinct _ _ _ _ h := by simp [Client.initial] at h
  tokens _ _ _ h := by simp [Client.initial] at h
  entries _ _ h := by simp [Client.initial] at h
  chosen _ _ h := by simp [Client.initial] at h
  keyed _ _ h := by simp [Client.initial] at h

theorem run_correlated {transport : Bool} {events : List ClientEvent} {c : Client}
    (apart : Meets (Client.step env) (fun _ e => e.keepsTokensApart = true)
      (Client.initial transport) events)
    (h : run (Client.step env) (Client.initial transport) events = some c) : Correlated c :=
  run_invariant (fun _ _ _ inv apart h => step_correlated env inv apart h)
    (initial_correlated transport) apart h

/-- The id that a strand task is about: of a response, a cancel or a timer. -/
def Client.concerns (c : Client) : Task → Option RequestId
  | .message message =>
    match parseMessageClient message with
    | .success resp => some resp.id
    | .error resp => some resp.id
    | _ => none
  | .cancel id _ => some id
  | .timer pr => (c.requests[pr]?).map fun r => r.id
  | _ => none

/-- A text that some request has as its progress token. -/
def Client.isToken (c : Client) (id : RequestId) : Prop :=
  ∃ text r, id = .str text ∧ r ∈ c.requests ∧ r.progressToken = .str text

def Client.CompletesOnly (c c' : Client) (id : RequestId) : Prop :=
  ∀ (pr : Nat) (r r' : PendingRequest), c.requests[pr]? = some r → c'.requests[pr]? = some r' →
    r.state = .waiting → r'.state ≠ .waiting → r.id = id

theorem Correlated.owner_id {c : Client} (inv : Correlated c) {id : RequestId} {pr : Nat}
    {r : PendingRequest} (found : c.pendingMap.lookup id = some pr)
    (present : c.requests[pr]? = some r) (plain : ¬ c.isToken id) : r.id = id := by
  obtain ⟨r', present', same | ⟨own, same⟩⟩ := inv.entries id pr found
  all_goals
    rw [present] at present'
    cases present'
  · exact same.symm
  · cases id with
    | null => simp [PendingRequest.hasOwnToken, ← same, RequestId.isNull] at own
    | int n => exact inv.tokens pr r n present same.symm
    | str text =>
      exact absurd ⟨text, r, rfl, List.mem_of_getElem? present, same.symm⟩ plain

theorem completePending_completesOnly {c : Client} (inv : Correlated c) {id : RequestId}
    {outcome : McpOutcome} (terminal : outcome.terminal ≠ .waiting) (plain : ¬ c.isToken id) :
    c.CompletesOnly (c.completePending env id outcome) id := by
  intro pr r r' before after waits settled
  by_cases found : c.pendingMap.lookup id = some pr
  · exact inv.owner_id found before plain
  · rw [completePending_other env c id outcome terminal found, before] at after
    cases after
    exact absurd waits settled

theorem runTask_completesOnly {c : Client} (inv : Correlated c) {task : Task} {id : RequestId}
    (about : c.concerns task = some id) (plain : ¬ c.isToken id) :
    c.CompletesOnly (c.runTask env task) id := by
  have nothing : c.CompletesOnly c id := by
    intro pr r r' before after waits settled
    rw [before] at after
    cases after
    exact absurd waits settled
  cases task with
  | message message =>
    simp only [Client.concerns] at about
    simp only [Client.runTask, Client.onTransportMessage]
    split at about
    · rename_i resp parsed
      cases about
      simp only [parsed]
      exact completePending_completesOnly env inv (by simp) plain
    · rename_i resp parsed
      cases about
      simp only [parsed]
      exact completePending_completesOnly env inv (by simp) plain
    · cases about
  | cancel id' reason =>
    cases about
    rcases cancelTask_cases env c id reason with same | ⟨sent, outcome, off, terminal, eq⟩
    · simpa only [Client.runTask, same] using nothing
    · have plain' : ¬ sent.isToken id := by simpa only [Client.isToken, off.requests] using plain
      simpa only [Client.runTask, eq, Client.CompletesOnly, off.requests] using
        completePending_completesOnly env (inv.aside off) terminal plain'
  | timer pr =>
    rcases onTimer_cases env c pr with same | ⟨r, outcome, present, terminal, eq⟩
    · simpa only [Client.runTask, same] using nothing
    · simp only [Client.concerns, present, Option.map_some, Option.some.injEq] at about
      subst about
      simpa only [Client.runTask, eq] using completePending_completesOnly env inv terminal plain
  | register pr params => cases about
  | transportDisconnect => cases about
  | drain reason => cases about
  | send message => cases about

/-- While no submission without `on_progress` brings an integer token, every registered
    waiting request is found under its id, and what names an id completes only its request. -/
theorem requests_stay_correlated (transport : Bool) (events : List ClientEvent) (c : Client)
    (apart : Meets (Client.step env) (fun _ e => e.keepsTokensApart = true)
      (Client.initial transport) events)
    (h : run (Client.step env) (Client.initial transport) events = some c) :
    c.Keyed ∧ ∀ task rest c' id, c.strand = task :: rest → c.step env .runTask = some c' →
      c.concerns task = some id → ¬ c.isToken id → c.CompletesOnly c' id := by
  have inv := run_correlated env apart h
  refine ⟨inv.keyed, fun task rest c' id head stepped about plain => ?_⟩
  simp only [Client.step, head, Option.ite_none_right_eq_some, Option.some.injEq] at stepped
  obtain ⟨-, rfl⟩ := stepped
  have popped : Correlated { c with strand := rest } := inv.congr rfl rfl rfl rfl
  exact runTask_completesOnly env popped about plain

def handshakeReply : Json :=
  makeSuccessResponse (.int 1) (.mk [("protocolVersion", .string "2025-06-18"),
    ("capabilities", .mk []), ("serverInfo", .mk [("name", .string "s"), ("version", .string "1")])])

/-- A user thread goes through `submit_request` and the strand registers the request. -/
def submission (args : SubmitArgs) : List ClientEvent :=
  [.tests 0 args, .builds 0, .posts 0, .runTask]

def handshake : List ClientEvent :=
  .connect :: submission { method := "initialize" } ++
    [ClientEvent.arrives handshakeReply, .runTask]

theorem correlation_of_one_request :
    ∃ c, run (Client.step {}) (Client.initial true)
      (handshake ++ submission { method := "ping" } ++ [.cancel 1 ""]) = some c ∧
      c.Keyed ∧ ∀ c', c.step {} .runTask = some c' → c.CompletesOnly c' (.int 2) := by
  have shape : (run (Client.step {}) (Client.initial true)
      (handshake ++ submission { method := "ping" } ++ [.cancel 1 ""])).map
      (fun c => c.strand) = some [.cancel (.int 2) ""] := by decide
  obtain ⟨c, h, strand⟩ := Option.map_eq_some_iff.mp shape
  have holds := requests_stay_correlated {} true _ c (by decide) h
  refine ⟨c, h, holds.1, fun c' stepped => ?_⟩
  exact holds.2 _ [] c' (.int 2) strand stepped rfl fun ⟨_, _, eq, _⟩ => by cases eq

/-- A second request submitted with the first one's number as its token, no `on_progress`. -/
def detachingRun : List ClientEvent :=
  handshake ++ submission { method := "tools/list" } ++
    submission { method := "ping", progressToken := some (.int 2) }

theorem numeric_token_detaches : ∃ c, run (Client.step {}) (Client.initial true) detachingRun =
    some c ∧ ¬ c.Keyed := by
  have shape : (run (Client.step {}) (Client.initial true) detachingRun).map
      (fun c => ((c.requests[1]?).map fun r => (r.id, r.registered, r.state),
        c.pendingMap.lookup (.int 2))) =
      some (some (.int 2, true, .waiting), some 2) := by decide
  obtain ⟨c, h, seen⟩ := Option.map_eq_some_iff.mp shape
  simp only [Prod.mk.injEq, Option.map_eq_some_iff] at seen
  obtain ⟨⟨r, present, id, registered, waits⟩, found⟩ := seen
  refine ⟨c, h, fun keyed => ?_⟩
  have own := keyed 1 r present registered waits
  rw [id, found] at own
  cases own

end CppMcp
