import CppMcp.Peers.Tokens

namespace CppMcp

open Lib

/-- The request is built and waits for its registration, which will send these params. -/
def Client.Awaits (c : Client) (pr : Nat) (params : Option Json) : Prop :=
  ∃ r, c.requests[pr]? = some r ∧ r.registered = false ∧ r.state = .waiting ∧ r.Carries params

def Task.registers? : Task → Option Nat
  | .register pr _ => some pr
  | _ => none

/-- A response is handled, or a request cancelled, under an id that is no text. -/
def Task.plain : Task → Bool
  | .message m => !m.hasTextId
  | .cancel id _ => !id.isText
  | _ => true

/-- A request waits for one registration; it is under its keys from then on until it ends, and
    no key leads to a request that has ended. -/
structure Enrolled (c : Client) : Prop where
  correlated : Correlated c
  bounded : 0 ≤ c.nextId ∧ c.nextId ≤ 2 ^ 63
  fits : ∀ (pr : Nat) (r : PendingRequest), c.requests[pr]? = some r → r.id.Fits
  proper : ∀ thread args, c.submissions.lookup thread = some (.tested args) → args.proper = true
  held : ∀ thread pr params, c.submissions.lookup thread = some (.built pr params) →
    c.Awaits pr params
  queued : ∀ pr params, .register pr params ∈ c.strand → c.Awaits pr params
  alone : ∀ thread thread' pr params params',
    c.submissions.lookup thread = some (.built pr params) →
    c.submissions.lookup thread' = some (.built pr params') → thread = thread'
  apart : ∀ thread pr params, c.submissions.lookup thread = some (.built pr params) →
    pr ∉ c.strand.filterMap Task.registers?
  once : (c.strand.filterMap Task.registers?).Nodup
  plain : ∀ task ∈ c.strand, task.plain = true
  entries : ∀ key pr, c.pendingMap.lookup key = some pr →
    ∃ r, c.requests[pr]? = some r ∧ r.registered = true ∧ r.state = .waiting
  distinct : ∀ (pr pr' : Nat) (r r' : PendingRequest) text, c.requests[pr]? = some r →
    c.requests[pr']? = some r' → r.state = .waiting → r'.state = .waiting →
    r.progressToken = .str text → r'.progressToken = .str text → pr = pr'
  tokens : ∀ (pr : Nat) (r : PendingRequest), c.requests[pr]? = some r → r.registered = true →
    r.state = .waiting → r.hasOwnToken = true → c.pendingMap.lookup r.progressToken = some pr

theorem Enrolled.found {c : Client} (inv : Enrolled c) {pr : Nat} {r : PendingRequest}
    (present : c.requests[pr]? = some r) (registered : r.registered = true)
    (waits : r.state = .waiting) {key : RequestId} (own : r.HasKey key) :
    c.pendingMap.lookup key = some pr := by
  rcases own with rfl | ⟨token, rfl⟩
  · exact inv.correlated.keyed pr r present registered waits
  · exact inv.tokens pr r present registered waits token

theorem Correlated.ownToken {c : Client} (inv : Correlated c) {pr : Nat} {r : PendingRequest}
    (present : c.requests[pr]? = some r) (own : r.hasOwnToken = true) :
    ∃ text, r.progressToken = .str text := by
  cases token : r.progressToken with
  | null => simp [PendingRequest.hasOwnToken, token, RequestId.isNull] at own
  | int n =>
    have same := inv.tokens pr r n present token
    simp [PendingRequest.hasOwnToken, token, same] at own
  | str text => exact ⟨text, rfl⟩

theorem registers?_send {tasks : List Task} (sends : ∀ task ∈ tasks, task.isSend = true) :
    tasks.filterMap Task.registers? = [] := by
  apply List.filterMap_eq_nil_iff.mpr
  intro task member
  have send := sends task member
  cases task with
  | send m => rfl
  | _ => cases send

theorem mem_registers? {tasks : List Task} {pr : Nat} :
    pr ∈ tasks.filterMap Task.registers? ↔ ∃ params, .register pr params ∈ tasks := by
  rw [List.mem_filterMap]
  constructor
  · rintro ⟨task, member, registers⟩
    cases task with
    | register pr' params =>
      cases registers
      exact ⟨params, member⟩
    | _ => cases registers
  · rintro ⟨params, member⟩
    exact ⟨_, member, rfl⟩

theorem Client.Awaits.settle {c c' : Client} {pr : Nat} {params : Option Json}
    (awaits : c.Awaits pr params) (settles : c.Settles c')
    (spares : ∀ r r', c.requests[pr]? = some r → c'.requests[pr]? = some r' →
      r.registered = false → r'.state = r.state) : c'.Awaits pr params := by
  obtain ⟨r, present, unregistered, waits, carries⟩ := awaits
  obtain ⟨r', after, step⟩ := settles.requests pr r present
  have still := spares r r' present after unregistered
  refine ⟨r', after, step.registered.trans unregistered, still.trans waits, ?_⟩
  unfold PendingRequest.Carries PendingRequest.HasKey PendingRequest.hasOwnToken at carries ⊢
  rw [step.id, step.progressToken]
  exact carries

/-- A settling step is shown to spare what waits for its registration and what stays in the map;
    a waiting request keeps its token. -/
theorem Enrolled.settle {c c' : Client} (inv : Enrolled c) (settles : c.Settles c')
    (correlated : Correlated c')
    (spares : ∀ (pr : Nat) r r', c.requests[pr]? = some r → c'.requests[pr]? = some r' →
      (r.registered = false ∨ ∃ key, c'.pendingMap.lookup key = some pr) → r'.state = r.state)
    (tokens : ∀ (pr : Nat) (r : PendingRequest), c'.requests[pr]? = some r → r.registered = true →
      r.state = .waiting → r.hasOwnToken = true →
      c'.pendingMap.lookup r.progressToken = some pr) : Enrolled c' := by
  obtain ⟨tasks, strand, sends⟩ := settles.posted
  have awaits : ∀ pr params, c.Awaits pr params → c'.Awaits pr params := fun pr params awaits =>
    awaits.settle settles fun r r' before after unregistered =>
      spares pr r r' before after (.inl unregistered)
  have registrations :
      c'.strand.filterMap Task.registers? = c.strand.filterMap Task.registers? := by
    rw [strand, List.filterMap_append, registers?_send sends, List.append_nil]
  constructor
  case correlated => exact correlated
  case bounded =>
    rw [settles.nextId]
    exact inv.bounded
  case fits =>
    intro pr r' after
    obtain ⟨r, before, step⟩ := settles.back after
    rw [step.id]
    exact inv.fits pr r before
  case proper =>
    rw [settles.submissions]
    exact inv.proper
  case held =>
    rw [settles.submissions]
    exact fun thread pr params held => awaits pr params (inv.held thread pr params held)
  case queued =>
    intro pr params member
    rw [strand, List.mem_append] at member
    rcases member with old | new
    · exact awaits pr params (inv.queued pr params old)
    · cases sends _ new
  case alone =>
    rw [settles.submissions]
    exact inv.alone
  case apart =>
    rw [settles.submissions, registrations]
    exact inv.apart
  case once =>
    rw [registrations]
    exact inv.once
  case plain =>
    intro task member
    rw [strand, List.mem_append] at member
    rcases member with old | new
    · exact inv.plain task old
    · have send := sends task new
      cases task with
      | send m => rfl
      | _ => cases send
  case entries =>
    intro key pr found
    obtain ⟨r, present, registered, waits⟩ := inv.entries key pr (settles.pendingMap key pr found)
    obtain ⟨r', after, step⟩ := settles.requests pr r present
    have still := spares pr r r' present after (.inr ⟨key, found⟩)
    exact ⟨r', after, step.registered.trans registered, still.trans waits⟩
  case distinct =>
    intro pr pr' r r' text present present' waits waits' token token'
    obtain ⟨s, before, step⟩ := settles.back present
    obtain ⟨s', before', step'⟩ := settles.back present'
    exact inv.distinct pr pr' s s' text before before' (step.waiting waits) (step'.waiting waits')
      (step.progressToken ▸ token) (step'.progressToken ▸ token')
  case tokens => exact tokens

theorem Enrolled.aside {c c' : Client} (inv : Enrolled c) (off : c.Aside c') : Enrolled c' := by
  apply inv.settle off.settles (inv.correlated.aside off)
  · intro pr r r' before after _
    rw [off.requests, before] at after
    cases after
    rfl
  · rw [off.requests, off.pendingMap]
    exact inv.tokens

/-- The strand may lose its head, and is given plain tasks that register nothing. -/
theorem Enrolled.follow {c c' : Client} (inv : Enrolled c) {old tasks : List Task}
    (kept : old.Sublist c.strand) (strand : c'.strand = old ++ tasks)
    (new : ∀ task ∈ tasks, task.registers? = none ∧ task.plain = true)
    (requests : c'.requests = c.requests) (pendingMap : c'.pendingMap = c.pendingMap)
    (nextId : c'.nextId = c.nextId) (submissions : c'.submissions = c.submissions) :
    Enrolled c' := by
  have registrations : c'.strand.filterMap Task.registers? = old.filterMap Task.registers? := by
    have none : tasks.filterMap Task.registers? = [] :=
      List.filterMap_eq_nil_iff.mpr fun task member => (new task member).1
    rw [strand, List.filterMap_append, none, List.append_nil]
  have fewer := kept.filterMap Task.registers?
  constructor
  case correlated => exact inv.correlated.congr requests pendingMap nextId submissions
  case bounded =>
    rw [nextId]
    exact inv.bounded
  case fits =>
    rw [requests]
    exact inv.fits
  case proper =>
    rw [submissions]
    exact inv.proper
  case held =>
    unfold Client.Awaits
    rw [submissions, requests]
    exact inv.held
  case queued =>
    intro pr params member
    unfold Client.Awaits
    rw [requests]
    rw [strand, List.mem_append] at member
    rcases member with before | posted
    · exact inv.queued pr params (kept.subset before)
    · cases (new _ posted).1
  case alone =>
    rw [submissions]
    exact inv.alone
  case apart =>
    rw [submissions, registrations]
    exact fun thread pr params held member =>
      inv.apart thread pr params held (fewer.subset member)
  case once =>
    rw [registrations]
    exact inv.once.sublist fewer
  case plain =>
    intro task member
    rw [strand, List.mem_append] at member
    rcases member with before | posted
    · exact inv.plain task (kept.subset before)
    · exact (new task posted).2
  case entries =>
    rw [pendingMap, requests]
    exact inv.entries
  case distinct =>
    rw [requests]
    exact inv.distinct
  case tokens =>
    rw [requests, pendingMap]
    exact inv.tokens

theorem Enrolled.congr {c c' : Client} (inv : Enrolled c) (requests : c'.requests = c.requests)
    (pendingMap : c'.pendingMap = c.pendingMap) (nextId : c'.nextId = c.nextId)
    (submissions : c'.submissions = c.submissions) (strand : c'.strand = c.strand) : Enrolled c' :=
  inv.follow (.refl _) (by rw [strand, List.append_nil]) (by simp) requests pendingMap nextId
    submissions

theorem Enrolled.post {c : Client} (inv : Enrolled c) {task : Task}
    (other : task.registers? = none) (plain : task.plain = true) : Enrolled (c.post task) :=
  inv.follow (.refl _) rfl (fun _ member => List.mem_singleton.mp member ▸ ⟨other, plain⟩) rfl
    rfl rfl rfl

variable (env : ClientEnv)

/-- A request that is completed under its id is forgotten under its token too. -/
theorem completePending_enrolled {c : Client} (inv : Enrolled c) {id : RequestId}
    (plain : id.isText = false) {outcome : McpOutcome} (terminal : outcome.terminal ≠ .waiting) :
    Enrolled (c.completePending env id outcome) := by
  have settles := completePending_settles env c id outcome terminal
  have correlated := completePending_correlated env inv.correlated id outcome terminal
  have untouched : ∀ pr, c.pendingMap.lookup id ≠ some pr →
      (c.completePending env id outcome).requests[pr]? = c.requests[pr]? :=
    fun pr other => completePending_other env c id outcome terminal other
  obtain ⟨same, -⟩ | ⟨owner, r, aside, final, found, present, off, ended, eq⟩ :=
    completePending_cases env c id outcome terminal
  · rw [same]
    exact inv
  obtain ⟨r₀, present₀, registered, waits⟩ := inv.entries id owner found
  rw [present] at present₀
  cases present₀
  have own : r.id = id := by
    apply inv.correlated.owner_id found present
    rintro ⟨text, -, rfl, -⟩
    cases plain
  have map : (c.completePending env id outcome).pendingMap = (aside.forget id r).pendingMap := by
    rw [eq, finish_pendingMap]
  have other : ∀ {pr : Nat}, pr ≠ owner → c.pendingMap.lookup id ≠ some pr := by
    intro pr ne same
    rw [found] at same
    cases same
    exact ne rfl
  refine inv.settle settles correlated (fun pr s s' before after spared => ?_)
    fun pr s' after enrolled still token => ?_
  · have ne : pr ≠ owner := by
      rintro rfl
      rw [present] at before
      cases before
      rcases spared with unregistered | ⟨key, kept⟩
      · rw [registered] at unregistered
        cases unregistered
      · rw [map] at kept
        obtain ⟨notId, notToken⟩ := forget_gone kept
        have old := settles.pendingMap key pr (map ▸ kept)
        obtain ⟨s, present', which⟩ := inv.correlated.entries key pr old
        rw [present] at present'
        cases present'
        rcases which with same | ⟨ownToken, same⟩
        · exact notId (same.trans own)
        · exact notToken ownToken same
    rw [untouched pr (other ne), before] at after
    cases after
    rfl
  · have ne : pr ≠ owner := by
      rintro rfl
      rw [eq] at after
      exact ended ((finish_same env _ _ _ after).symm.trans still)
    rw [untouched pr (other ne)] at after
    rw [map]
    obtain ⟨text, isText⟩ := inv.correlated.ownToken after token
    rw [forget_keeps, off.pendingMap]
    · exact inv.tokens pr s' after enrolled still token
    · rintro rfl
      rw [isText] at plain
      cases plain
    · intro ownToken same
      have both := inv.distinct pr owner s' r text after present still waits isText
        (same.symm.trans isText)
      exact ne both

theorem drain_enrolled {c : Client} (inv : Enrolled c) (reason : String) :
    Enrolled (c.drain env reason) := by
  refine inv.settle (drain_settles env c reason) (drain_correlated env inv.correlated reason)
    (fun pr r r' before after spared => ?_) fun pr r' after registered waits _ => ?_
  · have unregistered : r.registered = false := by
      rcases spared with unregistered | ⟨key, kept⟩
      · exact unregistered
      · simp [Client.drain] at kept
    rw [drain_other env c reason, before] at after
    · cases after
      rfl
    · rintro key pr' found rfl
      obtain ⟨s, present, registered, -⟩ := inv.entries key pr' found
      rw [before] at present
      cases present
      rw [registered] at unregistered
      cases unregistered
  · obtain ⟨r, before, step⟩ := (drain_settles env c reason).back after
    have key := inv.correlated.keyed pr r before (step.registered ▸ registered) (step.waiting waits)
    have met := failAllPending_met env { c with connected := false } reason key after
    exact absurd waits met

/-- A registration is the last one of its request, which is under both its keys after it. -/
theorem registerTask_enrolled {c : Client} (inv : Enrolled c) {pr : Nat} {params : Option Json}
    {rest : List Task} (head : c.strand = .register pr params :: rest) :
    Enrolled ({ c with strand := rest }.registerTask pr params) := by
  obtain ⟨r, present, unregistered, waits, -⟩ := inv.queued pr params (head ▸ List.mem_cons_self)
  have popped : Enrolled { c with strand := rest } :=
    inv.follow (head ▸ List.sublist_cons_self _ rest) (List.append_nil rest).symm (by simp) rfl rfl
      rfl rfl
  have registrations :
      c.strand.filterMap Task.registers? = pr :: rest.filterMap Task.registers? := by
    rw [head]
    rfl
  obtain ⟨last, -⟩ := List.nodup_cons.mp (registrations ▸ inv.once)
  have correlated := registerTask_correlated popped.correlated pr params
  obtain ⟨mid, off, map, nextId, submissions, strand, -, -, -, timer, marked⟩ :=
    registerTask_spec { c with strand := rest } pr params present
  refine Enrolled.aside ?_ off
  have untouched : ∀ {pr' : Nat}, pr' ≠ pr → mid.requests[pr']? = c.requests[pr']? := by
    intro pr' ne
    rw [marked, List.getElem?_modify_ne _ _ (Ne.symm ne)]
  have own : mid.requests[pr]? = some { r with registered := true, timer := timer r } := by
    rw [marked, List.getElem?_modify_eq, present]
    rfl
  have awaits : ∀ {pr' : Nat} {params' : Option Json}, pr' ≠ pr → c.Awaits pr' params' →
      mid.Awaits pr' params' := by
    intro pr' params' ne awaits
    unfold Client.Awaits
    rw [untouched ne]
    exact awaits
  have back : ∀ {pr' : Nat} {r' : PendingRequest}, mid.requests[pr']? = some r' →
      ∃ r₀, c.requests[pr']? = some r₀ ∧ r'.id = r₀.id ∧
        r'.progressToken = r₀.progressToken ∧ r'.state = r₀.state := by
    intro pr' r' after
    by_cases same : pr' = pr
    · rw [same, own] at after
      cases after
      exact ⟨r, same ▸ present, rfl, rfl, rfl⟩
    · rw [untouched same] at after
      exact ⟨r', after, rfl, rfl, rfl⟩
  constructor
  case correlated =>
    exact correlated.congr off.requests.symm off.pendingMap.symm off.nextId.symm
      off.submissions.symm
  case bounded =>
    rw [nextId]
    exact inv.bounded
  case fits =>
    intro pr' r' after
    obtain ⟨r₀, before, id, -⟩ := back after
    rw [id]
    exact inv.fits pr' r₀ before
  case proper =>
    rw [submissions]
    exact inv.proper
  case held =>
    rw [submissions]
    intro thread pr' params' held
    apply awaits _ (inv.held thread pr' params' held)
    rintro rfl
    apply inv.apart thread pr' params' held
    rw [registrations]
    exact List.mem_cons_self
  case queued =>
    rw [strand]
    intro pr' params' member
    apply awaits _ (popped.queued pr' params' member)
    rintro rfl
    exact last (mem_registers?.mpr ⟨params', member⟩)
  case alone =>
    rw [submissions]
    exact inv.alone
  case apart =>
    rw [submissions, strand]
    exact popped.apart
  case once =>
    rw [strand]
    exact popped.once
  case plain =>
    rw [strand]
    exact popped.plain
  case entries =>
    intro key pr' found
    rw [map, registerPending_lookup] at found
    split at found
    · cases found
      exact ⟨_, own, rfl, waits⟩
    · obtain ⟨s, before, registered, waits'⟩ := inv.entries key pr' found
      have ne : pr' ≠ pr := by
        rintro rfl
        rw [present] at before
        cases before
        rw [unregistered] at registered
        cases registered
      exact ⟨s, (untouched ne).trans before, registered, waits'⟩
  case distinct =>
    intro pr₁ pr₂ r₁ r₂ text after₁ after₂ waits₁ waits₂ token₁ token₂
    obtain ⟨s₁, before₁, -, same₁, state₁⟩ := back after₁
    obtain ⟨s₂, before₂, -, same₂, state₂⟩ := back after₂
    exact inv.distinct pr₁ pr₂ s₁ s₂ text before₁ before₂ (state₁ ▸ waits₁) (state₂ ▸ waits₂)
      (same₁ ▸ token₁) (same₂ ▸ token₂)
  case tokens =>
    intro pr' r' after registered waits' token
    rw [map, registerPending_lookup]
    by_cases same : pr' = pr
    · rw [same, own] at after
      cases after
      rw [if_pos (.inr ⟨token, rfl⟩), same]
    · rw [untouched same] at after
      have kept := inv.tokens pr' r' after registered waits' token
      rw [if_neg]
      · exact kept
      · rintro (id | ⟨ownToken, shared⟩)
        · exact inv.correlated.token_ne_id after present token id.symm
        · obtain ⟨text, isText⟩ := inv.correlated.ownToken after token
          exact same (inv.distinct pr' pr r' r text after present waits' waits isText
            (shared.symm.trans isText))

theorem runTask_enrolled {c : Client} (inv : Enrolled c) {task : Task} {rest : List Task}
    (head : c.strand = task :: rest) : Enrolled ({ c with strand := rest }.runTask env task) := by
  have popped : Enrolled { c with strand := rest } :=
    inv.follow (head ▸ List.sublist_cons_self _ rest) (List.append_nil rest).symm (by simp) rfl rfl
      rfl rfl
  have plain : task.plain = true := inv.plain task (head ▸ List.mem_cons_self)
  have lost : ∀ {c : Client}, Enrolled c → Enrolled (c.onTransportDisconnect env) := fun inv =>
    (drain_enrolled env inv _).aside (onTransportDisconnect_aside env _)
  cases task with
  | register pr params => exact registerTask_enrolled inv head
  | message message =>
    have textless : message.hasTextId = false := by simpa [Task.plain] using plain
    simp only [Client.runTask]
    split
    · rename_i c' h
      rcases onTransportMessage_cases env h with off | ⟨resp, parsed, rfl⟩ | ⟨resp, parsed, rfl⟩
      · exact popped.aside off
      all_goals
        apply completePending_enrolled env popped _ (by simp)
        apply ReadsId.isText (parseMessageClient_id _) textless
        rw [parsed]
        rfl
    · split
      · exact lost (popped.congr rfl rfl rfl rfl rfl)
      · exact popped
  | transportDisconnect => exact lost popped
  | cancel id reason =>
    have textless : id.isText = false := by simpa [Task.plain] using plain
    rcases cancelTask_cases env { c with strand := rest } id reason with
      same | ⟨sent, outcome, off, terminal, eq⟩
    · simpa only [Client.runTask, same] using popped
    · simp only [Client.runTask, eq]
      exact completePending_enrolled env (popped.aside off) textless terminal
  | timer pr =>
    rcases onTimer_cases env { c with strand := rest } pr with
      same | ⟨r, outcome, present, terminal, eq⟩
    · simpa only [Client.runTask, same] using popped
    · obtain ⟨n, id, -⟩ := inv.correlated.ids pr r present
      simp only [Client.runTask, eq]
      apply completePending_enrolled env popped _ terminal
      rw [id]
      rfl
  | drain reason => exact drain_enrolled env popped reason
  | send message => exact popped.aside (rawSend_aside _ message)

/-- A thread leaves user code or returns to it, and a number may be used up. -/
theorem Enrolled.resubmit {c c' : Client} (inv : Enrolled c) (correlated : Correlated c')
    (bounded : 0 ≤ c'.nextId ∧ c'.nextId ≤ 2 ^ 63) (requests : c'.requests = c.requests)
    (pendingMap : c'.pendingMap = c.pendingMap) (strand : c'.strand = c.strand)
    (submissions : ∀ thread submission, c'.submissions.lookup thread = some submission →
      c.submissions.lookup thread = some submission ∨
        ∃ args, submission = .tested args ∧ args.proper = true) : Enrolled c' := by
  have held : ∀ thread pr params, c'.submissions.lookup thread = some (.built pr params) →
      c.submissions.lookup thread = some (.built pr params) := by
    intro thread pr params found
    rcases submissions thread _ found with old | ⟨args, new, -⟩
    · exact old
    · cases new
  constructor
  case correlated => exact correlated
  case bounded => exact bounded
  case fits =>
    rw [requests]
    exact inv.fits
  case proper =>
    intro thread args found
    rcases submissions thread _ found with old | ⟨args', new, proper⟩
    · exact inv.proper thread args old
    · cases new
      exact proper
  case held =>
    unfold Client.Awaits
    rw [requests]
    exact fun thread pr params found => inv.held thread pr params (held thread pr params found)
  case queued =>
    unfold Client.Awaits
    rw [requests, strand]
    exact inv.queued
  case alone =>
    exact fun thread thread' pr params params' found found' =>
      inv.alone thread thread' pr params params' (held _ _ _ found) (held _ _ _ found')
  case apart =>
    rw [strand]
    exact fun thread pr params found => inv.apart thread pr params (held _ _ _ found)
  case once =>
    rw [strand]
    exact inv.once
  case plain =>
    rw [strand]
    exact inv.plain
  case entries =>
    rw [pendingMap, requests]
    exact inv.entries
  case distinct =>
    rw [requests]
    exact inv.distinct
  case tokens =>
    rw [requests, pendingMap]
    exact inv.tokens

theorem submitTest_enrolled {c : Client} (inv : Enrolled c) {thread : Nat} {args : SubmitArgs}
    (correlated : Correlated (c.submitTest thread args)) (proper : args.proper = true) :
    Enrolled (c.submitTest thread args) := by
  unfold Client.submitTest at correlated ⊢
  split
  · exact inv
  · rename_i admitted
    rw [if_neg admitted] at correlated
    refine inv.resubmit correlated inv.bounded rfl rfl rfl fun other submission found => ?_
    rcases lookup_insert_cases found with ⟨-, new⟩ | ⟨-, old⟩
    · exact .inr ⟨args, new, proper⟩
    · exact .inl old

theorem request_keyed (c : Client) (thread : Nat) (args : SubmitArgs) (params : Option Json) :
    (c.submitted env thread args params).requests[c.requests.length]? =
      some (args.request env c.nextId) := by
  simp [Client.submitted]

/-- The new request waits for its registration, with a token that no waiting request has. -/
theorem submitted_enrolled {c : Client} (inv : Enrolled c) {thread : Nat} {args : SubmitArgs}
    {params : Option Json} (correlated : Correlated (c.submitted env thread args params))
    (fits : (RequestId.int c.nextId).Fits) (free : c.tokenFree args = true)
    (proper : args.proper = true) (carries : (args.request env c.nextId).Carries params) :
    Enrolled (c.submitted env thread args params) := by
  have kept : ∀ {pr : Nat} {r : PendingRequest}, c.requests[pr]? = some r →
      (c.submitted env thread args params).requests[pr]? = some r := by
    intro pr r present
    have old := (List.getElem?_eq_some_iff.mp present).1
    simp only [Client.submitted]
    rw [List.getElem?_append_left old, present]
  have awaits : ∀ {pr : Nat} {params' : Option Json}, c.Awaits pr params' →
      (c.submitted env thread args params).Awaits pr params' := by
    rintro pr params' ⟨r, present, rest⟩
    exact ⟨r, kept present, rest⟩
  have place : ∀ {pr : Nat} {params' : Option Json}, c.Awaits pr params' →
      pr ≠ c.requests.length := by
    rintro pr params' ⟨r, present, -⟩ rfl
    simp at present
  have held : ∀ {other pr : Nat} {params' : Option Json},
      (c.submitted env thread args params).submissions.lookup other = some (.built pr params') →
      (other = thread ∧ pr = c.requests.length ∧ params' = params) ∨
        c.submissions.lookup other = some (.built pr params') := by
    intro other pr params' found
    rcases lookup_insert_cases found with ⟨same, new⟩ | ⟨-, old⟩
    · cases new
      exact .inl ⟨same, rfl, rfl⟩
    · exact .inr old
  have unused : ∀ {pr : Nat} {r : PendingRequest} {text : String}, c.requests[pr]? = some r →
      r.state = .waiting → r.progressToken = .str text → args.token c.nextId ≠ .str text := by
    intro pr r text present waits token same
    rcases SubmitArgs.proper_token proper c.nextId with ⟨-, own | ⟨text', own, given⟩⟩ | ⟨-, own⟩
    · rw [own] at same
      cases same
    · rw [own] at same
      cases same
      have clash := List.all_eq_true.mp free r (List.mem_of_getElem? present)
      simp [waits, token, given] at clash
    · rw [own] at same
      cases same
  constructor
  case correlated => exact correlated
  case bounded =>
    show 0 ≤ c.nextId + 1 ∧ c.nextId + 1 ≤ 2 ^ 63
    have low := inv.bounded.1
    have high : c.nextId < 2 ^ 63 := fits.2
    omega
  case fits =>
    intro pr r present
    rcases getElem?_concat present with old | ⟨-, rfl⟩
    · exact inv.fits pr r old
    · exact fits
  case proper =>
    intro other args' found
    rcases lookup_insert_cases found with ⟨-, new⟩ | ⟨-, old⟩
    · cases new
    · exact inv.proper other args' old
  case held =>
    intro other pr params' found
    rcases held found with ⟨-, rfl, rfl⟩ | old
    · exact ⟨_, request_keyed env c thread args params', rfl, rfl, carries⟩
    · exact awaits (inv.held other pr params' old)
  case queued =>
    exact fun pr params' member => awaits (inv.queued pr params' member)
  case alone =>
    intro first second pr params₁ params₂ found₁ found₂
    rcases held found₁ with ⟨rfl, rfl, -⟩ | old₁
    · rcases held found₂ with ⟨rfl, -, -⟩ | old₂
      · rfl
      · exact absurd rfl (place (inv.held second _ params₂ old₂))
    · rcases held found₂ with ⟨rfl, rfl, -⟩ | old₂
      · exact absurd rfl (place (inv.held first _ params₁ old₁))
      · exact inv.alone first second pr params₁ params₂ old₁ old₂
  case apart =>
    intro other pr params' found member
    rcases held found with ⟨-, rfl, -⟩ | old
    · obtain ⟨params'', queued⟩ := mem_registers?.mp member
      exact place (inv.queued _ params'' queued) rfl
    · exact inv.apart other pr params' old member
  case once => exact inv.once
  case plain => exact inv.plain
  case entries =>
    intro key pr found
    obtain ⟨r, present, rest⟩ := inv.entries key pr found
    exact ⟨r, kept present, rest⟩
  case distinct =>
    intro pr pr' r r' text present present' waits waits' token token'
    rcases getElem?_concat present with old | ⟨rfl, rfl⟩
    · rcases getElem?_concat present' with old' | ⟨rfl, rfl⟩
      · exact inv.distinct pr pr' r r' text old old' waits waits' token token'
      · exact absurd token' (unused old waits token)
    · rcases getElem?_concat present' with old' | ⟨rfl, -⟩
      · exact absurd token (unused old' waits' token')
      · rfl
  case tokens =>
    intro pr r present registered waits token
    rcases getElem?_concat present with old | ⟨-, rfl⟩
    · exact inv.tokens pr r old registered waits token
    · cases registered

theorem submitBuild_enrolled {c : Client} (inv : Enrolled c) {thread : Nat} {args : SubmitArgs}
    (tested : c.submissions.lookup thread = some (.tested args)) (bound : c.nextId < 2 ^ 63)
    (free : c.tokenFree args = true) : Enrolled (c.submitBuild env thread args) := by
  have correlated := submitBuild_correlated env inv.correlated tested
  have proper := inv.proper thread args tested
  have low := inv.bounded.1
  unfold Client.submitBuild at correlated ⊢
  cases sent : args.sentParams c.nextId with
  | error e =>
    rw [sent] at correlated
    refine inv.resubmit correlated ?_ rfl rfl rfl fun other submission found => ?_
    · show 0 ≤ c.nextId + 1 ∧ c.nextId + 1 ≤ 2 ^ 63
      omega
    · exact .inl (lookup_erase found).2
  | ok params =>
    rw [sent] at correlated
    have fits : (RequestId.int c.nextId).Fits := by
      show -2 ^ 63 ≤ c.nextId ∧ c.nextId < 2 ^ 63
      omega
    exact submitted_enrolled env inv correlated fits free proper (SubmitArgs.carries proper fits sent)

theorem submitPost_enrolled {c : Client} (inv : Enrolled c) {thread pr : Nat}
    {params : Option Json} (held : c.submissions.lookup thread = some (.built pr params))
    (correlated : Correlated (c.submitPost thread pr params)) :
    Enrolled (c.submitPost thread pr params) := by
  have registrations : (c.submitPost thread pr params).strand.filterMap Task.registers? =
      c.strand.filterMap Task.registers? ++ [pr] := by
    simp [Client.submitPost, Client.post, List.filterMap_append, Task.registers?]
  have before : ∀ {other : Nat} {submission : Submission},
      (c.submitPost thread pr params).submissions.lookup other = some submission →
      other ≠ thread ∧ c.submissions.lookup other = some submission :=
    fun found => lookup_erase found
  constructor
  case correlated => exact correlated
  case bounded => exact inv.bounded
  case fits => exact inv.fits
  case proper =>
    exact fun other args found => inv.proper other args (before found).2
  case held =>
    exact fun other pr' params' found => inv.held other pr' params' (before found).2
  case queued =>
    intro pr' params' member
    rcases List.mem_append.mp member with old | new
    · exact inv.queued pr' params' old
    · cases List.mem_singleton.mp new
      exact inv.held thread pr params held
  case alone =>
    exact fun first second pr' params₁ params₂ found₁ found₂ =>
      inv.alone first second pr' params₁ params₂ (before found₁).2 (before found₂).2
  case apart =>
    intro other pr' params' found member
    obtain ⟨ne, old⟩ := before found
    rw [registrations, List.mem_append, List.mem_singleton] at member
    rcases member with queued | rfl
    · exact inv.apart other pr' params' old queued
    · exact ne (inv.alone other thread pr' params' params old held)
  case once =>
    rw [registrations]
    apply List.Nodup.append inv.once (List.nodup_singleton pr)
    intro pr' queued new
    rw [List.mem_singleton.mp new] at queued
    exact inv.apart thread pr params held queued
  case plain =>
    intro task member
    rcases List.mem_append.mp member with old | new
    · exact inv.plain task old
    · rw [List.mem_singleton.mp new]
      rfl
  case entries => exact inv.entries
  case distinct => exact inv.distinct
  case tokens => exact inv.tokens

theorem initial_enrolled (transport : Bool) : Enrolled (Client.initial transport) := by
  have bounded : (0 : Int) ≤ 1 ∧ (1 : Int) ≤ 2 ^ 63 := by omega
  refine ⟨initial_correlated transport, bounded, ?_, ?_, ?_, ?_, ?_, ?_, ?_, ?_, ?_, ?_, ?_⟩
  all_goals simp [Client.initial]

theorem orderly_apart {c : Client} {event : ClientEvent} (orderly : c.orderly event = true) :
    event.keepsTokensApart = true := by
  cases event with
  | tests thread args =>
    obtain ⟨token, -, -⟩ := SubmitArgs.proper_cases orderly
    unfold ClientEvent.keepsTokensApart SubmitArgs.takesNumericToken
    rcases token with none | ⟨text, given, -⟩
    · simp [none]
    · simp [given]
  | _ => rfl

/-- A client on its own, whose user keeps to the rules. -/
theorem step_enrolled {c c' : Client} {event : ClientEvent} (inv : Enrolled c)
    (orderly : c.orderly event = true) (other : ∀ m, event ≠ .arrives m)
    (h : c.step env event = some c') : Enrolled c' := by
  have correlated := step_correlated env inv.correlated (orderly_apart orderly) h
  cases step_cases h with
  | tests thread args => exact submitTest_enrolled inv correlated orderly
  | builds thread args tested =>
    simp only [Client.orderly, tested, Bool.and_eq_true, decide_eq_true_eq] at orderly
    exact submitBuild_enrolled env inv tested orderly.1 orderly.2
  | posts thread pr params held => exact submitPost_enrolled inv held correlated
  | runTask task rest head => exact runTask_enrolled env inv head
  | cancel pr reason r present =>
    obtain ⟨n, id, -⟩ := inv.correlated.ids pr r present
    apply inv.post rfl
    rw [id]
    rfl
  | arrives message => exact absurd rfl (other message)
  | timerExpires pr =>
    have unarmed := update_settles c pr (fun r => { r with timer := false })
      fun r => ⟨rfl, rfl, rfl, fun h => h⟩
    have same : Enrolled (c.update pr fun r => { r with timer := false }) := by
      refine inv.settle unarmed (correlated.congr rfl rfl rfl rfl)
        (fun place r r' before after _ => ?_) fun place r' after registered waits token => ?_
      · simp only [Client.update, List.getElem?_modify, before] at after
        cases after
        split <;> rfl
      · obtain ⟨r, before, step⟩ := unarmed.back after
        have own : r.hasOwnToken = true := step.hasOwnToken ▸ token
        rw [step.progressToken]
        exact inv.tokens place r before (step.registered ▸ registered) (step.waiting waits) own
    exact same.post rfl rfl
  | disconnectInline | stopDrainsInline =>
    apply drain_enrolled env
    exact inv.congr rfl rfl rfl rfl rfl
  | runCallback job rest =>
    refine Enrolled.aside ?_ (fire_aside env _ _)
    exact inv.congr rfl rfl rfl rfl rfl
  | peerCloses | disconnect | stopDrains =>
    apply Enrolled.post _ rfl rfl
    exact inv.congr rfl rfl rfl rfl rfl
  | runJob place job =>
    have taken : Enrolled { c with pool := c.pool.eraseIdx place } :=
      inv.congr rfl rfl rfl rfl rfl
    exact taken.post rfl rfl
  | _ => exact inv.congr rfl rfl rfl rfl rfl

end CppMcp
