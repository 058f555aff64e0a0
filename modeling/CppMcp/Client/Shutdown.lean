import CppMcp.Client.Correlation

namespace CppMcp

open Lib

def Task.isRegister : Task → Bool
  | .register _ _ => true
  | _ => false

/-- A task that fails everything pending. -/
def Task.closes : Task → Bool
  | .drain _ | .transportDisconnect => true
  | _ => false

/-- A registration is posted before the drain is, a drain off the strand leaves no
    registration behind it in the queue, and tokens stay apart from ids. -/
def Client.closesCleanly (c : Client) : ClientEvent → Bool
  | .tests _ args => !args.takesNumericToken
  | .posts _ => !c.ended
  | .disconnectInline | .stopDrainsInline => c.strand.all fun task => !task.isRegister
  | _ => true

def NoRegister (tasks : List Task) : Prop := ∀ task ∈ tasks, task.isRegister = false

/-- Behind the last closing task there is no registration. -/
def ClosingQueued (tasks : List Task) : Prop :=
  ∃ front task back, tasks = front ++ task :: back ∧ task.closes = true ∧ NoRegister back

structure Drained (c : Client) : Prop where
  keys : ∀ key pr, c.pendingMap.lookup key ≠ some pr
  settled : ∀ (pr : Nat) (r : PendingRequest), c.requests[pr]? = some r → r.registered = true →
    r.state ≠ .waiting

/-- A request that is not registered yet is held by its thread or on the strand. -/
def Client.Underway (c : Client) (pr : Nat) : Prop :=
  (∃ thread params, c.submissions.lookup thread = some (.built pr params)) ∨
    ∃ params, .register pr params ∈ c.strand

structure ShutDown (c : Client) : Prop where
  stopped : c.stopDrained = true → c.ended = true
  closing : c.ended = true → c.ioAlive = true →
    (Drained c ∧ NoRegister c.strand) ∨ ClosingQueued c.strand
  dead : c.ioAlive = false → Drained c
  accounted : ∀ (pr : Nat) (r : PendingRequest), c.requests[pr]? = some r → r.registered = false →
    c.Underway pr

theorem NoRegister.append {front back : List Task} (first : NoRegister front)
    (second : NoRegister back) : NoRegister (front ++ back) := by
  intro task member
  rcases List.mem_append.mp member with member | member
  · exact first task member
  · exact second task member

theorem noRegister_sends {tasks : List Task} (sends : ∀ task ∈ tasks, task.isSend = true) :
    NoRegister tasks := by
  intro task member
  have send := sends task member
  cases task with
  | send message => rfl
  | _ => cases send

theorem ClosingQueued.append {tasks more : List Task} (closing : ClosingQueued tasks)
    (off : NoRegister more) : ClosingQueued (tasks ++ more) := by
  obtain ⟨front, task, back, rfl, closes, clear⟩ := closing
  exact ⟨front, task, back ++ more, by simp, closes, clear.append off⟩

theorem Drained.of_back {c c' : Client} (drained : Drained c)
    (back : ∀ (pr : Nat) (r' : PendingRequest), c'.requests[pr]? = some r' →
      ∃ r, c.requests[pr]? = some r ∧ r.Settles r')
    (keys : ∀ key pr, c'.pendingMap.lookup key = some pr → c.pendingMap.lookup key = some pr) :
    Drained c' where
  keys key pr found := drained.keys key pr (keys key pr found)
  settled pr r' h registered waits := by
    obtain ⟨r, before, step⟩ := back pr r' h
    exact drained.settled pr r before (step.registered ▸ registered) (step.waiting waits)

theorem Drained.settle {c c' : Client} (drained : Drained c) (settles : c.Settles c') :
    Drained c' :=
  drained.of_back (fun _ _ h => settles.back h) settles.pendingMap

/-- A step that registers nothing, submits nothing and leaves the flags. -/
theorem ShutDown.quiet {c c' : Client} (inv : ShutDown c)
    (back : ∀ (pr : Nat) (r' : PendingRequest), c'.requests[pr]? = some r' →
      ∃ r, c.requests[pr]? = some r ∧ r.Settles r')
    (keys : ∀ key pr, c'.pendingMap.lookup key = some pr → c.pendingMap.lookup key = some pr)
    (submissions : c'.submissions = c.submissions) (stopDrained : c'.stopDrained = c.stopDrained)
    (ended : c'.ended = c.ended) (ioAlive : c'.ioAlive = c.ioAlive) {tasks : List Task}
    (strand : c'.strand = c.strand ++ tasks) (off : NoRegister tasks) : ShutDown c' where
  stopped h := by rw [ended]; exact inv.stopped (stopDrained ▸ h)
  closing h alive := by
    rcases inv.closing (ended ▸ h) (ioAlive ▸ alive) with ⟨drained, clear⟩ | queued
    · exact .inl ⟨drained.of_back back keys, strand ▸ clear.append off⟩
    · exact .inr (strand ▸ queued.append off)
  dead h := (inv.dead (ioAlive ▸ h)).of_back back keys
  accounted pr r' h unregistered := by
    obtain ⟨r, before, step⟩ := back pr r' h
    rcases inv.accounted pr r before (step.registered ▸ unregistered) with held | ⟨params, queued⟩
    · exact .inl (submissions ▸ held)
    · exact .inr ⟨params, strand ▸ List.mem_append_left _ queued⟩

theorem Drained.congr {c c' : Client} (drained : Drained c) (requests : c'.requests = c.requests)
    (pendingMap : c'.pendingMap = c.pendingMap) : Drained c' :=
  drained.of_back (fun _ r h => ⟨r, requests ▸ h, .refl r⟩) fun _ _ h => pendingMap ▸ h

/-- A step that may only add to the submissions or drop one that holds no request. -/
theorem ShutDown.resubmit {c c' : Client} (inv : ShutDown c) (requests : c'.requests = c.requests)
    (pendingMap : c'.pendingMap = c.pendingMap) (strand : c'.strand = c.strand)
    (stopDrained : c'.stopDrained = c.stopDrained) (ended : c'.ended = true → c.ended = true)
    (kept : c.ended = true → c.stopDrained = true → c'.ended = true)
    (ioAlive : c'.ioAlive = c.ioAlive)
    (held : ∀ thread pr params, c.submissions.lookup thread = some (.built pr params) →
      c'.submissions.lookup thread = some (.built pr params)) : ShutDown c' where
  stopped h := by
    rw [stopDrained] at h
    exact kept (inv.stopped h) h
  closing h alive := by
    rw [strand]
    rcases inv.closing (ended h) (ioAlive ▸ alive) with ⟨drained, clear⟩ | queued
    · exact .inl ⟨drained.congr requests pendingMap, clear⟩
    · exact .inr queued
  dead h := (inv.dead (ioAlive ▸ h)).congr requests pendingMap
  accounted pr r h unregistered := by
    rcases inv.accounted pr r (requests ▸ h) unregistered with ⟨thread, params, built⟩ | queued
    · exact .inl ⟨thread, params, held thread pr params built⟩
    · exact .inr (by rwa [strand])

/-- A step that ends the session: its drain is now the last one queued. -/
theorem ShutDown.ending {c c' : Client} (inv : ShutDown c) (requests : c'.requests = c.requests)
    (pendingMap : c'.pendingMap = c.pendingMap) (submissions : c'.submissions = c.submissions)
    (ended : c'.ended = true) (ioAlive : c'.ioAlive = c.ioAlive) {task : Task}
    (strand : c'.strand = c.strand ++ [task]) (closes : task.closes = true) : ShutDown c' where
  stopped _ := ended
  closing _ _ := .inr ⟨c.strand, task, [], strand, closes, by simp [NoRegister]⟩
  dead h := (inv.dead (ioAlive ▸ h)).congr requests pendingMap
  accounted pr r h unregistered := by
    rcases inv.accounted pr r (requests ▸ h) unregistered with held | ⟨params, queued⟩
    · exact .inl (submissions ▸ held)
    · exact .inr ⟨params, strand ▸ List.mem_append_left _ queued⟩

variable (env : ClientEnv)

theorem failAllPending_drained {c : Client} (keyed : c.Keyed) (reason : String) :
    Drained (c.failAllPending env reason) where
  keys key pr found := by simp at found
  settled pr r' after registered waits := by
    have key := failAllPending_keyed env keyed reason pr r' after registered waits
    simp at key

theorem drain_drained {c : Client} (keyed : c.Keyed) (reason : String) :
    Drained (c.drain env reason) := by
  have cut : Client.Keyed { c with connected := false } := keyed
  exact failAllPending_drained env cut reason

theorem onTransportDisconnect_drained {c : Client} (keyed : c.Keyed) :
    Drained (c.onTransportDisconnect env) :=
  (drain_drained env keyed _).settle (onTransportDisconnect_aside env c).settles

theorem runTask_closes {c : Client} (keyed : c.Keyed) {task : Task} (closes : task.closes = true) :
    Drained (c.runTask env task) := by
  cases task with
  | drain reason => exact drain_drained env keyed reason
  | transportDisconnect => exact onTransportDisconnect_drained env keyed
  | _ => cases closes

/-- An inline drain, with nothing queued that registers. -/
theorem ShutDown.inline {c mid : Client} (inv : ShutDown c) (keyed : mid.Keyed)
    (requests : mid.requests = c.requests) (submissions : mid.submissions = c.submissions)
    (strand : mid.strand = c.strand) (ended : mid.ended = true) (clear : NoRegister c.strand)
    (reason : String) : ShutDown (mid.drain env reason) := by
  have settles := drain_settles env mid reason
  have drained := drain_drained env keyed reason
  obtain ⟨tasks, posted, sends⟩ := settles.posted
  rw [strand] at posted
  refine ⟨fun _ => settles.ended.trans ended, fun _ _ => .inl ⟨drained, ?_⟩, fun _ => drained,
    fun pr r' h unregistered => ?_⟩
  · rw [posted]
    exact clear.append (noRegister_sends sends)
  · obtain ⟨r, before, step⟩ := settles.back h
    rcases inv.accounted pr r (requests ▸ before) (step.registered ▸ unregistered) with
      held | ⟨params, queued⟩
    · left
      rw [settles.submissions, submissions]
      exact held
    · right
      rw [posted]
      exact ⟨params, List.mem_append_left _ queued⟩

theorem ClosingQueued.tail {task : Task} {rest : List Task} (queued : ClosingQueued (task :: rest)) :
    (task.closes = true ∧ NoRegister rest) ∨ ClosingQueued rest := by
  obtain ⟨front, last, back, split, closes, clear⟩ := queued
  cases front with
  | nil =>
    cases split
    exact .inl ⟨closes, clear⟩
  | cons first front =>
    cases split
    exact .inr ⟨front, last, back, rfl, closes, clear⟩

theorem registerTask_back (c : Client) {pr : Nat} {params : Option Json} {pr' : Nat}
    {r' : PendingRequest} (h : (c.registerTask pr params).requests[pr']? = some r')
    (unregistered : r'.registered = false) :
    pr ≠ pr' ∧ c.requests[pr']? = some r' := by
  cases present : c.requests[pr]? with
  | none =>
    have same : c.registerTask pr params = c := by simp only [Client.registerTask, present]
    rw [same] at h
    refine ⟨fun eq => ?_, h⟩
    rw [← eq, present] at h
    cases h
  | some r =>
    obtain ⟨mid, off, -, -, -, -, -, -, -, timer, marked⟩ := registerTask_spec c pr params present
    rw [off.requests, marked] at h
    by_cases same : pr = pr'
    · subst same
      rw [List.getElem?_modify_eq, present] at h
      cases h
      cases unregistered
    · rw [List.getElem?_modify_ne _ _ same] at h
      exact ⟨same, h⟩

theorem runTask_shutDown {c : Client} (inv : ShutDown c) (keyed : c.Keyed) {task : Task}
    {rest : List Task} (head : c.strand = task :: rest) (alive : c.ioAlive = true) :
    ShutDown ({ c with strand := rest }.runTask env task) := by
  obtain ⟨sends, strand, sent⟩ := runTask_strand env { c with strand := rest } task
  have clear := noRegister_sends sent
  have closes (closed : task.closes = true) :
      Drained ({ c with strand := rest }.runTask env task) :=
    have popped : Client.Keyed { c with strand := rest } := keyed
    runTask_closes env popped closed
  have closing := inv.closing
  have accounted := inv.accounted
  simp only [Client.Underway, head] at closing accounted
  rcases runTask_cases env { c with strand := rest } task with
    ⟨pr, params, rfl, eq⟩ | ⟨other, settles⟩ | ⟨message, e, rfl, -, -, eq⟩
  · obtain ⟨ended, ioAlive, stopDrained, submissions, -⟩ :=
      registerTask_flags { c with strand := rest } pr params
    rw [← eq] at ended ioAlive stopDrained submissions
    refine ⟨fun h => ended.trans (inv.stopped (stopDrained ▸ h)), fun h _ => ?_, fun h => ?_,
      fun pr' r' h unregistered => ?_⟩
    · rcases closing (ended ▸ h) alive with ⟨-, off⟩ | queued
      · exact absurd (off _ List.mem_cons_self) (by simp [Task.isRegister])
      · rcases queued.tail with ⟨closed, -⟩ | queued
        · cases closed
        · exact .inr (strand ▸ queued.append clear)
    · rw [ioAlive.trans alive] at h
      cases h
    · rw [eq] at h
      obtain ⟨ne, before⟩ := registerTask_back _ h unregistered
      rcases accounted pr' r' before unregistered with held | ⟨params', queued⟩
      · exact .inl (by rw [submissions]; exact held)
      · rcases List.mem_cons.mp queued with same | queued
        · cases same
          exact absurd rfl ne
        · exact .inr ⟨params', strand ▸ List.mem_append_left _ queued⟩
  · refine ⟨fun h => settles.ended.trans (inv.stopped (settles.stopDrained ▸ h)), fun h _ => ?_,
      fun h => ?_, fun pr r' h unregistered => ?_⟩
    · rcases closing (settles.ended ▸ h) alive with ⟨drained, off⟩ | queued
      · have popped : Drained { c with strand := rest } := drained.congr rfl rfl
        have behind : NoRegister rest := fun task member => off task (List.mem_cons_of_mem _ member)
        exact .inl ⟨popped.settle settles, strand ▸ behind.append clear⟩
      · rcases queued.tail with ⟨closed, behind⟩ | queued
        · exact .inl ⟨closes closed, strand ▸ behind.append clear⟩
        · exact .inr (strand ▸ queued.append clear)
    · rw [settles.ioAlive.trans alive] at h
      cases h
    · obtain ⟨r, before, step⟩ := settles.back h
      rcases accounted pr r before (step.registered ▸ unregistered) with held | ⟨params, queued⟩
      · exact .inl (by rw [settles.submissions]; exact held)
      · rcases List.mem_cons.mp queued with same | queued
        · exact absurd same.symm (other pr params)
        · exact .inr ⟨params, strand ▸ List.mem_append_left _ queued⟩
  · have settles := loopDied_settles env { c with strand := rest } e
    have drained : Drained (Client.loopDied env { c with strand := rest } e) := by
      refine onTransportDisconnect_drained env ?_
      exact keyed
    rw [← eq] at settles drained
    refine ⟨fun _ => settles.ended, fun _ h => ?_, fun _ => drained, fun pr r' h unregistered => ?_⟩
    · rw [settles.ioAlive] at h
      cases h
    · obtain ⟨r, before, step⟩ := settles.back h
      rcases accounted pr r before (step.registered ▸ unregistered) with held | ⟨params, queued⟩
      · exact .inl (by rw [settles.submissions]; exact held)
      · rcases List.mem_cons.mp queued with same | queued
        · cases same
        · exact .inr ⟨params, strand ▸ List.mem_append_left _ queued⟩

/-- Nothing of the client changes but its queue, its pools and its logs. -/
theorem same_back {c c' : Client} (requests : c'.requests = c.requests) (pr : Nat)
    (r' : PendingRequest) (h : c'.requests[pr]? = some r') :
    ∃ r, c.requests[pr]? = some r ∧ r.Settles r' := ⟨r', requests ▸ h, .refl r'⟩

theorem submitBuild_shutDown {c : Client} (inv : ShutDown c) {thread : Nat} {args : SubmitArgs}
    (tested : c.submissions.lookup thread = some (.tested args)) :
    ShutDown (c.submitBuild env thread args) := by
  have elsewhere : ∀ {other pr params}, c.submissions.lookup other = some (.built pr params) →
      other ≠ thread := by
    intro other pr params held same
    rw [same, tested] at held
    cases held
  simp only [Client.submitBuild]
  split
  · refine inv.resubmit rfl rfl rfl rfl (fun h => h) (fun h _ => h) rfl fun other pr params held => ?_
    simpa [AList.lookup_erase_ne (elsewhere held)] using held
  · rename_i params _
    have drained (before : Drained c) : Drained (c.submitted env thread args params) := by
      refine ⟨before.keys, fun pr r h registered => ?_⟩
      rcases getElem?_concat h with h | ⟨-, rfl⟩
      · exact before.settled pr r h registered
      · cases registered
    refine ⟨inv.stopped, fun ended alive => ?_, fun h => drained (inv.dead h),
      fun pr r h unregistered => ?_⟩
    · rcases inv.closing ended alive with ⟨before, clear⟩ | queued
      · exact .inl ⟨drained before, clear⟩
      · exact .inr queued
    · rcases getElem?_concat h with h | ⟨rfl, rfl⟩
      · rcases inv.accounted pr r h unregistered with ⟨other, params', held⟩ | queued
        · exact .inl ⟨other, params', by
            simpa [Client.submitted, AList.lookup_insert_ne (elsewhere held)] using held⟩
        · exact .inr queued
      · exact .inl ⟨thread, params, AList.lookup_insert _⟩

theorem submitPost_shutDown {c : Client} (inv : ShutDown c) {thread pr : Nat}
    {params : Option Json} (held : c.submissions.lookup thread = some (.built pr params))
    (opened : c.ended = false) : ShutDown (c.submitPost thread pr params) := by
  refine ⟨inv.stopped, fun ended _ => ?_, fun h => ⟨(inv.dead h).keys, (inv.dead h).settled⟩,
    fun pr' r h unregistered => ?_⟩
  · have closed : c.ended = true := ended
    rw [opened] at closed
    cases closed
  · rcases inv.accounted pr' r h unregistered with ⟨other, params', held'⟩ | ⟨params', queued⟩
    · by_cases same : other = thread
      · subst same
        rw [held] at held'
        cases held'
        exact .inr ⟨params, by simp [Client.submitPost, Client.post]⟩
      · exact .inl ⟨other, params', by
          simpa [Client.submitPost, Client.post, AList.lookup_erase_ne same] using held'⟩
    · exact .inr ⟨params', List.mem_append_left _ queued⟩

theorem step_shutDown {c c' : Client} {event : ClientEvent} (inv : ShutDown c)
    (correlated : Correlated c) (cleanly : c.closesCleanly event = true)
    (h : c.step env event = some c') : ShutDown c' := by
  cases step_cases h with
  | tests thread args free =>
    unfold Client.submitTest
    split
    · exact inv
    · refine inv.resubmit rfl rfl rfl rfl (fun h => h) (fun h _ => h) rfl
        fun other pr params held => ?_
      have ne : other ≠ thread := by
        rintro rfl
        simp [held] at free
      simpa [AList.lookup_insert_ne ne] using held
  | builds thread args tested => exact submitBuild_shutDown env inv tested
  | posts thread pr params held =>
    exact submitPost_shutDown inv held (by simpa [Client.closesCleanly] using cleanly)
  | runTask task rest head alive => exact runTask_shutDown env inv correlated.keyed head alive
  | timerExpires pr =>
    have unarmed := update_settles c pr (fun r => { r with timer := false })
      fun r => ⟨rfl, rfl, rfl, fun h => h⟩
    exact inv.quiet (fun _ _ h => unarmed.back h) (fun _ _ h => h) rfl rfl rfl rfl rfl
      (by simp [NoRegister, Task.isRegister])
  | disconnectInline =>
    have keyed : Client.Keyed { c with ended := true } := correlated.keyed
    exact inv.inline env keyed rfl rfl rfl rfl
      (by simpa [Client.closesCleanly, NoRegister] using cleanly) _
  | stopDrainsInline =>
    have keyed : Client.Keyed { c with ended := true, stopDrained := true } := correlated.keyed
    exact inv.inline env keyed rfl rfl rfl rfl
      (by simpa [Client.closesCleanly, NoRegister] using cleanly) _
  | runCallback job rest =>
    have off := fire_aside env { c with callbackQueue := rest } job
    obtain ⟨tasks, strand, sends⟩ := off.posted
    exact inv.quiet (same_back off.requests) (fun _ _ h => off.pendingMap ▸ h) off.submissions
      off.stopDrained off.ended off.ioAlive strand (noRegister_sends sends)
  | connect =>
    exact inv.resubmit rfl rfl rfl rfl inv.stopped (fun _ h => h) rfl fun _ _ _ held => held
  | stopDrains | peerCloses | disconnect => exact inv.ending rfl rfl rfl rfl rfl rfl rfl
  | cancel | runJob | arrives =>
    exact inv.quiet (same_back rfl) (fun _ _ h => h) rfl rfl rfl rfl rfl
      (by simp [NoRegister, Task.isRegister])
  | stopBegins | stopEnds | rollback =>
    exact inv.resubmit rfl rfl rfl rfl (fun h => h) (fun h _ => h) rfl fun _ _ _ held => held

/-- A run that shuts down cleanly also keeps tokens apart from ids. -/
theorem closesCleanly_apart {c : Client} {event : ClientEvent}
    (cleanly : c.closesCleanly event = true) : event.keepsTokensApart = true := by
  cases event with
  | tests thread args => exact cleanly
  | _ => rfl

theorem run_shutDown {transport : Bool} {events : List ClientEvent} {c : Client}
    (cleanly : Meets (Client.step env) (fun c e => c.closesCleanly e = true)
      (Client.initial transport) events)
    (h : run (Client.step env) (Client.initial transport) events = some c) :
    Correlated c ∧ ShutDown c := by
  have start : ShutDown (Client.initial transport) := by
    refine ⟨fun h => ?_, fun h => ?_, fun h => ?_, fun pr r h => ?_⟩
    · cases h
    · cases h
    · cases h
    · simp [Client.initial] at h
  have keeps : ∀ c e c', Correlated c ∧ ShutDown c → c.closesCleanly e = true →
      c.step env e = some c' → Correlated c' ∧ ShutDown c' := fun _ _ _ inv cleanly h =>
    ⟨step_correlated env inv.1 (closesCleanly_apart cleanly) h,
      step_shutDown env inv.2 inv.1 cleanly h⟩
  exact run_invariant keeps ⟨initial_correlated transport, start⟩ cleanly h

theorem eq_empty_of_lookup {m : AList (fun _ : RequestId => Nat)}
    (none : ∀ key pr, m.lookup key ≠ some pr) : m = ∅ := by
  apply AList.ext
  cases entries : m.entries with
  | nil => rfl
  | cons entry rest =>
    have found : m.lookup entry.1 = some entry.2 :=
      AList.mem_lookup_iff.mpr (entries ▸ List.mem_cons_self)
    exact absurd found (none entry.1 entry.2)

/-- In a run whose registrations are posted before the drain, nothing is left waiting
    once the client has been disconnected or stopped and its queue has run. -/
theorem shutdown_strands_nothing (transport : Bool) (events : List ClientEvent) (c : Client)
    (cleanly : Meets (Client.step env) (fun c e => c.closesCleanly e = true)
      (Client.initial transport) events)
    (h : run (Client.step env) (Client.initial transport) events = some c)
    (ended : c.ended = true) (returned : c.submissions = ∅) (idle : c.strand = []) :
    c.pendingMap = ∅ ∧ ∀ r ∈ c.requests, r.state ≠ .waiting := by
  obtain ⟨-, inv⟩ := run_shutDown env cleanly h
  have drained : Drained c := by
    cases alive : c.ioAlive with
    | false => exact inv.dead alive
    | true =>
      rcases inv.closing ended alive with ⟨drained, -⟩ | ⟨front, task, back, split, -⟩
      · exact drained
      · simp [idle] at split
  refine ⟨eq_empty_of_lookup drained.keys, fun r member => ?_⟩
  obtain ⟨pr, present⟩ := List.mem_iff_getElem?.mp member
  cases registered : r.registered with
  | true => exact drained.settled pr r present registered
  | false =>
    rcases inv.accounted pr r present registered with ⟨thread, params, held⟩ | ⟨params, queued⟩
    · simp [returned] at held
    · simp [idle] at queued

theorem shutdown_settles_request :
    ∃ c, run (Client.step {}) (Client.initial true)
      (handshake ++ submission { method := "ping" } ++ [ClientEvent.disconnect, .runTask]) = some c ∧
      c.pendingMap = ∅ ∧ ∀ r ∈ c.requests, r.state ≠ .waiting := by
  have shape : (run (Client.step {}) (Client.initial true)
      (handshake ++ submission { method := "ping" } ++ [ClientEvent.disconnect, .runTask])).map
      (fun c => (c.ended, c.submissions.keys, c.strand)) = some (true, [], []) := by decide
  obtain ⟨c, h, seen⟩ := Option.map_eq_some_iff.mp shape
  simp only [Prod.mk.injEq] at seen
  exact ⟨c, h, shutdown_strands_nothing {} true _ c (by decide) h seen.1
    (AList.ext (List.map_eq_nil_iff.mp seen.2.1)) seen.2.2⟩

/-- A thread passes the test, the drain is posted and run, and only then the thread posts
    its registration. -/
def latePost : List ClientEvent :=
  handshake ++
    [ClientEvent.tests 1 { method := "ping" }, .disconnect, .runTask, .builds 1, .posts 1, .runTask]

theorem late_post_is_stranded : ∃ c, run (Client.step {}) (Client.initial true) latePost = some c ∧
    c.ended = true ∧ c.submissions = ∅ ∧ c.strand = [] ∧ c.pendingMap ≠ ∅ ∧
    ∃ r ∈ c.requests, r.state = .waiting := by
  have shape : (run (Client.step {}) (Client.initial true) latePost).map
      (fun c => ((c.ended, c.submissions.keys, c.strand), c.pendingMap.lookup (.int 2),
        (c.requests[1]?).map fun r => r.state)) =
      some ((true, [], []), some 1, some .waiting) := by decide
  obtain ⟨c, h, seen⟩ := Option.map_eq_some_iff.mp shape
  simp only [Prod.mk.injEq, Option.map_eq_some_iff] at seen
  obtain ⟨⟨ended, returned, idle⟩, found, r, present, waits⟩ := seen
  refine ⟨c, h, ended, AList.ext (List.map_eq_nil_iff.mp returned), idle, fun empty => ?_, r, List.mem_of_getElem? present, waits⟩
  simp [empty] at found

end CppMcp
