import CppMcp.Client.Link
import CppMcp.Client.Shutdown

namespace CppMcp

open Lib

/-- What is queued, held by a thread or keyed is a request that was built. -/
structure Placed (c : Client) : Prop where
  queued : ∀ pr params, .register pr params ∈ c.strand → pr < c.requests.length
  held : ∀ thread pr params, c.submissions.lookup thread = some (.built pr params) →
    pr < c.requests.length
  keyed : ∀ key pr, c.pendingMap.lookup key = some pr → pr < c.requests.length

variable (env : ClientEnv)

theorem registerTask_length (c : Client) (pr : Nat) (params : Option Json) :
    (c.registerTask pr params).requests.length = c.requests.length := by
  cases present : c.requests[pr]? with
  | none => simp only [Client.registerTask, present]
  | some r =>
    obtain ⟨mid, off, -, -, -, -, -, -, -, timer, marked⟩ := registerTask_spec c pr params present
    rw [off.requests, marked, List.length_modify]

theorem registerTask_lookup {c : Client} {pr pr' : Nat} {params : Option Json} {key : RequestId}
    (h : (c.registerTask pr params).pendingMap.lookup key = some pr') :
    (pr' = pr ∧ pr < c.requests.length) ∨ c.pendingMap.lookup key = some pr' := by
  cases present : c.requests[pr]? with
  | none =>
    simp only [Client.registerTask, present] at h
    exact .inr h
  | some r =>
    obtain ⟨mid, off, map, -⟩ := registerTask_spec c pr params present
    rw [off.pendingMap, map, registerPending_lookup] at h
    split at h
    · cases h
      exact .inl ⟨rfl, (List.getElem?_eq_some_iff.mp present).1⟩
    · exact .inr h

theorem step_length {c c' : Client} {event : ClientEvent} (h : c.step env event = some c') :
    c.requests.length ≤ c'.requests.length := by
  rcases step_kinds env h with ⟨thread, args, params, -, rfl⟩ | ⟨-, rest, pr, params, -, rfl⟩ |
    ⟨before, requests, -, settles⟩
  · simp [Client.submitted]
  · rw [registerTask_length]
  · rw [settles.length, requests]

/-- A key in the map is an old one unless the step is a registration. -/
theorem step_lookup {c c' : Client} {event : ClientEvent} (h : c.step env event = some c')
    {key : RequestId} {pr : Nat} (found : c'.pendingMap.lookup key = some pr) :
    c.pendingMap.lookup key = some pr ∨
      (event = .runTask ∧ pr < c.requests.length ∧
        ∃ params rest, c.strand = .register pr params :: rest) := by
  rcases step_kinds env h with ⟨thread, args, params, -, rfl⟩ | ⟨runs, rest, pr', params, head, rfl⟩ |
    ⟨before, -, pendingMap, settles⟩
  · exact .inl found
  · rcases registerTask_lookup found with ⟨rfl, bound⟩ | old
    · exact .inr ⟨runs, bound, params, rest, head⟩
    · exact .inl old
  · rw [← pendingMap]
    exact .inl (settles.pendingMap key pr found)

theorem runTask_submissions (c : Client) (task : Task) :
    (c.runTask env task).submissions = c.submissions := by
  rcases runTask_cases env c task with ⟨pr, params, -, eq⟩ | ⟨-, settles⟩ | ⟨-, e, -, -, -, eq⟩
  · rw [eq]
    exact (registerTask_flags c pr params).2.2.2.1
  · exact settles.submissions
  · rw [eq]
    exact (loopDied_settles env c e).submissions

/-- A thread that holds a built request held it before, or has just built it. -/
theorem step_held {c c' : Client} {event : ClientEvent} (h : c.step env event = some c')
    {thread pr : Nat} {params : Option Json}
    (held : c'.submissions.lookup thread = some (.built pr params)) :
    c.submissions.lookup thread = some (.built pr params) ∨ pr < c'.requests.length := by
  cases step_cases h with
  | tests other args =>
    unfold Client.submitTest at held
    split at held
    · exact .inl held
    · rcases lookup_insert_cases held with ⟨-, new⟩ | ⟨-, old⟩
      · cases new
      · exact .inl old
  | builds other args =>
    simp only [Client.submitBuild] at held ⊢
    split at held
    · exact .inl (lookup_erase held).2
    · rename_i sent built
      simp only [Client.submitted] at held ⊢
      rcases lookup_insert_cases held with ⟨-, new⟩ | ⟨-, old⟩
      · cases new
        simp
      · exact .inl old
  | posts other => exact .inl (lookup_erase held).2
  | runTask task rest =>
    rw [runTask_submissions] at held
    exact .inl held
  | disconnectInline | stopDrainsInline =>
    rw [(drain_settles env _ _).submissions] at held
    exact .inl held
  | runCallback job rest =>
    rw [(fire_aside env _ job).submissions] at held
    exact .inl held
  | _ => exact .inl held

/-- A registration on the strand was there before, or its thread has just posted it. -/
theorem step_queued {c c' : Client} {event : ClientEvent} (h : c.step env event = some c')
    {pr : Nat} {params : Option Json} (queued : .register pr params ∈ c'.strand) :
    .register pr params ∈ c.strand ∨
      ∃ thread, c.submissions.lookup thread = some (.built pr params) := by
  cases step_cases h with
  | posts thread pr' params' held =>
    rcases List.mem_append.mp queued with member | member
    · exact .inl member
    · cases List.mem_singleton.mp member
      exact .inr ⟨thread, held⟩
  | _ =>
    obtain ⟨old, tasks, strand, may, which⟩ := step_strand env h
    rw [strand] at queued
    rcases List.mem_append.mp queued with member | member
    · rcases which with rfl | ⟨-, task, head⟩
      · exact .inl member
      · exact .inl (head ▸ List.mem_cons_of_mem task member)
    · exact (may _ member).elim

theorem step_placed {c c' : Client} {event : ClientEvent} (inv : Placed c)
    (h : c.step env event = some c') : Placed c' where
  queued pr params member := by
    have longer := step_length env h
    rcases step_queued env h member with old | ⟨thread, held⟩
    · exact Nat.lt_of_lt_of_le (inv.queued pr params old) longer
    · exact Nat.lt_of_lt_of_le (inv.held thread pr params held) longer
  held thread pr params member := by
    rcases step_held env h member with old | new
    · exact Nat.lt_of_lt_of_le (inv.held thread pr params old) (step_length env h)
    · exact new
  keyed key pr found := by
    have longer := step_length env h
    rcases step_lookup env h found with old | ⟨-, bound, -⟩
    · exact Nat.lt_of_lt_of_le (inv.keyed key pr old) longer
    · exact Nat.lt_of_lt_of_le bound longer

theorem invoke_connected (c : Client) (label : String) (call : Call) :
    (c.invoke env label call).connected = c.connected := by
  unfold Client.invoke
  split <;> rfl

theorem dispatch_connected (c : Client) (job : CallbackJob) :
    (c.dispatch env job).connected = c.connected := by
  unfold Client.dispatch Client.fire
  repeat' split
  all_goals first
    | rfl
    | exact invoke_connected env c _ _

theorem failPending_connected (reason : String) (c : Client) (pr : Nat) :
    (c.failPending env reason pr).connected = c.connected := by
  unfold Client.failPending Client.finish
  repeat' split
  all_goals first
    | rfl
    | exact dispatch_connected env _ _

theorem failPending_other (reason : String) (c : Client) {pr pr' : Nat} (ne : pr ≠ pr') :
    (c.failPending env reason pr).requests[pr']? = c.requests[pr']? := by
  unfold Client.failPending
  repeat' split
  all_goals first
    | rfl
    | exact finish_other env c pr _ ne

theorem drain_connected (c : Client) (reason : String) : (c.drain env reason).connected = false := by
  have loop : ∀ (prs : List Nat) (c : Client),
      (prs.foldl (Client.failPending env reason) c).connected = c.connected := by
    intro prs
    induction prs with
    | nil => exact fun c => rfl
    | cons pr prs ih => exact fun c => (ih _).trans (failPending_connected env reason c pr)
  exact loop _ _

theorem drain_other (c : Client) (reason : String) {pr : Nat}
    (unkeyed : ∀ key pr', c.pendingMap.lookup key = some pr' → pr' ≠ pr) :
    (c.drain env reason).requests[pr]? = c.requests[pr]? := by
  have loop : ∀ (prs : List Nat) (c : Client), pr ∉ prs →
      (prs.foldl (Client.failPending env reason) c).requests[pr]? = c.requests[pr]? := by
    intro prs
    induction prs with
    | nil => exact fun c _ => rfl
    | cons head prs ih =>
      intro c absent
      rw [List.mem_cons, not_or] at absent
      exact (ih _ absent.2).trans (failPending_other env reason c (Ne.symm absent.1))
  refine loop _ _ fun member => ?_
  obtain ⟨entry, found, same⟩ := List.mem_map.mp member
  exact unkeyed entry.1 entry.2 (AList.mem_lookup_iff.mpr found) same

/-- A task that closes drops `connected_` and touches only what is keyed. -/
theorem closing_spares {c : Client} {task : Task} (closes : task.closes = true) :
    (c.runTask env task).connected = false ∧ ∀ pr,
      (∀ key pr', c.pendingMap.lookup key = some pr' → pr' ≠ pr) →
      (c.runTask env task).requests[pr]? = c.requests[pr]? := by
  cases task with
  | drain reason => exact ⟨drain_connected env c reason, fun pr => drain_other env c reason⟩
  | transportDisconnect =>
    have aside := onTransportDisconnect_aside env c
    refine ⟨?_, fun pr unkeyed => ?_⟩
    · have dropped := drain_connected env c "transport disconnected"
      simp only [Client.runTask, Client.onTransportDisconnect]
      split
      · exact (invoke_connected env _ _ _).trans dropped
      · exact dropped
    · simp only [Client.runTask]
      rw [aside.requests]
      exact drain_other env c _ unkeyed
  | _ => cases closes

def LoopTask.strandTask : LoopTask → Option Task
  | .strand task _ => some task
  | _ => none

/-- A task on the strand that fails what is pending, from before the last opening. -/
def LoopTask.closesBefore (opened : Nat) : LoopTask → Bool
  | .strand task conn => task.closes && decide (conn < opened)
  | _ => false

/-- A task that the end of an earlier connection has left behind. -/
def LoopTask.isStale (opened : Nat) : LoopTask → Bool
  | .onRead conn | .onWrite conn | .disconnectHandler conn => decide (conn < opened)
  | .strand task conn => task.closes && decide (conn < opened)
  | .clearHandlers _ => false

/-- A task that can still make the transport call its disconnect handler. -/
def Link.signals (s : Link) : LoopTask → Bool
  | .onRead _ | .disconnectHandler _ => true
  | .onWrite conn => decide (conn ∈ s.writers)
  | _ => false

/-- No operation of a connection is left that could still end it. -/
def Link.quiet (s : Link) : Bool :=
  s.reads.isEmpty && s.writes.all (fun conn => decide (conn ∉ s.writers)) &&
    s.queue.all fun task => !s.signals task

/-- What keeps the end of a connection away from the next one: it has been signalled when
    that one opens, and a left over task of the strand does not find `connected_` set. -/
def LinkEvent.spares (s : Link) : LinkEvent → Bool
  | .opens => s.quiet
  | .runs 0 => !(s.queue.take 1).any (LoopTask.closesBefore s.opened) || !s.client.connected
  | _ => true

/-- Whatever may still end a connection belongs to the open one. -/
structure Current (s : Link) : Prop where
  reads : ∀ conn ∈ s.reads, conn = s.opened
  signals : ∀ conn, .onRead conn ∈ s.queue ∨ .disconnectHandler conn ∈ s.queue → conn = s.opened
  writes : ∀ conn, conn ∈ s.writes ∨ .onWrite conn ∈ s.queue → conn ∈ s.writers → conn = s.opened

/-- The tasks a step may post on its own account. -/
def LoopTask.postable (s : Link) : LoopTask → Prop
  | .onRead conn => conn ∈ s.reads
  | .onWrite conn => conn ∈ s.writes
  | .disconnectHandler conn => conn = s.opened
  | _ => True

/-- A step that opens nothing. -/
structure Link.Stays (s s' : Link) : Prop where
  opened : s'.opened = s.opened
  reads : ∀ conn ∈ s'.reads, conn ∈ s.reads ∨ conn = s.opened
  writes : ∀ conn ∈ s'.writes, conn ∈ s.writes ∨ conn = s.opened
  writers : ∀ conn ∈ s'.writers, conn ∈ s.writers
  queue : ∃ tasks, s'.queue = s.queue ++ tasks ∧ ∀ task ∈ tasks, task.postable s

theorem Current.stay {s s' : Link} (inv : Current s) (stays : s.Stays s') : Current s' := by
  obtain ⟨opened, reads, writes, writers, tasks, queue, postable⟩ := stays
  refine ⟨fun conn member => ?_, fun conn member => ?_, fun conn member active => ?_⟩
  · rw [opened]
    rcases reads conn member with old | new
    · exact inv.reads conn old
    · exact new
  · rw [opened]
    rw [queue, List.mem_append, List.mem_append] at member
    rcases member with (old | new) | (old | new)
    · exact inv.signals conn (.inl old)
    · exact inv.reads conn (postable _ new)
    · exact inv.signals conn (.inr old)
    · exact postable _ new
  · rw [opened]
    rw [queue, List.mem_append] at member
    rcases member with written | old | new
    · rcases writes conn written with old | new
      · exact inv.writes conn (.inl old) (writers conn active)
      · exact new
    · exact inv.writes conn (.inr old) (writers conn active)
    · exact inv.writes conn (.inl (postable _ new)) (writers conn active)

/-- The tasks registered before another opening name requests that were built by then. -/
def LoopTask.registersBefore (since : Nat) (task : LoopTask) : Prop :=
  ∀ pr params conn, task = .strand (.register pr params) conn → pr < since

/-- Before a left over task that closes there is no registration of a later request. -/
structure Ordered (s : Link) : Prop where
  strand : s.queue.filterMap LoopTask.strandTask = s.client.strand
  fenced : s.queue.Pairwise fun first later =>
    later.closesBefore s.opened = true → first.registersBefore s.since
  early : ∀ task ∈ s.queue, task.closesBefore s.opened = true →
    ∀ key pr, s.client.pendingMap.lookup key = some pr → pr < s.since
  placed : Placed s.client

theorem filterMap_strand (tasks : List Task) (conn : Nat) :
    (tasks.map fun task => LoopTask.strand task conn).filterMap LoopTask.strandTask = tasks := by
  induction tasks with
  | nil => rfl
  | cons task tasks ih => simpa [LoopTask.strandTask] using ih

theorem strand_closesBefore {tasks : List Task} {conn : Nat} {task : LoopTask}
    (member : task ∈ tasks.map fun task => LoopTask.strand task conn) :
    task.closesBefore conn = false := by
  obtain ⟨task, -, rfl⟩ := List.mem_map.mp member
  simp [LoopTask.closesBefore]

/-- Tasks that close nothing from before may follow. -/
theorem Ordered.follow {s s' : Link} (inv : Ordered s) {tasks : List LoopTask}
    (queue : s'.queue = s.queue ++ tasks) (opened : s'.opened = s.opened)
    (since : s'.since = s.since) (open' : ∀ task ∈ tasks, task.closesBefore s.opened = false)
    (strand : s.client.strand ++ tasks.filterMap LoopTask.strandTask = s'.client.strand)
    (keys : ∀ key pr, s'.client.pendingMap.lookup key = some pr →
      s.client.pendingMap.lookup key = some pr)
    (placed : Placed s'.client) : Ordered s' where
  strand := by rw [queue, List.filterMap_append, inv.strand, strand]
  fenced := by
    rw [queue, opened, since, List.pairwise_append]
    have none : ∀ first : LoopTask, ∀ later ∈ tasks, later.closesBefore s.opened = true →
        first.registersBefore s.since := by
      intro first later member closes
      rw [open' later member] at closes
      cases closes
    refine ⟨inv.fenced, ?_, fun first _ => none first⟩
    exact List.Pairwise.imp_of_mem (R := fun _ _ => True) (fun _ member _ => none _ _ member)
      (List.pairwise_of_forall fun _ _ => True.intro)
  early task member closes key pr found := by
    rw [opened] at closes
    rw [since]
    rw [queue, List.mem_append] at member
    rcases member with old | new
    · exact inv.early task old closes key pr (keys key pr found)
    · rw [open' task new] at closes
      cases closes
  placed := placed

theorem Ordered.same {s s' : Link} (inv : Ordered s) {tasks : List LoopTask}
    (queue : s'.queue = s.queue ++ tasks) (opened : s'.opened = s.opened)
    (since : s'.since = s.since) (client : s'.client = s.client)
    (off : ∀ task ∈ tasks, task.strandTask = none) : Ordered s' := by
  have none : tasks.filterMap LoopTask.strandTask = [] := List.filterMap_eq_nil_iff.mpr off
  refine inv.follow queue opened since (fun task member => ?_) ?_ ?_ ?_
  · have other := off task member
    cases task with
    | strand task conn => cases other
    | _ => rfl
  · rw [none, client, List.append_nil]
  · rw [client]
    exact fun _ _ found => found
  · rw [client]
    exact inv.placed

/-- A task that is not of the strand may be taken out. -/
theorem Ordered.take {s : Link} (inv : Ordered s) {place : Nat} {task : LoopTask}
    (found : s.queue[place]? = some task) (off : task.strandTask = none) :
    Ordered { s with queue := s.queue.eraseIdx place } where
  strand := by
    have bound := (List.getElem?_eq_some_iff.mp found).1
    have whole : s.queue = s.queue.take place ++ task :: s.queue.drop (place + 1) := by
      rw [← (List.getElem?_eq_some_iff.mp found).2, List.getElem_cons_drop, List.take_append_drop]
    have before := inv.strand
    rw [whole, List.filterMap_append, List.filterMap_cons_none off] at before
    rw [← before]
    simp only [List.eraseIdx_eq_take_drop_succ, List.filterMap_append]
  fenced := inv.fenced.sublist (List.eraseIdx_sublist _ _)
  early task member := inv.early task (List.mem_of_mem_eraseIdx member)
  placed := inv.placed

/-- The client steps, posting in the open connection. -/
theorem Ordered.act {s s' : Link} {event : ClientEvent} (inv : Ordered s)
    (other : event ≠ .runTask) (h : s.act env s.opened event = some s') : Ordered s' := by
  obtain ⟨c, stepped, rfl⟩ := Option.map_eq_some_iff.mp h
  obtain ⟨old, tasks, strand, -, which⟩ := step_strand env stepped
  obtain rfl : old = s.client.strand := which.resolve_right fun runs => other runs.1
  have posted : c.strand.drop s.client.strand.length = tasks := by rw [strand, List.drop_left]
  refine inv.follow rfl rfl rfl (fun task => strand_closesBefore) ?_ (fun key pr found => ?_)
    (step_placed env inv.placed stepped)
  · rw [filterMap_strand, posted, ← strand]
    rfl
  · exact (step_lookup env stepped found).resolve_right fun runs => other runs.1

/-- When a connection is opened, every request is one built before. -/
theorem Ordered.open {s s' : Link} (inv : Ordered s) (queue : s'.queue = s.queue)
    (client : s'.client = s.client) (since : s'.since = s.client.requests.length) : Ordered s' where
  strand := by rw [queue, client, inv.strand]
  fenced := by
    rw [queue, since]
    refine List.Pairwise.imp_of_mem (R := fun _ _ => True) (fun {first later} member _ _ _ => ?_)
      (List.pairwise_of_forall fun _ _ => True.intro)
    rintro pr params conn rfl
    apply inv.placed.queued pr params
    rw [← inv.strand]
    exact List.mem_filterMap.mpr ⟨_, member, rfl⟩
  early task _ _ key pr found := by
    rw [since]
    rw [client] at found
    exact inv.placed.keyed key pr found
  placed := by
    rw [client]
    exact inv.placed

theorem step_runTask {c c' : Client} (h : c.step env .runTask = some c') :
    ∃ task rest, c.strand = task :: rest ∧ c' = { c with strand := rest }.runTask env task := by
  cases step_cases h with
  | runTask task rest head => exact ⟨task, rest, head, rfl⟩

/-- The first task of the queue is the first of the strand. -/
theorem Ordered.head {s : Link} (inv : Ordered s) {task : Task} {conn : Nat}
    (found : s.queue[0]? = some (.strand task conn)) :
    ∃ rest, s.queue = .strand task conn :: rest ∧
      s.client.strand = task :: rest.filterMap LoopTask.strandTask := by
  cases queue : s.queue with
  | nil =>
    rw [queue] at found
    cases found
  | cons head rest =>
    rw [queue] at found
    cases found
    refine ⟨rest, rfl, ?_⟩
    rw [← inv.strand, queue]
    rfl

theorem Ordered.runs {s : Link} {c : Client} (inv : Ordered s) {task : Task} {conn : Nat}
    (found : s.queue[0]? = some (.strand task conn)) (stepped : s.client.step env .runTask = some c) :
    Ordered ({ s with queue := s.queue.eraseIdx 0 }.after s.client.strand.tail s.opened c) := by
  obtain ⟨rest, queue, head⟩ := inv.head found
  obtain ⟨task', rest', head', rfl⟩ := step_runTask env stepped
  rw [head] at head'
  cases head'
  obtain ⟨sends, strand, isSend⟩ := runTask_strand env
    { s.client with strand := rest.filterMap LoopTask.strandTask } task
  have tail : s.queue.eraseIdx 0 = rest := by rw [queue]; rfl
  have behind := inv.fenced
  rw [queue, List.pairwise_cons] at behind
  obtain ⟨first, fenced⟩ := behind
  have posted : (({ s.client with strand := rest.filterMap LoopTask.strandTask }.runTask env
      task).strand.drop s.client.strand.tail.length) = sends := by
    rw [strand, head, List.tail_cons, List.drop_left]
  have kept : ∀ later ∈ rest ++ sends.map fun task => LoopTask.strand task s.opened,
      later.closesBefore s.opened = true → later ∈ rest := by
    intro later member closes
    rcases List.mem_append.mp member with old | new
    · exact old
    · rw [strand_closesBefore new] at closes
      cases closes
  simp only [Link.after, posted, tail]
  refine ⟨?_, ?_, fun later member closes key pr keyed => ?_, step_placed env inv.placed stepped⟩
  · rw [List.filterMap_append, filterMap_strand, strand]
  · rw [List.pairwise_append]
    have open' : ∀ first : LoopTask, ∀ later ∈ sends.map fun task => LoopTask.strand task s.opened,
        later.closesBefore s.opened = true → first.registersBefore s.since := by
      intro first later member closes
      rw [strand_closesBefore member] at closes
      cases closes
    refine ⟨fenced, ?_, fun first _ => open' first⟩
    exact List.Pairwise.imp_of_mem (R := fun _ _ => True) (fun _ member _ => open' _ _ member)
      (List.pairwise_of_forall fun _ _ => True.intro)
  · have old := kept later member closes
    rcases step_lookup env stepped keyed with before | ⟨-, -, params, rest', registers⟩
    · refine inv.early later ?_ closes key pr before
      rw [queue]
      exact List.mem_cons_of_mem _ old
    · rw [head] at registers
      cases registers
      exact first later old closes pr params conn rfl

theorem Link.Stays.post {s s' : Link} (tasks : List LoopTask) (opened : s'.opened = s.opened)
    (reads : s'.reads = s.reads) (writes : s'.writes = s.writes)
    (writers : ∀ conn ∈ s'.writers, conn ∈ s.writers) (queue : s'.queue = s.queue ++ tasks)
    (postable : ∀ task ∈ tasks, task.postable s) : s.Stays s' :=
  ⟨opened, fun _ member => .inl (reads ▸ member), fun _ member => .inl (writes ▸ member),
    writers, tasks, queue, postable⟩

theorem after_stays (s : Link) (old : List Task) (conn : Nat) (c : Client) :
    s.Stays (s.after old conn c) := by
  refine .post _ rfl rfl rfl (fun _ member => member) rfl fun task member => ?_
  obtain ⟨task, -, rfl⟩ := List.mem_map.mp member
  exact True.intro

/-- Nothing old can end the open connection, and no late registration is in a closing's way. -/
structure Parted (s : Link) : Prop where
  current : Current s
  ordered : Ordered s

theorem Parted.act {s s' : Link} {event : ClientEvent} (inv : Parted s) (other : event ≠ .runTask)
    (h : s.act env s.opened event = some s') : Parted s' := by
  refine ⟨?_, inv.ordered.act env other h⟩
  obtain ⟨c, -, rfl⟩ := Option.map_eq_some_iff.mp h
  exact inv.current.stay (after_stays s _ _ c)

/-- A step of the transport or of the user thread that leaves the client alone. -/
theorem Parted.post {s s' : Link} (tasks : List LoopTask) (inv : Parted s)
    (client : s'.client = s.client) (since : s'.since = s.since) (stays : s.Stays s')
    (queue : s'.queue = s.queue ++ tasks) (off : ∀ task ∈ tasks, task.strandTask = none) : Parted s' :=
  ⟨inv.current.stay stays, inv.ordered.same queue stays.opened since client off⟩

theorem transportDisconnect_parted {s : Link} (inv : Parted s) (awaited : Bool) :
    Parted (s.transportDisconnect awaited) := by
  have fewer : ∀ conn ∈ s.writers.erase s.opened, conn ∈ s.writers :=
    fun conn member => List.mem_of_mem_erase member
  unfold Link.transportDisconnect
  cases s.handlers with
  | true =>
    exact inv.post _ rfl rfl (.post _ rfl rfl rfl fewer rfl (by simp [LoopTask.postable])) rfl
      (by simp [LoopTask.strandTask])
  | false =>
    exact inv.post [] rfl rfl
      (.post [] rfl rfl rfl fewer (List.append_nil _).symm (by simp)) (List.append_nil _).symm (by simp)

theorem signal_parted {s : Link} {conn : Nat} (inv : Parted s) (here : conn = s.opened) :
    Parted (s.signal conn) := by
  unfold Link.signal
  split
  · refine inv.post _ rfl rfl (.post _ rfl rfl rfl (fun _ member => member) rfl ?_) rfl ?_
    · simpa [LoopTask.postable] using here
    · simp [LoopTask.strandTask]
  · exact inv

/-- A step that only sets flags, ends writers or leaves the wait of the user thread. -/
theorem Parted.flags {s s' : Link} (inv : Parted s) (client : s'.client = s.client)
    (since : s'.since = s.since) (opened : s'.opened = s.opened) (reads : s'.reads = s.reads)
    (writes : s'.writes = s.writes) (writers : ∀ conn ∈ s'.writers, conn ∈ s.writers)
    (queue : s'.queue = s.queue) : Parted s' :=
  have same : s'.queue = s.queue ++ [] := by rw [queue, List.append_nil]
  inv.post [] client since (.post [] opened reads writes writers same (by simp)) same (by simp)

theorem onReadError_parted {s : Link} {conn : Nat} (inv : Parted s) (here : conn = s.opened) :
    Parted (s.onReadError conn) :=
  signal_parted (inv.flags rfl rfl rfl rfl rfl (fun _ member => member) rfl) here

theorem drop_parted {s : Link} {conn : Nat} (inv : Parted s) (here : conn = s.opened) :
    Parted (s.drop conn) :=
  signal_parted (inv.flags rfl rfl rfl rfl rfl (fun _ => List.mem_of_mem_erase) rfl) here

theorem Parted.take {s : Link} (inv : Parted s) {place : Nat} {task : LoopTask}
    (found : s.queue[place]? = some task) (off : task.strandTask = none) :
    Parted { s with queue := s.queue.eraseIdx place } where
  ordered := inv.ordered.take found off
  current := by
    have older : ∀ {task}, task ∈ s.queue.eraseIdx place → task ∈ s.queue :=
      fun member => List.mem_of_mem_eraseIdx member
    exact ⟨inv.current.reads, fun conn member => inv.current.signals conn (member.imp older older),
      fun conn member => inv.current.writes conn (member.imp_right older)⟩

theorem runTask_parted {s s' : Link} {place : Nat} (inv : Parted s)
    (h : s.runTask env place = some s') : Parted s' := by
  unfold Link.runTask at h
  cases found : s.queue[place]? with
  | none =>
    rw [found] at h
    cases h
  | some task =>
    have here : task ∈ s.queue := List.mem_of_getElem? found
    rw [found] at h
    cases task with
    | strand task conn =>
      simp only [Option.ite_none_right_eq_some, Option.map_eq_some_iff] at h
      obtain ⟨rfl, c, stepped, rfl⟩ := h
      refine ⟨?_, inv.ordered.runs env found stepped⟩
      have rest : Current { s with queue := s.queue.eraseIdx 0 } := by
        have older : ∀ {task}, task ∈ s.queue.eraseIdx 0 → task ∈ s.queue :=
          fun member => List.mem_of_mem_eraseIdx member
        exact ⟨inv.current.reads,
          fun _ member => inv.current.signals _ (member.imp older older),
          fun _ member => inv.current.writes _ (member.imp_right older)⟩
      exact rest.stay (after_stays _ _ _ c)
    | onRead conn =>
      simp only [Option.ite_none_right_eq_some, Link.runLoopTask, Option.some.injEq] at h
      obtain ⟨-, rfl⟩ := h
      exact onReadError_parted (inv.take found rfl) (inv.current.signals conn (.inl here))
    | onWrite conn =>
      simp only [Option.ite_none_right_eq_some, Link.runLoopTask, Option.some.injEq] at h
      obtain ⟨-, rfl⟩ := h
      have rest := inv.take found rfl
      split
      · rename_i active
        refine onReadError_parted ?_ (inv.current.writes conn (.inr here) active)
        exact rest.flags rfl rfl rfl rfl rfl (fun _ => List.mem_of_mem_erase) rfl
      · exact rest
    | disconnectHandler conn =>
      simp only [Option.ite_none_right_eq_some, Link.runLoopTask] at h
      obtain ⟨-, h⟩ := h
      have rest := inv.take found rfl
      split at h
      · rw [inv.current.signals conn (.inr here)] at h
        exact rest.act env (by simp) h
      · cases h
        exact rest
    | clearHandlers awaited =>
      simp only [Option.ite_none_right_eq_some, Link.runLoopTask, Option.some.injEq] at h
      obtain ⟨-, rfl⟩ := h
      exact (inv.take found rfl).flags rfl rfl rfl rfl rfl (fun _ member => member) rfl

theorem quiet_iff (s : Link) : s.quiet = true ↔ s.reads = [] ∧
    (∀ conn ∈ s.writes, conn ∉ s.writers) ∧ ∀ task ∈ s.queue, s.signals task = false := by
  simp [Link.quiet, List.isEmpty_iff, and_assoc]

/-- The opening of a connection with nothing left over that could end it. -/
theorem open_parted (kind : TransportKind) {s : Link} (inv : Parted s) (quiet : s.quiet = true) :
    Parted (s.open kind) where
  ordered := inv.ordered.open rfl rfl rfl
  current := by
    obtain ⟨reads, writes, silent⟩ := (quiet_iff s).mp quiet
    refine ⟨fun conn member => ?_, fun conn member => ?_, fun conn member active => ?_⟩
    · simp only [Link.open, reads] at member
      split at member
      · cases member
      · exact List.mem_singleton.mp member
    · rcases member with member | member
      · cases silent _ member
      · cases silent _ member
    · rcases List.mem_append.mp active with old | new
      · rcases member with written | queued
        · exact absurd old (writes conn written)
        · simpa [Link.signals, old] using silent _ queued
      · exact List.mem_singleton.mp new

theorem step_parted (kind : TransportKind) {s s' : Link} {event : LinkEvent} (inv : Parted s)
    (spares : event.spares s = true) (h : s.step env kind event = some s') : Parted s' := by
  have stages : ∀ {s : Link} (stage : Stage), Parted s → Parted { s with stage := stage } :=
    fun stage inv => inv.flags rfl rfl rfl rfl rfl (fun _ member => member) rfl
  cases link_cases h with
  | attaches blocks mid _ acted =>
    exact (inv.act env (by simp) acted).flags rfl rfl rfl rfl rfl (fun _ member => member) rfl
  | rejoins | begins | openFails | abandons =>
    exact inv.flags rfl rfl rfl rfl rfl (fun _ member => member) rfl
  | opens => exact stages _ (open_parted kind inv spares)
  | finishes | returns => exact stages _ inv
  | rollbacks mid _ acted | stops _ mid _ acted =>
    exact stages _ (transportDisconnect_parted (inv.act env (by simp) acted) false)
  | disconnects waits => exact stages _ (transportDisconnect_parted inv waits)
  | drains waits mid _ acted => exact stages _ (inv.act env (by simp) acted)
  | stopDrains mid _ acted | receives _ mid _ acted => exact inv.act env (by simp) acted
  | disconnectsInline mid acted =>
    exact (transportDisconnect_parted inv false).act env (by simp) acted
  | readFails place conn found =>
    have member : conn ∈ s.reads := List.mem_of_getElem? found
    refine inv.post [.onRead conn] rfl rfl ⟨rfl, fun conn member => ?_,
      fun _ member => .inl member, fun _ member => member, _, rfl, ?_⟩ rfl ?_
    · exact .inl (List.mem_of_mem_eraseIdx member)
    · simpa [LoopTask.postable] using member
    · simp [LoopTask.strandTask]
  | readDone place conn found =>
    refine inv.post [] rfl rfl ⟨rfl, fun conn member => ?_,
      fun _ member => .inl member, fun _ member => member, [], (List.append_nil _).symm,
      by simp⟩ (List.append_nil _).symm (by simp)
    rcases List.mem_append.mp member with old | new
    · exact .inl (List.mem_of_mem_eraseIdx old)
    · split at new
      · cases new
      · exact .inr (List.mem_singleton.mp new)
  | drops place conn _ found =>
    have here := inv.current.reads conn (List.mem_of_getElem? found)
    refine drop_parted (s := { s with reads := s.reads.eraseIdx place }) ?_ here
    exact inv.post [] rfl rfl ⟨rfl,
      fun conn member => .inl (List.mem_of_mem_eraseIdx member),
      fun _ member => .inl member, fun _ member => member, [], (List.append_nil _).symm,
      by simp⟩ (List.append_nil _).symm (by simp)
  | writes =>
    refine inv.post [] rfl rfl ⟨rfl, fun conn member => .inl member,
      fun conn member => ?_, fun conn member => member, [], (List.append_nil _).symm,
      by simp⟩ (List.append_nil _).symm (by simp)
    rcases List.mem_append.mp member with old | new
    · exact .inl old
    · exact .inr (List.mem_singleton.mp new)
  | writeFails place conn found =>
    have member : conn ∈ s.writes := List.mem_of_getElem? found
    refine inv.post [.onWrite conn] rfl rfl ⟨rfl, fun conn member => .inl member,
      fun conn member => .inl (List.mem_of_mem_eraseIdx member), fun conn member => member, _,
      rfl, ?_⟩ rfl ?_
    · simpa [LoopTask.postable] using member
    · simp [LoopTask.strandTask]
  | writeDone place conn found =>
    exact inv.post [] rfl rfl ⟨rfl, fun conn member => .inl member,
      fun conn member => .inl (List.mem_of_mem_eraseIdx member), fun conn member => member, [],
      (List.append_nil _).symm, by simp⟩ (List.append_nil _).symm (by simp)
  | ignores => exact inv
  | acts event mid isLocal acted =>
    refine inv.act env (fun runs => ?_) acted
    rw [runs] at isLocal
    cases isLocal
  | runs place mid _ ran => exact runTask_parted env inv ran

theorem run_parted (kind : TransportKind) {s : Link} {events : List LinkEvent}
    (spares : Meets (Link.step env kind) (fun s e => e.spares s = true) {} events)
    (h : run (Link.step env kind) {} events = some s) : Parted s := by
  refine run_invariant (fun _ _ _ inv spares h => step_parted env kind inv spares h) ?_ spares h
  refine ⟨⟨by simp, by simp, by simp⟩, rfl, .nil, by simp, by simp [Client.initial], ?_, ?_⟩
  · simp [Client.initial]
  · simp [Client.initial]

/-- While a connection is only opened when the end of the one before has been signalled, and
    a left over task of the strand does not find `connected_` set, what an earlier
    connection leaves behind changes neither flag and no request submitted since. -/
theorem stale_end_spares_connection (kind : TransportKind) (events : List LinkEvent) (s s' : Link)
    (place : Nat) (task : LoopTask)
    (spares : Meets (Link.step env kind) (fun s e => e.spares s = true) {} events)
    (h : run (Link.step env kind) {} events = some s) (found : s.queue[place]? = some task)
    (stale : task.isStale s.opened = true) (here : (LinkEvent.runs place).spares s = true)
    (ran : s.step env kind (.runs place) = some s') :
    s'.connected = s.connected ∧ s'.client.connected = s.client.connected ∧
      ∀ pr, s.since ≤ pr → s'.client.requests[pr]? = s.client.requests[pr]? := by
  have inv := run_parted env kind spares h
  have member : task ∈ s.queue := List.mem_of_getElem? found
  simp only [Link.step, Option.ite_none_right_eq_some] at ran
  obtain ⟨-, ran⟩ := ran
  simp only [Link.runTask, found] at ran
  cases task with
  | clearHandlers awaited => cases stale
  | onRead conn =>
    have current := inv.current.signals conn (.inl member)
    simp [LoopTask.isStale, current] at stale
  | disconnectHandler conn =>
    have current := inv.current.signals conn (.inr member)
    simp [LoopTask.isStale, current] at stale
  | onWrite conn =>
    have ended : conn ∉ s.writers := by
      intro active
      have current := inv.current.writes conn (.inr member) active
      simp [LoopTask.isStale, current] at stale
    simp only [Option.ite_none_right_eq_some, Link.runLoopTask, if_neg ended,
      Option.some.injEq] at ran
    obtain ⟨-, rfl⟩ := ran
    exact ⟨rfl, rfl, fun _ _ => rfl⟩
  | strand task conn =>
    simp only [Option.ite_none_right_eq_some, Option.map_eq_some_iff] at ran
    obtain ⟨rfl, c, stepped, rfl⟩ := ran
    have closes : task.closes = true := (Bool.and_eq_true_iff.mp stale).1
    obtain ⟨rest, queue, head⟩ := inv.ordered.head found
    have down : s.client.connected = false := by
      have left : (s.queue.take 1).any (LoopTask.closesBefore s.opened) = true := by
        rw [queue]
        simpa [LoopTask.closesBefore, LoopTask.isStale] using stale
      simpa [LinkEvent.spares, left] using here
    obtain ⟨task', rest', head', rfl⟩ := step_runTask env stepped
    rw [head] at head'
    cases head'
    obtain ⟨dropped, others⟩ := closing_spares env
      (c := { s.client with strand := rest.filterMap LoopTask.strandTask }) closes
    refine ⟨rfl, dropped.trans down.symm, fun pr later => others pr fun key pr' keyed => ?_⟩
    have earlier := inv.ordered.early _ member stale key pr' keyed
    omega

/-- The peer closes before the handshake, and the client connects once more while the task
    that tells it so is still on the strand. -/
def lateNews : List LinkEvent :=
  [.attaches false, .begins, .opens, .readFails 0, .runs 0, .runs 0, .attaches false, .begins,
    .opens, .acts (.tests 0 { method := "initialize" }), .acts (.builds 0), .acts (.posts 0)]

theorem late_news_spares_handshake :
    ∃ s s', run (Link.step {} .http) {} lateNews = some s ∧
      s.step {} .http (.runs 0) = some s' ∧ s.client.requests.length = 1 ∧
      s'.connected = s.connected ∧ s'.client.requests[0]? = s.client.requests[0]? := by
  have shape : (run (Link.step {} .http) {} lateNews).map (fun s => (s.queue[0]?, s.opened, s.since,
      s.client.requests.length, (LinkEvent.runs 0).spares s, (s.step {} .http (.runs 0)).isSome)) =
      some (some (.strand .transportDisconnect 1), 2, 0, 1, true, true) := by decide
  obtain ⟨s, h, seen⟩ := Option.map_eq_some_iff.mp shape
  simp only [Prod.mk.injEq] at seen
  obtain ⟨found, opened, since, length, here, runs⟩ := seen
  obtain ⟨s', ran⟩ := Option.isSome_iff_exists.mp runs
  have holds := stale_end_spares_connection {} .http lateNews s s' 0 _ (by decide) h found
    (by rw [opened]; rfl) here ran
  exact ⟨s, s', h, ran, length, holds.1, holds.2.2 0 (by omega)⟩

/-- `disconnect` returns while the call of the disconnect handler is still queued, and the
    next `connect` arms that handler again. -/
def hitRun : List LinkEvent :=
  [.attaches true, .begins, .opens, .acts (.tests 0 { method := "initialize" }), .acts (.builds 0),
    .acts (.posts 0), .runs 0, .receives handshakeReply, .runs 0, .finishes, .readFails 0,
    .disconnects true, .drains, .runs 0, .runs 0, .runs 0, .returns, .attaches true, .begins, .opens,
    .acts (.tests 0 { method := "initialize" }), .acts (.builds 0), .acts (.posts 0), .runs 0, .runs 0]

/-- The end of the first connection fails the handshake of the second. -/
theorem stale_end_fails_handshake :
    (run (Link.step {} .localPipe) {} hitRun).map (fun s => (s.opened, s.since, s.queue,
      (s.client.requests[1]?).map fun r => r.state)) =
      some (2, 1, [LoopTask.strand .transportDisconnect 1], some RequestState.waiting) ∧
    (run (Link.step {} .localPipe) {} (hitRun ++ [LinkEvent.runs 0])).map (fun s => (s.live, s.connected,
      (s.client.requests[1]?).map fun r => (r.method, r.state))) =
      some (true, true, some ("initialize", RequestState.failed)) := by
  refine ⟨by decide, by decide⟩

end CppMcp
