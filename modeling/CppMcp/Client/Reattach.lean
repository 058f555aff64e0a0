import CppMcp.Client.Correlation
import CppMcp.Client.Link

namespace CppMcp

open Lib

/-- Behind every clearing of the handlers that somebody waits for there is a drain. -/
def Covered : List LoopTask → Prop
  | [] => True
  | task :: rest => (task = .clearHandlers true → rest.any LoopTask.isDrain = true) ∧ Covered rest

theorem covered_append {front back : List LoopTask} (left : Covered front) (right : Covered back) :
    Covered (front ++ back) := by
  induction front with
  | nil => exact right
  | cons task front ih =>
    refine ⟨fun clears => ?_, ih left.2⟩
    change (front ++ back).any LoopTask.isDrain = true
    rw [List.any_append, left.1 clears, Bool.true_or]

theorem covered_of_notMem {tasks : List LoopTask} (absent : .clearHandlers true ∉ tasks) :
    Covered tasks := by
  induction tasks with
  | nil => exact True.intro
  | cons task tasks ih =>
    rw [List.mem_cons, not_or] at absent
    exact ⟨fun clears => absurd clears.symm absent.1, ih absent.2⟩

/-- A drain at the end covers the whole queue. -/
theorem covered_concat {task : LoopTask} (drain : task.isDrain = true) (tasks : List LoopTask) :
    Covered (tasks ++ [task]) := by
  induction tasks with
  | nil =>
    refine ⟨fun clears => ?_, True.intro⟩
    rw [clears] at drain
    cases drain
  | cons head tasks ih => exact ⟨fun _ => by simp [drain], ih⟩

theorem Covered.notMem {tasks : List LoopTask} (covered : Covered tasks)
    (none : tasks.any LoopTask.isDrain = false) : .clearHandlers true ∉ tasks := by
  induction tasks with
  | nil => exact List.not_mem_nil
  | cons task tasks ih =>
    rw [List.any_cons, Bool.or_eq_false_iff] at none
    rw [List.mem_cons, not_or]
    refine ⟨fun clears => ?_, ih covered.2 none.2⟩
    have found := covered.1 clears.symm
    rw [none.2] at found
    cases found

/-- Taking a task from the queue uncovers nothing when it is no drain, or the first. -/
theorem Covered.eraseIdx {tasks : List LoopTask} (covered : Covered tasks) {place : Nat}
    {task : LoopTask} (found : tasks[place]? = some task)
    (takes : task.isDrain = false ∨ place = 0) : Covered (tasks.eraseIdx place) := by
  induction tasks generalizing place with
  | nil => exact True.intro
  | cons head tasks ih =>
    cases place with
    | zero => exact covered.2
    | succ place =>
      have other : task.isDrain = false := takes.resolve_right (by omega)
      have found : tasks[place]? = some task := found
      refine ⟨fun clears => ?_, ih covered.2 found (.inl other)⟩
      obtain ⟨drain, member, drains⟩ := List.any_eq_true.mp (covered.1 clears)
      refine List.any_eq_true.mpr ⟨drain, ?_, drains⟩
      rw [List.mem_eraseIdx_iff_getElem?]
      obtain ⟨at', same⟩ := List.mem_iff_getElem?.mp member
      refine ⟨at', fun here => ?_, same⟩
      rw [here, found] at same
      cases same
      rw [other] at drains
      cases drains

/-- A step that posts tasks, none of which clears the handlers. -/
structure Link.Grows (s s' : Link) : Prop where
  stage : s'.stage = s.stage
  handlers : s'.handlers = s.handlers
  live : s'.live = s.live
  queue : ∃ tasks, s'.queue = s.queue ++ tasks ∧ ∀ awaited, .clearHandlers awaited ∉ tasks

theorem Link.Grows.of_eq {s s' : Link} (stage : s'.stage = s.stage)
    (handlers : s'.handlers = s.handlers) (live : s'.live = s.live) (queue : s'.queue = s.queue) :
    s.Grows s' :=
  ⟨stage, handlers, live, [], by simp [queue], by simp⟩

theorem Link.Grows.one {s s' : Link} {task : LoopTask} (stage : s'.stage = s.stage)
    (handlers : s'.handlers = s.handlers) (live : s'.live = s.live)
    (queue : s'.queue = s.queue ++ [task]) (other : ∀ awaited, task ≠ .clearHandlers awaited) :
    s.Grows s' :=
  ⟨stage, handlers, live, [task], queue, fun awaited member =>
    other awaited (List.mem_singleton.mp member).symm⟩

theorem after_grows (s : Link) (old : List Task) (conn : Nat) (c : Client) :
    s.Grows (s.after old conn c) := by
  refine ⟨rfl, rfl, rfl, _, rfl, fun awaited member => ?_⟩
  obtain ⟨task, -, clears⟩ := List.mem_map.mp member
  cases clears

theorem signal_grows (s : Link) (conn : Nat) : s.Grows (s.signal conn) := by
  unfold Link.signal
  split
  · exact .one rfl rfl rfl rfl (by simp)
  · exact .of_eq rfl rfl rfl rfl

theorem onReadError_grows (s : Link) (conn : Nat) : s.Grows (s.onReadError conn) := by
  obtain ⟨stage, handlers, live, queue⟩ := signal_grows { s with connected := false } conn
  exact ⟨stage, handlers, live, queue⟩

theorem drop_grows (s : Link) (conn : Nat) : s.Grows (s.drop conn) := by
  obtain ⟨stage, handlers, live, queue⟩ := signal_grows
    { s with connected := false, stopping := true, writers := s.writers.erase s.opened } conn
  exact ⟨stage, handlers, live, queue⟩

variable (env : ClientEnv)

theorem act_grows {s s' : Link} {conn : Nat} {event : ClientEvent}
    (h : s.act env conn event = some s') : s.Grows s' := by
  obtain ⟨c, -, rfl⟩ := Option.map_eq_some_iff.mp h
  exact after_grows s s.client.strand conn c

theorem disconnect_queue {s s' : Link} {conn : Nat} (h : s.act env conn .disconnect = some s') :
    s'.queue = s.queue ++ [.strand (.drain "client disconnected") conn] := by
  obtain ⟨c, stepped, rfl⟩ := Option.map_eq_some_iff.mp h
  simp only [Client.step, Option.some.injEq] at stepped
  subst stepped
  simp [Link.after, Client.post]

/-- What lets the handlers be cleared late: attaching them while a clearing that nobody
    waited for is queued, or a `disconnect` or `stop` on the io thread between the
    attaching and the opening. -/
def LinkEvent.keepsHandlers (s : Link) : LinkEvent → Bool
  | .attaches _ => decide (.clearHandlers false ∉ s.queue)
  | .disconnectsInline | .stops true => !s.stage.connecting
  | _ => true

structure Hearing (s : Link) : Prop where
  covered : s.stage ≠ .closing true → Covered s.queue
  waited : s.stage ≠ .closing true → s.stage ≠ .draining → .clearHandlers true ∉ s.queue
  hears : s.stage.connecting = true ∨ s.live = true →
    s.handlers = true ∧ ∀ awaited, .clearHandlers awaited ∉ s.queue

/-- The stage may change too when no waiting begins or ends with it. -/
theorem Hearing.grow {s s' : Link} (inv : Hearing s) (grows : s.Grows s') : Hearing s' := by
  obtain ⟨stage, handlers, live, tasks, queue, other⟩ := grows
  refine ⟨fun open' => ?_, fun open' closed => ?_, fun up => ?_⟩
  · rw [stage] at open'
    rw [queue]
    exact covered_append (inv.covered open') (covered_of_notMem (other true))
  · rw [stage] at open' closed
    rw [queue, List.mem_append, not_or]
    exact ⟨inv.waited open' closed, other true⟩
  · rw [stage, live] at up
    obtain ⟨attached, absent⟩ := inv.hears up
    refine ⟨handlers.trans attached, fun awaited => ?_⟩
    rw [queue, List.mem_append, not_or]
    exact ⟨absent awaited, other awaited⟩

/-- A step outside `disconnect` that leaves the queue and the handlers alone. -/
theorem Hearing.move {s s' : Link} (inv : Hearing s) (queue : s'.queue = s.queue)
    (handlers : s'.handlers = s.handlers)
    (settled : s.stage ≠ .closing true ∧ s.stage ≠ .draining)
    (up : s'.stage.connecting = true ∨ s'.live = true → s.stage.connecting = true ∨ s.live = true) :
    Hearing s' := by
  refine ⟨fun _ => ?_, fun _ _ => ?_, fun live => ?_⟩
  · rw [queue]
    exact inv.covered settled.1
  · rw [queue]
    exact inv.waited settled.1 settled.2
  · rw [queue, handlers]
    exact inv.hears (up live)

theorem transportDisconnect_hearing {s : Link} (inv : Hearing s) (off : s.stage.connecting = false) :
    Hearing (s.transportDisconnect false) := by
  have queue : ∃ tasks, (s.transportDisconnect false).queue = s.queue ++ tasks ∧
      .clearHandlers true ∉ tasks := by
    unfold Link.transportDisconnect
    cases s.handlers with
    | true => exact ⟨[.clearHandlers false], rfl, by simp⟩
    | false => exact ⟨[], by simp, by simp⟩
  obtain ⟨tasks, eq, absent⟩ := queue
  refine ⟨fun still => ?_, fun still closed => ?_, fun up => ?_⟩
  · rw [eq]
    exact covered_append (inv.covered still) (covered_of_notMem absent)
  · rw [eq, List.mem_append, not_or]
    exact ⟨inv.waited still closed, absent⟩
  · rcases up with connecting | live
    · rw [show (s.transportDisconnect false).stage = s.stage from rfl, off] at connecting
      cases connecting
    · cases live

/-- A task of the loop runs. Where the handlers must stay there is none that clears them. -/
theorem runTask_hearing {s s' : Link} {place : Nat} (inv : Hearing s)
    (h : s.runTask env place = some s') : Hearing s' := by
  unfold Link.runTask at h
  have rest : ∀ task, s.queue[place]? = some task → (task.isDrain = false ∨ place = 0) →
      Hearing { s with queue := s.queue.eraseIdx place } := by
    intro task found takes
    refine ⟨fun still => (inv.covered still).eraseIdx found takes, fun still closed member => ?_,
      fun up => ⟨(inv.hears up).1, fun awaited member => ?_⟩⟩
    · exact inv.waited still closed (List.mem_of_mem_eraseIdx member)
    · exact (inv.hears up).2 awaited (List.mem_of_mem_eraseIdx member)
  cases found : s.queue[place]? with
  | none =>
    rw [found] at h
    cases h
  | some task =>
    have here : task ∈ s.queue := List.mem_of_getElem? found
    rw [found] at h
    cases task with
    | strand task conn =>
      simp only [Option.ite_none_right_eq_some, Option.map_eq_some_iff] at h
      obtain ⟨first, c, -, rfl⟩ := h
      exact (rest _ found (.inr first)).grow (after_grows _ _ _ c)
    | onRead conn =>
      simp only [Option.ite_none_right_eq_some, Link.runLoopTask, Option.some.injEq] at h
      obtain ⟨-, rfl⟩ := h
      exact (rest _ found (.inl rfl)).grow (onReadError_grows _ conn)
    | onWrite conn =>
      simp only [Option.ite_none_right_eq_some, Link.runLoopTask, Option.some.injEq] at h
      obtain ⟨-, rfl⟩ := h
      apply (rest _ found (.inl rfl)).grow
      split
      · obtain ⟨stage, handlers, live, queue⟩ := onReadError_grows
          { s with queue := s.queue.eraseIdx place, writers := s.writers.erase conn } conn
        exact ⟨stage, handlers, live, queue⟩
      · exact .of_eq rfl rfl rfl rfl
    | disconnectHandler conn =>
      simp only [Option.ite_none_right_eq_some, Link.runLoopTask] at h
      obtain ⟨-, h⟩ := h
      split at h
      · exact (rest _ found (.inl rfl)).grow (act_grows env h)
      · cases h
        exact rest _ found (.inl rfl)
    | clearHandlers awaited =>
      simp only [Option.ite_none_right_eq_some, Link.runLoopTask, Option.some.injEq] at h
      obtain ⟨-, rfl⟩ := h
      have kept := rest _ found (.inl rfl)
      exact ⟨kept.covered, kept.waited, fun up => absurd here ((inv.hears up).2 awaited)⟩

theorem attaches_hearing {s mid : Link} (inv : Hearing s) (blocks : Bool)
    (keeps : .clearHandlers false ∉ s.queue) (stage : s.stage = .idle)
    (acted : s.act env s.opened .connect = some mid) :
    Hearing { mid with stage := .attached blocks, handlers := true } := by
  obtain ⟨-, -, live, tasks, queue, other⟩ := act_grows env acted
  have absent : ∀ awaited, .clearHandlers awaited ∉ s.queue := by
    intro awaited
    cases awaited with
    | false => exact keeps
    | true => exact inv.waited (by simp [stage]) (by simp [stage])
  have none : ∀ awaited, .clearHandlers awaited ∉ mid.queue := by
    intro awaited
    rw [queue, List.mem_append, not_or]
    exact ⟨absent awaited, other awaited⟩
  exact ⟨fun _ => covered_of_notMem (none true), fun _ _ => none true, fun _ => ⟨rfl, none⟩⟩

/-- The transport has been left to its end, and no new one is being opened. -/
theorem Hearing.rest {s : Link} (inv : Hearing s) {stage : Stage}
    (settled : s.stage ≠ .closing true ∧ s.stage ≠ .draining) (off : stage.connecting = false) :
    Hearing { s with stage := stage } := by
  refine inv.move rfl rfl settled ?_
  rintro (connecting | live)
  · exact absurd connecting (by simp [off])
  · exact .inr live

theorem disconnects_hearing {s : Link} (inv : Hearing s) (waits : Bool) (stage : s.stage = .idle) :
    Hearing { s.transportDisconnect waits with stage := .closing waits } := by
  cases waits with
  | true =>
    refine ⟨fun still => absurd rfl still, fun still => absurd rfl still, fun up => ?_⟩
    rcases up with connecting | live
    · cases connecting
    · cases live
  | false =>
    have off : s.stage.connecting = false := by rw [stage]; rfl
    exact (transportDisconnect_hearing inv off).rest (by simp [Link.transportDisconnect, stage]) rfl

/-- The drain of a `disconnect` is posted behind what the transport has posted. -/
theorem drains_hearing {s mid : Link} (inv : Hearing s) {waits : Bool}
    (stage : s.stage = .closing waits) (acted : s.act env s.opened .disconnect = some mid) :
    Hearing { mid with stage := if waits then .draining else .idle } := by
  have grows := act_grows env acted
  have mid' := inv.grow grows
  cases waits with
  | true =>
    have queue := disconnect_queue env acted
    refine ⟨fun _ => ?_, fun _ closed => absurd rfl closed, fun up => ?_⟩
    · change Covered mid.queue
      rw [queue]
      exact covered_concat rfl s.queue
    · rcases up with connecting | live
      · cases connecting
      · exact mid'.hears (.inr live)
  | false => exact mid'.rest (by simp [grows.stage, stage]) rfl

theorem step_hearing (kind : TransportKind) {s s' : Link} {event : LinkEvent} (inv : Hearing s)
    (keeps : event.keepsHandlers s = true) (h : s.step env kind event = some s') : Hearing s' := by
  cases link_cases h with
  | attaches blocks mid stage acted =>
    exact attaches_hearing env inv blocks (by simpa [LinkEvent.keepsHandlers] using keeps) stage
      acted
  | rejoins blocks stage | begins blocks stage =>
    have before : s.stage.connecting = true ∨ s.live = true := .inl (by rw [stage]; rfl)
    exact inv.move rfl rfl (by simp [stage]) fun _ => before
  | opens blocks stage | openFails blocks stage | abandons blocks stage =>
    exact inv.move rfl rfl (by simp [stage]) fun _ => .inl (by rw [stage]; rfl)
  | finishes stage => exact inv.rest (by simp [stage]) rfl
  | rollbacks mid stage acted =>
    have grows := act_grows env acted
    have off : mid.stage.connecting = false := by rw [grows.stage, stage]; rfl
    exact (transportDisconnect_hearing (inv.grow grows) off).rest
      (by simp [Link.transportDisconnect, grows.stage, stage]) rfl
  | disconnects waits stage => exact disconnects_hearing inv waits stage
  | drains waits mid stage acted => exact drains_hearing env inv stage acted
  | returns stage drained =>
    have covered := inv.covered (by simp [stage])
    refine ⟨fun _ => covered, fun _ _ => covered.notMem drained, fun up => inv.hears (.inr ?_)⟩
    rcases up with connecting | live
    · cases connecting
    · exact live
  | stops inline mid allowed acted =>
    have grows := act_grows env acted
    cases inline with
    | true =>
      have off : s.stage.connecting = false := by simpa [LinkEvent.keepsHandlers] using keeps
      exact transportDisconnect_hearing (inv.grow grows) (by rw [grows.stage, off])
    | false =>
      have stage : s.stage = .idle := allowed.resolve_left (by simp)
      have off : mid.stage.connecting = false := by rw [grows.stage, stage]; rfl
      exact (transportDisconnect_hearing (inv.grow grows) off).rest
        (by simp [Link.transportDisconnect, grows.stage, stage]) rfl
  | disconnectsInline mid acted =>
    have off : s.stage.connecting = false := by simpa [LinkEvent.keepsHandlers] using keeps
    exact (transportDisconnect_hearing inv off).grow (act_grows env acted)
  | stopDrains mid _ acted | receives _ mid _ acted | acts _ mid _ acted =>
    exact inv.grow (act_grows env acted)
  | readFails | writeFails => exact inv.grow (.one rfl rfl rfl rfl (by simp))
  | readDone | writes | writeDone => exact inv.grow (.of_eq rfl rfl rfl rfl)
  | drops place conn =>
    obtain ⟨stage, handlers, live, queue⟩ :=
      drop_grows { s with reads := s.reads.eraseIdx place } conn
    exact inv.grow ⟨stage, handlers, live, queue⟩
  | ignores => exact inv
  | runs place mid _ ran => exact runTask_hearing env inv ran

/-- While handlers are only attached with no clearing queued that nobody waited for, and
    no `disconnect` on the io thread comes between the attaching and the opening, an open
    connection keeps its handlers. -/
theorem live_transport_hears (kind : TransportKind) (events : List LinkEvent) (s : Link)
    (keeps : Meets (Link.step env kind) (fun s e => e.keepsHandlers s = true) {} events)
    (h : run (Link.step env kind) {} events = some s) (live : s.live = true) :
    s.handlers = true ∧ ∀ awaited, .clearHandlers awaited ∉ s.queue := by
  have start : Hearing {} := ⟨fun _ => True.intro, fun _ _ => List.not_mem_nil, by
    rintro (connecting | live)
    · cases connecting
    · cases live⟩
  exact (run_invariant (fun _ _ _ inv keeps h => step_hearing env kind inv keeps h) start keeps h).hears
    (.inr live)

/-- `connect` up to the answer to its `initialize` request. -/
def connecting (reply : Json) : List LinkEvent :=
  [.attaches true, .begins, .opens, .acts (.tests 0 { method := "initialize" }), .acts (.builds 0),
    .acts (.posts 0), .runs 0, .receives reply, .runs 0]

/-- Connected, disconnected with the old read aborted, and connected again. -/
def reconnecting : List LinkEvent :=
  connecting handshakeReply ++
    [LinkEvent.finishes, .readFails 0, .disconnects true, .drains, .runs 0, .runs 0, .runs 0,
      .returns, .runs 0] ++
    connecting handshakeReply

theorem reconnected_hears :
    ∃ s, run (Link.step {} .localPipe) {} reconnecting = some s ∧ s.live = true ∧
      s.handlers = true ∧ ∀ awaited, .clearHandlers awaited ∉ s.queue := by
  have shape : (run (Link.step {} .localPipe) {} reconnecting).map (fun s => s.live) = some true := by
    decide
  obtain ⟨s, h, live⟩ := Option.map_eq_some_iff.mp shape
  exact ⟨s, h, live, live_transport_hears {} .localPipe reconnecting s (by decide) h live⟩

def refusal : Json := makeErrorResponse (.int 1) Protocol.invalidRequest "no"

/-- `connect` fails, and the next one attaches its handlers before the clearing that the
    rollback has posted runs. -/
def deafRun : List LinkEvent :=
  connecting refusal ++
    [LinkEvent.readFails 0, .rollbacks, .runs 0, .attaches true, .begins, .opens, .runs 0]

/-- The new connection is open and nobody hears the answer to its handshake. -/
theorem reconnected_deaf :
    (run (Link.step {} .localPipe) {} (deafRun ++
        [LinkEvent.runs 0, .acts (.tests 0 { method := "initialize" }), .acts (.builds 0),
          .acts (.posts 0), .runs 0, .receives (makeSuccessResponse (.int 2) (.object []))])).map
      (fun s => (s.live, s.connected, s.handlers, s.queue, (s.client.requests[1]?).map (·.state))) =
      some (true, true, false, [], some RequestState.waiting) := by
  decide

end CppMcp
