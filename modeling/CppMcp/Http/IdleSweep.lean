import CppMcp.Http.Routing
import CppMcp.Http.SessionCap

namespace CppMcp

open Lib Function

/-- How far a thread is in `handle_post`: before its session, in `create_session` behind the
    clock, or with the session that it has not touched yet. -/
inductive PostPhase where
  | idle
  | stamped (time : Nat)
  | holds (session : Nat)
deriving DecidableEq

/-- How far a thread is in `sweep_sessions`: past the look at `running_`, with the time, or
    behind its critical section. -/
inductive SweepPhase where
  | idle
  | passed
  | looking (now : Nat)
  | closing
deriving DecidableEq

/-- The sessions with the `last_activity` of each, and the timer of the sweep. The clock counts
    nanoseconds. `deadline` is that of the wait of the timer, and `due` counts the waits that are
    over and whose handlers have not run. `uses` is a history: all values of each `last_activity`.
    `overtaken` says that a `stop` has stopped the timer of a later `start`. -/
structure IdleTable where
  table : StreamTable := .initial
  clock : Nat := 0
  posts : Nat → PostPhase := fun _ => .idle
  lastActivity : Nat → Nat := fun _ => 0
  uses : List (Nat × Nat) := []
  running : Bool := false
  starting : Bool := false
  stopping : Nat := 0
  deadline : Option Nat := none
  due : Nat := 0
  sweepers : Nat → SweepPhase := fun _ => .idle
  overtaken : Bool := false

/-- `starts` and `arms` are the two ends of `start`, `halts` and `cancels` those of the first part
    of `stop`; `expires` is a step of the timer. `wakes`, `reads`, `sweeps` and `rearms` are
    `sweep_sessions`. `stamps` and `creates` are `create_session`; `leaves` is a POST that is
    refused, finds the table full, or brings a batch, which touches no session. -/
inductive IdleEvent where
  | passes (time : Nat)
  | starts
  | arms
  | halts
  | cancels
  | expires
  | wakes (thread : Nat)
  | reads (thread : Nat)
  | sweeps (thread : Nat)
  | rearms (thread : Nat)
  | stamps (thread : Nat)
  | creates (thread : Nat) (id : SessionId)
  | looksUp (thread : Nat) (id : SessionId)
  | touches (thread : Nat)
  | leaves (thread : Nat)
  | other (event : StreamEvent)
deriving DecidableEq

namespace StreamTable

/-- Only `create_session` makes a session. -/
theorem step_objectCount {l l' : StreamTable} {event : StreamEvent} (h : l.step event = some l')
    (other : ∀ id, event ≠ .creates id) : l'.objectCount = l.objectCount := by
  rcases step_drift h with ⟨id, rfl⟩ | ⟨conn, id, accepts, rfl⟩ | ⟨conn, rfl⟩ | ⟨conn, rfl⟩ |
    ⟨drift, -⟩
  · exact absurd rfl (other id)
  · simp only [step] at h
    split at h
    all_goals cases h
    all_goals rfl
  · simp only [step] at h
    split at h
    all_goals cases h
    all_goals rfl
  · simp only [step] at h
    split at h
    all_goals cases h
    all_goals rfl
  · exact drift.objectCount

/-- How a session gets lost. -/
theorem step_lost {l l' : StreamTable} {event : StreamEvent} (h : l.step event = some l')
    {id : SessionId} {o : Nat} (before : l.sessions.lookup id = some o)
    (after : l'.sessions.lookup id ≠ some o) :
    event = .creates id ∨ event = .rollsBack id ∨ (∃ thread, event = .deletes thread id) ∨
      (∃ thread, event = .stops thread) ∨ ∃ thread ids, event = .sweeps thread ids ∧ id ∈ ids := by
  have kept {sessions : Prop} (same : l'.sessions = l.sessions) : sessions :=
    absurd ((congrArg (AList.lookup id) same).trans before) after
  have dropped {thread : Nat} {ids : List SessionId}
      (h : l.onThread thread (l.drop thread ids) = some l') : id ∈ ids := by
    obtain ⟨-, rfl⟩ := onThread_some h
    rw [drop_sessions] at after
    by_contra outside
    rw [if_neg outside] at after
    exact after before
  cases event with
  | creates other =>
    left
    cases h
    by_contra apart
    have ne : id ≠ other := fun same => apart (congrArg StreamEvent.creates same.symm)
    exact after ((AList.lookup_insert_ne ne).trans before)
  | rollsBack other =>
    right
    left
    cases h
    by_contra apart
    have ne : id ≠ other := fun same => apart (congrArg StreamEvent.rollsBack same.symm)
    exact after ((AList.lookup_erase_ne ne).trans before)
  | deletes thread other =>
    right
    right
    left
    have member := dropped h
    split at member
    · cases member
    · exact ⟨thread, congrArg (StreamEvent.deletes thread) (List.mem_singleton.mp member).symm⟩
  | stops thread => exact .inr (.inr (.inr (.inl ⟨thread, rfl⟩)))
  | sweeps thread ids => exact .inr (.inr (.inr (.inr ⟨thread, ids, rfl, dropped h⟩)))
  | errors thread conn =>
    obtain ⟨-, rfl⟩ := onThread_some h
    exact kept rfl
  | advances thread => exact kept (advance_sessions h)
  | finds | refuses | installs | attaches =>
    simp only [step] at h
    split at h
    all_goals cases h
    all_goals exact kept rfl

end StreamTable

namespace IdleTable

def millisecond : Nat := 1000000

/-- The `duration_cast` in `sweep_sessions`. -/
def idleFor (g : IdleTable) (now o : Nat) : Int :=
  Int.tdiv ((now : Int) - g.lastActivity o) millisecond

def idleSessions (timeout : Int) (g : IdleTable) (now : Nat) : List SessionId :=
  g.table.sessions.keys.filter fun id =>
    (g.table.sessions.lookup id).any fun o => timeout < g.idleFor now o

/-- What `arm_session_sweep` makes of the timeout. -/
def period (timeout : Int) : Nat := (max timeout 1000).toNat * millisecond

/-- `arm_session_sweep`. A wait that is still on ends with an error, and its handler returns. -/
def arm (timeout : Int) (g : IdleTable) : IdleTable :=
  if timeout ≤ 0 then g else { g with deadline := some (g.clock + period timeout) }

/-- The critical section of `create_session`, for a session that was made at that time. -/
def create (g : IdleTable) (id : SessionId) (time : Nat) : IdleTable :=
  { g with
    table := g.table.create id
    lastActivity := update g.lastActivity g.table.objectCount time
    uses := g.uses ++ [(g.table.objectCount, time)] }

def touch (g : IdleTable) (o : Nat) : IdleTable :=
  { g with lastActivity := update g.lastActivity o g.clock, uses := g.uses ++ [(o, g.clock)] }

def setPost (g : IdleTable) (thread : Nat) (phase : PostPhase) : IdleTable :=
  { g with posts := update g.posts thread phase }

def setSweeper (g : IdleTable) (thread : Nat) (phase : SweepPhase) : IdleTable :=
  { g with sweepers := update g.sweepers thread phase }

def step (timeout : Int) (g : IdleTable) : IdleEvent → Option IdleTable
  | .passes time => some { g with clock := g.clock + time }
  | .starts => if g.starting then none else some { g with running := true, starting := true }
  | .arms => if g.starting then some ({ g with starting := false }.arm timeout) else none
  | .halts => some { g with running := false, stopping := g.stopping + 1 }
  | .cancels =>
    if 0 < g.stopping then
      some { g with
        stopping := g.stopping - 1
        deadline := none
        overtaken := g.overtaken || g.running }
    else none
  | .expires =>
    match g.deadline with
    | some time =>
      if time ≤ g.clock then some { g with deadline := none, due := g.due + 1 } else none
    | none => none
  | .wakes thread =>
    if 0 < g.due ∧ g.sweepers thread = .idle then
      let g := { g with due := g.due - 1 }
      some (if g.running then g.setSweeper thread .passed else g)
    else none
  | .reads thread =>
    match g.sweepers thread with
    | .passed => some (g.setSweeper thread (.looking g.clock))
    | _ => none
  | .sweeps thread =>
    match g.sweepers thread with
    | .looking now =>
      (g.table.step (.sweeps thread (g.idleSessions timeout now))).map fun table =>
        { g with table }.setSweeper thread .closing
    | _ => none
  | .rearms thread =>
    if g.sweepers thread = .closing ∧ g.table.closers thread = {} then
      some ((g.setSweeper thread .idle).arm timeout)
    else none
  | .stamps thread =>
    match g.posts thread with
    | .idle => some (g.setPost thread (.stamped g.clock))
    | _ => none
  | .creates thread id =>
    match g.posts thread with
    | .stamped time =>
      some ((g.create id time).setPost thread (.holds g.table.objectCount))
    | _ => none
  | .looksUp thread id =>
    match g.posts thread, g.table.findSession id with
    | .idle, some o => some (g.setPost thread (.holds o))
    | .idle, none => some g
    | _, _ => none
  | .touches thread =>
    match g.posts thread with
    | .holds o => some ((g.touch o).setPost thread .idle)
    | _ => none
  | .leaves thread => some (g.setPost thread .idle)
  | .other (.attaches conn) =>
    match (g.table.connections conn).getSse with
    | .installed st =>
      (g.table.step (.attaches conn)).map fun table => { g with table }.touch st.session
    | _ => none
  -- these are steps of the threads above
  | .other (.creates _) | .other (.sweeps _ _) => none
  | .other event => (g.table.step event).map fun table => { g with table }

variable {timeout : Int} {g g' : IdleTable}

/-- The times in the phases are past, and a `last_activity` is the last of its uses. -/
structure Timely (g : IdleTable) : Prop where
  sound : ∃ r : RoutedTable, r.Sound ∧ r.table = g.table
  stamped : ∀ thread time, g.posts thread = .stamped time → time ≤ g.clock
  held : ∀ thread o, g.posts thread = .holds o → o < g.table.objectCount
  looking : ∀ thread now, g.sweepers thread = .looking now → now ≤ g.clock
  current : ∀ o < g.table.objectCount, (o, g.lastActivity o) ∈ g.uses ∧ g.lastActivity o ≤ g.clock
  latest : ∀ o time, (o, time) ∈ g.uses → o < g.table.objectCount ∧ time ≤ g.lastActivity o

/-- The timer of the sweep is on, has fired, or is about to be set. -/
def Ahead (g : IdleTable) : Prop :=
  g.starting = true ∨ g.deadline.isSome ∨ 0 < g.due ∨ ∃ thread, g.sweepers thread ≠ .idle

structure Periodic (timeout : Int) (g : IdleTable) : Prop where
  bounded : ∀ time, g.deadline = some time → time ≤ g.clock + period timeout
  disabled : timeout ≤ 0 → g.deadline = none ∧ g.due = 0 ∧ ∀ thread, g.sweepers thread = .idle
  ahead : 0 < timeout → g.running = true → g.overtaken = false → g.Ahead

theorem post_cases (g : IdleTable) (thread other : Nat) (phase : PostPhase) :
    (g.setPost thread phase).posts other = phase ∨
      (g.setPost thread phase).posts other = g.posts other := by
  by_cases own : other = thread
  · subst own
    exact .inl (update_self _ _ _)
  · exact .inr (update_of_ne own _ _)

theorem sweeper_cases (g : IdleTable) (thread other : Nat) (phase : SweepPhase) :
    (other = thread ∧ (g.setSweeper thread phase).sweepers other = phase) ∨
      (other ≠ thread ∧ (g.setSweeper thread phase).sweepers other = g.sweepers other) := by
  by_cases own : other = thread
  · subst own
    exact .inl ⟨rfl, update_self _ _ _⟩
  · exact .inr ⟨own, update_of_ne own _ _⟩

/-- A step that uses no session. -/
theorem Timely.moves (inv : Timely g) (sound : ∃ r : RoutedTable, r.Sound ∧ r.table = g'.table)
    (count : g'.table.objectCount = g.table.objectCount) (clock : g.clock ≤ g'.clock)
    (activity : g'.lastActivity = g.lastActivity) (uses : g'.uses = g.uses)
    (stamped : ∀ thread time, g'.posts thread = .stamped time →
      g.posts thread = .stamped time ∨ time ≤ g'.clock)
    (held : ∀ thread o, g'.posts thread = .holds o →
      g.posts thread = .holds o ∨ o < g.table.objectCount)
    (looking : ∀ thread now, g'.sweepers thread = .looking now →
      g.sweepers thread = .looking now ∨ now ≤ g'.clock) : Timely g' where
  sound := sound
  stamped thread time phase :=
    (stamped thread time phase).elim (fun before => (inv.stamped thread time before).trans clock) id
  held thread o phase := by
    rw [count]
    exact (held thread o phase).elim (inv.held thread o) id
  looking thread now phase :=
    (looking thread now phase).elim (fun before => (inv.looking thread now before).trans clock) id
  current o below := by
    rw [count] at below
    rw [activity, uses]
    obtain ⟨used, past⟩ := inv.current o below
    exact ⟨used, past.trans clock⟩
  latest o time used := by
    rw [uses] at used
    rw [count, activity]
    exact inv.latest o time used

/-- A thread goes on with its POST, or a sweep goes on. -/
theorem Timely.setPost (inv : Timely g) (thread : Nat) {phase : PostPhase}
    (stamped : ∀ time, phase = .stamped time → time ≤ g.clock)
    (held : ∀ o, phase = .holds o → o < g.table.objectCount) : (g.setPost thread phase).Timely := by
  refine inv.moves inv.sound rfl le_rfl rfl rfl (fun other time now => ?_) (fun other o now => ?_)
    fun _ _ before => .inl before
  · rcases post_cases g thread other phase with own | same
    · exact .inr (stamped time (own.symm.trans now))
    · exact .inl (same.symm.trans now)
  · rcases post_cases g thread other phase with own | same
    · exact .inr (held o (own.symm.trans now))
    · exact .inl (same.symm.trans now)

theorem Timely.setSweeper (inv : Timely g) (thread : Nat) {phase : SweepPhase}
    (looking : ∀ now, phase = .looking now → now ≤ g.clock) :
    (g.setSweeper thread phase).Timely := by
  refine inv.moves inv.sound rfl le_rfl rfl rfl (fun _ _ before => .inl before)
    (fun _ _ before => .inl before) fun other now at_phase => ?_
  rcases sweeper_cases g thread other phase with ⟨-, own⟩ | ⟨-, same⟩
  · exact .inr (looking now (own.symm.trans at_phase))
  · exact .inl (same.symm.trans at_phase)

theorem Timely.touch (inv : Timely g) {o : Nat} (below : o < g.table.objectCount) :
    (g.touch o).Timely := by
  have touched : (g.touch o).lastActivity o = g.clock := update_self _ _ _
  have others {other : Nat} (apart : other ≠ o) :
      (g.touch o).lastActivity other = g.lastActivity other := update_of_ne apart _ _
  refine ⟨inv.sound, inv.stamped, inv.held, inv.looking, fun other inside => ?_,
    fun other time used => ?_⟩
  · by_cases own : other = o
    · rw [own, touched]
      exact ⟨List.mem_append_right _ List.mem_cons_self, le_rfl⟩
    · rw [others own]
      obtain ⟨used, past⟩ := inv.current other inside
      exact ⟨List.mem_append_left _ used, past⟩
  · rcases List.mem_append.mp used with before | now
    · obtain ⟨inside, past⟩ := inv.latest other time before
      refine ⟨inside, ?_⟩
      by_cases own : other = o
      · rw [own, touched]
        exact past.trans (inv.current other inside).2
      · rw [others own]
        exact past
    · obtain ⟨rfl, rfl⟩ := Prod.mk.inj (List.mem_singleton.mp now)
      exact ⟨below, touched.ge⟩

theorem Timely.create (inv : Timely g) {time : Nat} (past : time ≤ g.clock) (id : SessionId) :
    (g.create id time).Timely := by
  have new : (g.create id time).lastActivity g.table.objectCount = time := update_self _ _ _
  have old {o : Nat} (below : o < g.table.objectCount) :
      (g.create id time).lastActivity o = g.lastActivity o := update_of_ne below.ne _ _
  obtain ⟨r, sound, same⟩ := inv.sound
  have created := RoutedTable.creates_sound sound id
  rw [same] at created
  refine ⟨⟨_, created, rfl⟩, inv.stamped,
    fun thread o phase => (inv.held thread o phase).trans (Nat.lt_succ_self _), inv.looking,
    fun o below => ?_, fun o used member => ?_⟩
  · rcases Nat.lt_succ_iff_lt_or_eq.mp below with before | rfl
    · rw [old before]
      obtain ⟨used, past⟩ := inv.current o before
      exact ⟨List.mem_append_left _ used, past⟩
    · rw [new]
      exact ⟨List.mem_append_right _ List.mem_cons_self, past⟩
  · rcases List.mem_append.mp member with before | now
    · obtain ⟨inside, latest⟩ := inv.latest o used before
      refine ⟨inside.trans (Nat.lt_succ_self _), ?_⟩
      rw [old inside]
      exact latest
    · obtain ⟨rfl, rfl⟩ := Prod.mk.inj (List.mem_singleton.mp now)
      exact ⟨Nat.lt_succ_self _, new.ge⟩

theorem arm_timely (inv : Timely g) : (g.arm timeout).Timely := by
  unfold arm
  split
  · exact inv
  · exact inv.moves inv.sound rfl le_rfl rfl rfl (fun _ _ before => .inl before)
      (fun _ _ before => .inl before) fun _ _ before => .inl before

/-- A step of the table that is no use of a session. -/
theorem Timely.handles (inv : Timely g) {event : StreamEvent} {table : StreamTable}
    (stepped : g.table.step event = some table) (other : ∀ id, event ≠ .creates id) :
    Timely { g with table } := by
  obtain ⟨r, sound, same⟩ := inv.sound
  rw [← same] at stepped
  have recorded : (r.record table event).table = table := by cases event <;> rfl
  refine inv.moves ⟨_, RoutedTable.handles_sound sound stepped, recorded⟩ ?_ le_rfl rfl rfl
    (fun _ _ before => .inl before) (fun _ _ before => .inl before) fun _ _ before => .inl before
  rw [← same]
  exact StreamTable.step_objectCount stepped other

theorem Timely.attaches (inv : Timely g) {conn : Nat} {st : SseStream} {table : StreamTable}
    (installed : (g.table.connections conn).getSse = .installed st)
    (stepped : g.table.step (.attaches conn) = some table) :
    ({ g with table }.touch st.session).Timely := by
  refine (inv.handles stepped nofun).touch ?_
  obtain ⟨r, sound, same⟩ := inv.sound
  rw [← same] at installed stepped
  show st.session < table.objectCount
  rw [StreamTable.step_objectCount stepped nofun]
  exact (sound.installed conn st installed).2.1

theorem step_timely (inv : Timely g) {event : IdleEvent} (h : g.step timeout event = some g') :
    g'.Timely := by
  have quiet (next : IdleTable) (table : next.table = g.table) (posts : next.posts = g.posts)
      (sweepers : next.sweepers = g.sweepers) (activity : next.lastActivity = g.lastActivity)
      (uses : next.uses = g.uses) (clock : g.clock ≤ next.clock) : next.Timely := by
    refine inv.moves ?_ ?_ clock activity uses ?_ ?_ ?_
    · rw [table]
      exact inv.sound
    · rw [table]
    · exact fun _ _ before => .inl (posts ▸ before)
    · exact fun _ _ before => .inl (posts ▸ before)
    · exact fun _ _ before => .inl (sweepers ▸ before)
  cases event with
  | passes time =>
    cases h
    exact quiet _ rfl rfl rfl rfl rfl (Nat.le_add_right _ _)
  | starts =>
    simp only [step, Option.ite_none_left_eq_some, Option.some.injEq] at h
    rw [← h.2]
    exact quiet _ rfl rfl rfl rfl rfl le_rfl
  | arms =>
    simp only [step, Option.ite_none_right_eq_some, Option.some.injEq] at h
    rw [← h.2]
    exact arm_timely (quiet _ rfl rfl rfl rfl rfl le_rfl)
  | halts =>
    cases h
    exact quiet _ rfl rfl rfl rfl rfl le_rfl
  | cancels =>
    simp only [step, Option.ite_none_right_eq_some, Option.some.injEq] at h
    rw [← h.2]
    exact quiet _ rfl rfl rfl rfl rfl le_rfl
  | expires =>
    simp only [step] at h
    split at h
    · rw [Option.ite_none_right_eq_some, Option.some.injEq] at h
      rw [← h.2]
      exact quiet _ rfl rfl rfl rfl rfl le_rfl
    · cases h
  | wakes thread =>
    simp only [step, Option.ite_none_right_eq_some, Option.some.injEq] at h
    have taken : Timely { g with due := g.due - 1 } := quiet _ rfl rfl rfl rfl rfl le_rfl
    rw [← h.2]
    split
    · exact taken.setSweeper thread nofun
    · exact taken
  | reads thread =>
    simp only [step] at h
    split at h
    · cases h
      exact inv.setSweeper thread fun now reads => (SweepPhase.looking.inj reads).ge
    · cases h
  | sweeps thread =>
    simp only [step] at h
    split at h
    · obtain ⟨table, stepped, rfl⟩ := Option.map_eq_some_iff.mp h
      exact (inv.handles stepped nofun).setSweeper thread nofun
    · cases h
  | rearms thread =>
    simp only [step, Option.ite_none_right_eq_some, Option.some.injEq] at h
    rw [← h.2]
    exact arm_timely (inv.setSweeper thread nofun)
  | stamps thread =>
    simp only [step] at h
    split at h
    · cases h
      exact inv.setPost thread (fun _ stamps => (PostPhase.stamped.inj stamps).ge) nofun
    · cases h
  | creates thread id =>
    simp only [step] at h
    split at h
    · rename_i time stamped
      cases h
      refine (inv.create (inv.stamped thread time stamped) id).setPost thread nofun fun o holds => ?_
      rw [← PostPhase.holds.inj holds]
      exact Nat.lt_succ_self _
    · cases h
  | looksUp thread id =>
    simp only [step] at h
    split at h
    · rename_i o _ found
      cases h
      refine inv.setPost thread nofun fun o holds => ?_
      obtain ⟨r, sound, same⟩ := inv.sound
      rw [← PostPhase.holds.inj holds, ← same]
      exact (sound.named id _ (RoutedTable.findSession_some (same ▸ found))).2
    · cases h
      exact inv
    · cases h
  | touches thread =>
    simp only [step] at h
    split at h
    · rename_i o holds
      cases h
      exact (inv.touch (inv.held thread o holds)).setPost thread nofun nofun
    · cases h
  | leaves thread =>
    cases h
    exact inv.setPost thread nofun nofun
  | other event =>
    cases event with
    | creates id | sweeps thread ids => cases h
    | attaches conn =>
      simp only [step] at h
      split at h
      · rename_i st installed
        obtain ⟨table, stepped, rfl⟩ := Option.map_eq_some_iff.mp h
        exact inv.attaches installed stepped
      · cases h
    | _ =>
      simp only [step] at h
      obtain ⟨table, stepped, rfl⟩ := Option.map_eq_some_iff.mp h
      exact inv.handles stepped nofun

/-- The timer is set, or the sweep is off. -/
theorem arm_periodic (bounded : ∀ time, g.deadline = some time → time ≤ g.clock + period timeout)
    (disabled : timeout ≤ 0 → g.deadline = none ∧ g.due = 0 ∧ ∀ thread, g.sweepers thread = .idle) :
    (g.arm timeout).Periodic timeout := by
  unfold arm
  split
  · rename_i off
    exact ⟨bounded, disabled, fun enabled => absurd off (Int.not_le.mpr enabled)⟩
  · rename_i enabled
    exact ⟨fun time armed => (Option.some.inj armed).ge, fun off => absurd off enabled,
      fun _ _ _ => .inr (.inl rfl)⟩

/-- A sweep goes on. -/
theorem Periodic.sweeping (inv : g.Periodic timeout) {thread : Nat} {phase : SweepPhase}
    (busy : g.sweepers thread ≠ .idle) (still : phase ≠ .idle) :
    (g.setSweeper thread phase).Periodic timeout := by
  refine ⟨inv.bounded, fun off => absurd ((inv.disabled off).2.2 thread) busy, fun _ _ _ => ?_⟩
  refine .inr (.inr (.inr ⟨thread, ?_⟩))
  have own : (g.setSweeper thread phase).sweepers thread = phase := update_self _ _ _
  rw [own]
  exact still

theorem wakes_periodic (inv : g.Periodic timeout) {thread : Nat} (due : 0 < g.due) :
    Periodic timeout (if g.running then { g with due := g.due - 1 }.setSweeper thread .passed
      else { g with due := g.due - 1 }) := by
  have enabled : ¬ timeout ≤ 0 := fun off => due.ne' (inv.disabled off).2.1
  split
  · refine ⟨inv.bounded, fun off => absurd off enabled, fun _ _ _ => .inr (.inr (.inr ⟨thread, ?_⟩))⟩
    have own : ({ g with due := g.due - 1 }.setSweeper thread .passed).sweepers thread = .passed :=
      update_self _ _ _
    rw [own]
    nofun
  · rename_i halted
    exact ⟨inv.bounded, fun off => absurd off enabled, fun _ runs => absurd runs halted⟩

theorem rearms_periodic (inv : g.Periodic timeout) (thread : Nat) :
    ((g.setSweeper thread .idle).arm timeout).Periodic timeout := by
  refine arm_periodic inv.bounded fun off => ?_
  obtain ⟨unset, none, idle⟩ := inv.disabled off
  refine ⟨unset, none, fun other => ?_⟩
  rcases sweeper_cases g thread other .idle with ⟨-, own⟩ | ⟨-, same⟩
  · exact own
  · exact same.trans (idle other)

theorem step_periodic (inv : g.Periodic timeout) {event : IdleEvent}
    (h : g.step timeout event = some g') : g'.Periodic timeout := by
  cases event with
  | passes time =>
    cases h
    refine ⟨fun deadline set => ?_, inv.disabled, inv.ahead⟩
    have before := inv.bounded deadline set
    show deadline ≤ g.clock + time + period timeout
    omega
  | starts =>
    simp only [step, Option.ite_none_left_eq_some, Option.some.injEq] at h
    rw [← h.2]
    exact ⟨inv.bounded, inv.disabled, fun _ _ _ => .inl rfl⟩
  | arms =>
    simp only [step, Option.ite_none_right_eq_some, Option.some.injEq] at h
    rw [← h.2]
    exact arm_periodic inv.bounded inv.disabled
  | halts =>
    cases h
    exact ⟨inv.bounded, inv.disabled, nofun⟩
  | cancels =>
    simp only [step, Option.ite_none_right_eq_some, Option.some.injEq] at h
    rw [← h.2]
    refine ⟨nofun, fun off => ⟨rfl, (inv.disabled off).2⟩, fun _ runs timely => ?_⟩
    exact nomatch runs.symm.trans (Bool.or_eq_false_iff.mp timely).2
  | expires =>
    simp only [step] at h
    split at h
    · rename_i time set
      rw [Option.ite_none_right_eq_some, Option.some.injEq] at h
      rw [← h.2]
      have armed : g.deadline ≠ none := Option.ne_none_iff_exists'.mpr ⟨time, set⟩
      exact ⟨nofun, fun off => absurd (inv.disabled off).1 armed,
        fun _ _ _ => .inr (.inr (.inl (Nat.succ_pos _)))⟩
    · cases h
  | wakes thread =>
    simp only [step, Option.ite_none_right_eq_some, Option.some.injEq] at h
    rw [← h.2]
    exact wakes_periodic inv h.1.1
  | reads thread =>
    simp only [step] at h
    split at h
    · rename_i passed
      cases h
      exact inv.sweeping (passed ▸ nofun) nofun
    · cases h
  | sweeps thread =>
    simp only [step] at h
    split at h
    · rename_i now looking
      obtain ⟨table, -, rfl⟩ := Option.map_eq_some_iff.mp h
      have same : Periodic timeout { g with table } := ⟨inv.bounded, inv.disabled, inv.ahead⟩
      exact same.sweeping (looking ▸ nofun) nofun
    · cases h
  | rearms thread =>
    simp only [step, Option.ite_none_right_eq_some, Option.some.injEq] at h
    rw [← h.2]
    exact rearms_periodic inv thread
  | stamps | creates | touches =>
    simp only [step] at h
    split at h
    · cases h
      exact ⟨inv.bounded, inv.disabled, inv.ahead⟩
    · cases h
  | looksUp thread id =>
    simp only [step] at h
    split at h
    · cases h
      exact ⟨inv.bounded, inv.disabled, inv.ahead⟩
    · cases h
      exact inv
    · cases h
  | leaves thread =>
    cases h
    exact ⟨inv.bounded, inv.disabled, inv.ahead⟩
  | other event =>
    cases event with
    | creates id | sweeps thread ids => cases h
    | attaches conn =>
      simp only [step] at h
      split at h
      · obtain ⟨table, -, rfl⟩ := Option.map_eq_some_iff.mp h
        exact ⟨inv.bounded, inv.disabled, inv.ahead⟩
      · cases h
    | _ =>
      simp only [step] at h
      obtain ⟨table, -, rfl⟩ := Option.map_eq_some_iff.mp h
      exact ⟨inv.bounded, inv.disabled, inv.ahead⟩

theorem initial_timely : Timely {} where
  sound := ⟨{}, RoutedTable.initial_sound, rfl⟩
  stamped := nofun
  held := nofun
  looking := nofun
  current := nofun
  latest := nofun

theorem initial_periodic (timeout : Int) : Periodic timeout {} :=
  ⟨nofun, fun _ => ⟨rfl, rfl, fun _ => rfl⟩, fun _ => nofun⟩

/-- The rounding of the `duration_cast`: idle for longer is idle for a millisecond more. -/
theorem idleFor_iff (enabled : 0 < timeout) (g : IdleTable) (now o : Nat) :
    timeout < g.idleFor now o ↔ g.lastActivity o + (timeout + 1) * millisecond ≤ now := by
  unfold idleFor millisecond
  by_cases past : g.lastActivity o ≤ now
  · rw [Int.tdiv_eq_ediv_of_nonneg (by omega)]
    omega
  · have ahead := @Int.tdiv_nonneg ((g.lastActivity o : Int) - now) (1000000 : Nat) (by omega)
      (by omega)
    rw [← Int.neg_sub, Int.neg_tdiv]
    omega

theorem mem_idleSessions {now : Nat} {id : SessionId} : id ∈ g.idleSessions timeout now ↔
    ∃ o, g.table.sessions.lookup id = some o ∧ timeout < g.idleFor now o := by
  unfold idleSessions
  rw [List.mem_filter, Option.any_eq_true]
  simp only [decide_eq_true_eq, and_iff_right_iff_imp]
  rintro ⟨o, present, -⟩
  exact AList.lookup_isSome.mp (Option.isSome_of_eq_some present)

theorem run_timely {events : List IdleEvent} (ran : run (step timeout) {} events = some g) :
    g.Timely ∧ g.Periodic timeout :=
  @run_keeps _ _ (step timeout) (fun g => g.Timely ∧ g.Periodic timeout)
    (fun _ _ _ inv h => ⟨step_timely inv.1 h, step_periodic inv.2 h⟩) _ _ _
    ⟨initial_timely, initial_periodic timeout⟩ ran

end IdleTable

/-- The session under the id ends otherwise than by a sweep. -/
def IdleEvent.Ends (id : SessionId) : IdleEvent → Prop
  | .creates _ key => key = id
  | .other (.rollsBack key) => key = id
  | .other (.deletes _ key) => key = id
  | .other (.stops _) => True
  | _ => False

namespace IdleTable

variable {timeout : Int} {g g' : IdleTable}

theorem arm_table (timeout : Int) (g : IdleTable) : (g.arm timeout).table = g.table := by
  unfold arm
  split <;> rfl

/-- What a step does to the sessions and their streams: nothing, what the sweep decides on, a new
    session, or a step of other threads. -/
inductive Drives (timeout : Int) (g g' : IdleTable) (event : IdleEvent) : Prop
  | rests (table : g'.table = g.table)
  | sweeps (thread now : Nat) (at_event : event = .sweeps thread)
      (looking : g.sweepers thread = .looking now)
      (stepped : g.table.step (.sweeps thread (g.idleSessions timeout now)) = some g'.table)
  | creates (thread : Nat) (id : SessionId) (at_event : event = .creates thread id)
      (stepped : g.table.step (.creates id) = some g'.table)
  | other (streamEvent : StreamEvent) (at_event : event = .other streamEvent)
      (unswept : ∀ thread ids, streamEvent ≠ .sweeps thread ids)
      (uncreated : ∀ id, streamEvent ≠ .creates id)
      (stepped : g.table.step streamEvent = some g'.table)

theorem step_drives {event : IdleEvent} (h : g.step timeout event = some g') :
    Drives timeout g g' event := by
  cases event with
  | passes | halts | leaves =>
    cases h
    exact .rests rfl
  | starts =>
    simp only [step, Option.ite_none_left_eq_some, Option.some.injEq] at h
    exact .rests (h.2 ▸ rfl)
  | arms =>
    simp only [step, Option.ite_none_right_eq_some, Option.some.injEq] at h
    exact .rests (h.2 ▸ arm_table timeout _)
  | cancels =>
    simp only [step, Option.ite_none_right_eq_some, Option.some.injEq] at h
    exact .rests (h.2 ▸ rfl)
  | expires =>
    simp only [step] at h
    split at h
    · rw [Option.ite_none_right_eq_some, Option.some.injEq] at h
      exact .rests (h.2 ▸ rfl)
    · cases h
  | wakes thread =>
    simp only [step, Option.ite_none_right_eq_some, Option.some.injEq] at h
    rw [← h.2]
    split <;> exact .rests rfl
  | reads | stamps | touches =>
    simp only [step] at h
    split at h
    · cases h
      exact .rests rfl
    · cases h
  | looksUp thread id =>
    simp only [step] at h
    split at h
    all_goals cases h
    all_goals exact .rests rfl
  | rearms thread =>
    simp only [step, Option.ite_none_right_eq_some, Option.some.injEq] at h
    exact .rests (h.2 ▸ arm_table timeout _)
  | sweeps thread =>
    simp only [step] at h
    split at h
    · rename_i now looking
      obtain ⟨table, stepped, rfl⟩ := Option.map_eq_some_iff.mp h
      exact .sweeps thread now rfl looking stepped
    · cases h
  | creates thread id =>
    simp only [step] at h
    split at h
    · cases h
      exact .creates thread id rfl rfl
    · cases h
  | other event =>
    cases event with
    | creates id | sweeps thread ids => cases h
    | attaches conn =>
      simp only [step] at h
      split at h
      · obtain ⟨table, stepped, rfl⟩ := Option.map_eq_some_iff.mp h
        exact .other (.attaches conn) rfl nofun nofun stepped
      · cases h
    | _ =>
      simp only [step] at h
      obtain ⟨table, stepped, rfl⟩ := Option.map_eq_some_iff.mp h
      exact .other _ rfl nofun nofun stepped

/-- The sessions and their streams go through a run of the table. -/
theorem table_runs {events : List IdleEvent} (ran : run (step timeout) {} events = some g) :
    ∃ steps, run StreamTable.step .initial steps = some g.table := by
  refine run_projects IdleTable.table (fun g event g' h => ?_) ran
  cases step_drives h with
  | rests table => exact .inl table
  | sweeps thread now at_event looking stepped => exact .inr ⟨_, stepped⟩
  | creates thread id at_event stepped => exact .inr ⟨_, stepped⟩
  | other streamEvent at_event unswept uncreated stepped => exact .inr ⟨_, stepped⟩

/-- A session gets lost by an end of its own, or because a sweep has found it idle. -/
theorem step_loses {event : IdleEvent} (h : g.step timeout event = some g') {id : SessionId}
    {o : Nat} (before : g.table.sessions.lookup id = some o)
    (after : g'.table.sessions.lookup id ≠ some o) :
    event.Ends id ∨ ∃ thread now, event = .sweeps thread ∧ g.sweepers thread = .looking now ∧
      id ∈ g.idleSessions timeout now := by
  cases step_drives h with
  | rests table =>
    rw [table] at after
    exact absurd before after
  | sweeps thread now at_event looking stepped =>
    refine .inr ⟨thread, now, at_event, looking, ?_⟩
    rcases StreamTable.step_lost stepped before after with
      swept | swept | ⟨_, swept⟩ | ⟨_, swept⟩ | ⟨_, _, swept, member⟩
    all_goals cases swept
    exact member
  | creates thread key at_event stepped =>
    left
    rw [at_event]
    rcases StreamTable.step_lost stepped before after with
      created | created | ⟨_, created⟩ | ⟨_, created⟩ | ⟨_, _, created, -⟩
    all_goals cases created
    rfl
  | other streamEvent at_event unswept uncreated stepped =>
    left
    rw [at_event]
    rcases StreamTable.step_lost stepped before after with
      rfl | rfl | ⟨thread, rfl⟩ | ⟨thread, rfl⟩ | ⟨thread, ids, rfl, -⟩
    · exact absurd rfl (uncreated id)
    · rfl
    · rfl
    · exact True.intro
    · exact absurd rfl (unswept thread ids)

/-- The sessions that a sweep leaves are not idle. -/
theorem sweep_spares {thread now : Nat} (h : g.step timeout (.sweeps thread) = some g')
    (looking : g.sweepers thread = .looking now) {id : SessionId} {o : Nat}
    (after : g'.table.sessions.lookup id = some o) :
    g.table.sessions.lookup id = some o ∧ g.idleFor now o ≤ timeout := by
  simp only [step, looking] at h
  obtain ⟨table, stepped, rfl⟩ := Option.map_eq_some_iff.mp h
  obtain ⟨-, rfl⟩ := StreamTable.onThread_some stepped
  have kept : (g.table.drop thread (g.idleSessions timeout now)).sessions.lookup id = some o := after
  rw [StreamTable.drop_sessions] at kept
  split at kept
  · cases kept
  · rename_i spared
    exact ⟨kept, Int.not_lt.mp fun idle => spared (mem_idleSessions.mpr ⟨o, kept, idle⟩)⟩

theorem Timely.registered (inv : g.Timely) {id : SessionId} {o : Nat}
    (present : g.table.sessions.lookup id = some o) : o < g.table.objectCount := by
  obtain ⟨r, sound, same⟩ := inv.sound
  rw [← same] at present ⊢
  exact (sound.named id o present).2

/-- In all interleavings of the sweep with requests, `start` and `stop`: a session gets lost by an
    end of its own, or in a sweep that has read the clock more than the timeout after every use
    of it; a sweep leaves only sessions that were used within the timeout; and while the transport
    runs, the next sweep is at most a period ahead, unless `stop` and `start` were called at
    once. -/
theorem idle_sessions_swept {events : List IdleEvent} {event : IdleEvent}
    (ran : run (step timeout) {} events = some g) (stepped : g.step timeout event = some g') :
    (∀ id o, g.table.sessions.lookup id = some o → g'.table.sessions.lookup id ≠ some o →
      event.Ends id ∨ ∃ thread now, event = .sweeps thread ∧ g.sweepers thread = .looking now ∧
        ∀ time, (o, time) ∈ g.uses → time + (timeout + 1) * millisecond ≤ now) ∧
    (∀ thread now, event = .sweeps thread → g.sweepers thread = .looking now →
      0 < timeout ∧ now ≤ g.clock ∧ ∀ id o, g'.table.sessions.lookup id = some o →
        g.table.sessions.lookup id = some o ∧
        ∃ time, (o, time) ∈ g.uses ∧ now < time + (timeout + 1) * millisecond) ∧
    (0 < timeout → g'.running = true → g'.overtaken = false → g'.Ahead ∧
      ∀ time, g'.deadline = some time → time ≤ g'.clock + period timeout) := by
  obtain ⟨timely, periodic⟩ := run_timely ran
  have enabled {thread now : Nat} (looking : g.sweepers thread = .looking now) : 0 < timeout := by
    by_contra off
    exact nomatch looking.symm.trans ((periodic.disabled (Int.not_lt.mp off)).2.2 thread)
  refine ⟨fun id o before after => ?_, fun thread now at_event looking => ?_,
    fun enabled runs timed => ?_⟩
  · refine (step_loses stepped before after).imp_right ?_
    rintro ⟨thread, now, at_event, looking, idle⟩
    refine ⟨thread, now, at_event, looking, fun time used => ?_⟩
    obtain ⟨same, present, long⟩ := mem_idleSessions.mp idle
    obtain rfl : same = o := Option.some.inj (present.symm.trans before)
    have last := (idleFor_iff (enabled looking) g now same).mp long
    have latest := (timely.latest same time used).2
    omega
  · rw [at_event] at stepped
    refine ⟨enabled looking, timely.looking thread now looking, fun id o after => ?_⟩
    obtain ⟨before, short⟩ := sweep_spares stepped looking after
    refine ⟨before, g.lastActivity o, (timely.current o (timely.registered before)).1, ?_⟩
    have recent := mt (idleFor_iff (enabled looking) g now o).mpr (Int.not_lt.mpr short)
    omega
  · have next := step_periodic periodic stepped
    exact ⟨next.ahead enabled runs timed, next.bounded⟩

/-- The sweep runs twice. A POST touches the second session after the first sweep has read the
    clock, and before the sweep has the lock. -/
def sweptTwice : List IdleEvent :=
  [.starts, .arms, .stamps 0, .creates 0 (ascii "a"), .touches 0, .stamps 0,
    .creates 0 (ascii "b"), .touches 0, .passes 2001000000, .expires, .wakes 1, .reads 1,
    .passes 5, .looksUp 0 (ascii "b"), .touches 0, .sweeps 1, .rearms 1, .passes 2000999999,
    .expires, .wakes 1, .reads 1]

theorem idle_sessions_swept_twice : ∃ g g' : IdleTable,
    run (step 2000) {} sweptTwice = some g ∧ g.step 2000 (.sweeps 1) = some g' ∧
    g'.table.sessions.keys = [ascii "b"] ∧
    (∀ id o, g'.table.sessions.lookup id = some o → g.table.sessions.lookup id = some o ∧
      ∃ time, (o, time) ∈ g.uses ∧
        ((4002000004 : Nat) : Int) < time + (2000 + 1) * millisecond) ∧
    g'.Ahead := by
  have outcome : (run (step 2000) {} sweptTwice).bind (fun g =>
      (g.step 2000 (.sweeps 1)).map fun g' =>
        (g'.table.sessions.keys, g.sweepers 1, g'.running, g'.overtaken)) =
      some ([ascii "b"], .looking 4002000004, true, false) := by decide +kernel
  obtain ⟨g, ran, stepped⟩ := Option.bind_eq_some_iff.mp outcome
  obtain ⟨g', stepped, state⟩ := Option.map_eq_some_iff.mp stepped
  simp only [Prod.mk.injEq] at state
  obtain ⟨keys, looking, runs, timed⟩ := state
  obtain ⟨-, leaves, ahead⟩ := idle_sessions_swept ran stepped
  exact ⟨g, g', ran, stepped, keys, (leaves 1 4002000004 rfl looking).2.2,
    (ahead (by decide) runs timed).1⟩

end IdleTable

end CppMcp
