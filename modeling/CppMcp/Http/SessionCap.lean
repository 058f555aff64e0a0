import CppMcp.Http.StreamSteps

namespace CppMcp

open Lib Function

/-- How far a thread is with `create_session`: called, past the check under the shared lock,
    with a generated id, or returned, with `nullptr` or the session. -/
inductive CreatePhase where
  | idle
  | called
  | passed
  | generated (id : SessionId)
  | returned (session : Option SessionId)
deriving DecidableEq

/-- The sessions between two critical sections, and the threads that create some. -/
structure CappedTable where
  table : StreamTable := .initial
  creators : Nat → CreatePhase := fun _ => .idle

/-- What a thread does next. From `create_session` a thread goes on with its `initialize`, and
    commits the session or rolls it back. Of the other critical sections those of
    `handle_delete`, `sweep_sessions` and `stop` drop sessions. -/
inductive CappedEvent where
  | calls (thread : Nat)
  | checks (thread : Nat)
  | generates (thread : Nat) (id : SessionId)
  | inserts (thread : Nat)
  | goesOn (thread : Nat)
  | rollsBack (thread : Nat)
  | other (event : StreamEvent)
deriving DecidableEq

namespace StreamTable

theorem advance_sessions {l l' : StreamTable} {thread : Nat} (stepped : l.advance thread = some l') :
    l'.sessions = l.sessions := by
  unfold advance at stepped
  repeat' split at stepped
  all_goals cases stepped
  all_goals rfl

/-- Only `create_session` adds a session. -/
theorem step_shrinks {l l' : StreamTable} {event : StreamEvent} (stepped : l.step event = some l')
    (other : ∀ id, event ≠ .creates id) : l'.sessions.keys.length ≤ l.sessions.keys.length := by
  have dropped (thread : Nat) (ids : List SessionId) {next : StreamTable}
      (stepped : l.onThread thread (l.drop thread ids) = some next) :
      next.sessions.keys.length ≤ l.sessions.keys.length := by
    obtain ⟨-, rfl⟩ := onThread_some stepped
    exact length_keys_foldl_erase ids l.sessions
  cases event with
  | creates id => exact absurd rfl (other id)
  | rollsBack id =>
    cases stepped
    exact length_keys_erase l.sessions id
  | finds conn id accepts | refuses conn | installs conn | attaches conn =>
    simp only [step] at stepped
    split at stepped
    all_goals cases stepped
    all_goals exact le_rfl
  | errors thread conn =>
    obtain ⟨-, rfl⟩ := onThread_some stepped
    exact le_rfl
  | deletes thread id => exact dropped thread _ stepped
  | sweeps thread ids => exact dropped thread _ stepped
  | stops thread => exact dropped thread _ stepped
  | advances thread => exact (congrArg (fun sessions => sessions.keys.length)
      (advance_sessions stepped)).le

end StreamTable

namespace CappedTable

def size (g : CappedTable) : Nat := g.table.sessions.keys.length

/-- The test of both checks. -/
def Full (maxSessions : Nat) (g : CappedTable) : Prop := 0 < maxSessions ∧ maxSessions ≤ g.size

instance (maxSessions : Nat) (g : CappedTable) : Decidable (g.Full maxSessions) :=
  inferInstanceAs (Decidable (_ ∧ _))

def setCreator (g : CappedTable) (thread : Nat) (phase : CreatePhase) : CappedTable :=
  { g with creators := update g.creators thread phase }

def step (maxSessions : Nat) (g : CappedTable) : CappedEvent → Option CappedTable
  | .calls thread =>
    match g.creators thread with
    | .idle => some (g.setCreator thread .called)
    | _ => none
  | .checks thread =>
    match g.creators thread with
    | .called =>
      some (g.setCreator thread (if g.Full maxSessions then .returned none else .passed))
    | _ => none
  | .generates thread id =>
    match g.creators thread with
    | .passed => some (g.setCreator thread (.generated id))
    | _ => none
  | .inserts thread =>
    match g.creators thread with
    | .generated id =>
      if g.Full maxSessions then some (g.setCreator thread (.returned none))
      else some ({ g with table := g.table.create id }.setCreator thread (.returned (some id)))
    | _ => none
  | .goesOn thread =>
    match g.creators thread with
    | .returned _ => some (g.setCreator thread .idle)
    | _ => none
  | .rollsBack thread =>
    match g.creators thread with
    | .returned (some id) =>
      (g.table.step (.rollsBack id)).map fun table => { g with table }.setCreator thread .idle
    | _ => none
  -- these are steps of the threads above
  | .other (.creates _) | .other (.rollsBack _) => none
  | .other event => (g.table.step event).map fun table => { g with table }

variable {maxSessions : Nat}

theorem setCreator_self (g : CappedTable) (thread : Nat) (phase : CreatePhase) :
    (g.setCreator thread phase).creators thread = phase := update_self _ _ _

theorem setCreator_ne (g : CappedTable) {thread other : Nat} (ne : other ≠ thread)
    (phase : CreatePhase) : (g.setCreator thread phase).creators other = g.creators other :=
  update_of_ne ne _ _

/-- The table stays, or takes a step that creates no session. -/
def Moves (l l' : StreamTable) : Prop :=
  l' = l ∨ ∃ event, (∀ id, event ≠ .creates id) ∧ l.step event = some l'

/-- What a step can do: a check finds the table full, a session is created in one that is not,
    or the table moves and no creator returns `nullptr`. -/
inductive Stepped (maxSessions : Nat) (g g' : CappedTable) (event : CappedEvent) : Prop
  | refuses (thread : Nat) (check : event = .checks thread ∨ event = .inserts thread)
      (full : g.Full maxSessions) (next : g' = g.setCreator thread (.returned none))
  | creates (thread : Nat) (id : SessionId) (room : ¬ g.Full maxSessions)
      (next : g' = { g with table := g.table.create id }.setCreator thread (.returned (some id)))
  | other (moves : Moves g.table g'.table)
      (refused : ∀ thread, g'.creators thread = .returned none → g.creators thread = .returned none)

theorem Stepped.ofPhase {g : CappedTable} {event : CappedEvent} (thread : Nat) {phase : CreatePhase}
    (returns : phase ≠ .returned none) :
    Stepped maxSessions g (g.setCreator thread phase) event := by
  refine .other (.inl rfl) fun other refused => ?_
  by_cases own : other = thread
  · rw [own, setCreator_self] at refused
    exact absurd refused returns
  · rwa [setCreator_ne g own] at refused

theorem Stepped.ofTable {g g' : CappedTable} {event : CappedEvent} {streamEvent : StreamEvent}
    (other : ∀ id, streamEvent ≠ .creates id)
    (stepped : (g.table.step streamEvent).map (fun table => { g with table }) = some g') :
    Stepped maxSessions g g' event := by
  obtain ⟨table, moved, rfl⟩ := Option.map_eq_some_iff.mp stepped
  exact .other (.inr ⟨streamEvent, other, moved⟩) fun _ refused => refused

theorem step_cases {g g' : CappedTable} {event : CappedEvent}
    (stepped : g.step maxSessions event = some g') : Stepped maxSessions g g' event := by
  cases event with
  | calls thread =>
    simp only [step] at stepped
    split at stepped
    · cases stepped
      exact .ofPhase thread (by simp)
    · cases stepped
  | checks thread =>
    simp only [step] at stepped
    split at stepped
    · cases stepped
      by_cases full : g.Full maxSessions
      · rw [if_pos full]
        exact .refuses thread (.inl rfl) full rfl
      · rw [if_neg full]
        exact .ofPhase thread (by simp)
    · cases stepped
  | generates thread id =>
    simp only [step] at stepped
    split at stepped
    · cases stepped
      exact .ofPhase thread (by simp)
    · cases stepped
  | inserts thread =>
    simp only [step] at stepped
    split at stepped
    · rename_i id phase
      split at stepped
      · rename_i full
        cases stepped
        exact .refuses thread (.inr rfl) full rfl
      · rename_i room
        cases stepped
        exact .creates thread id room rfl
    · cases stepped
  | goesOn thread =>
    simp only [step] at stepped
    split at stepped
    · cases stepped
      exact .ofPhase thread (by simp)
    · cases stepped
  | rollsBack thread =>
    simp only [step] at stepped
    split at stepped
    · rename_i id phase
      obtain ⟨table, erased, rfl⟩ := Option.map_eq_some_iff.mp stepped
      refine .other (.inr ⟨.rollsBack id, by simp, erased⟩) fun other refused => ?_
      by_cases own : other = thread
      · rw [own, setCreator_self] at refused
        cases refused
      · rwa [setCreator_ne _ own] at refused
    · cases stepped
  | other event =>
    cases event with
    | creates id | rollsBack id => cases stepped
    | _ => exact .ofTable (by simp) stepped

/-- The re-check leaves room for one session more. -/
theorem step_capped (positive : 0 < maxSessions) {g g' : CappedTable} {event : CappedEvent}
    (capped : g.size ≤ maxSessions) (stepped : g.step maxSessions event = some g') :
    g'.size ≤ maxSessions := by
  cases step_cases stepped with
  | refuses thread check full next =>
    rw [next]
    exact capped
  | creates thread id room next =>
    have below : g.size < maxSessions := by
      by_contra reached
      exact room ⟨positive, Nat.le_of_not_lt reached⟩
    have grown : g'.size ≤ g.size + 1 := by
      rw [next]
      exact length_keys_insert g.table.sessions id g.table.objectCount
    omega
  | other moves refused =>
    have smaller : g'.size ≤ g.size := by
      rcases moves with same | ⟨event, uncreating, moved⟩
      · exact (congrArg (fun table => table.sessions.keys.length) same).le
      · exact StreamTable.step_shrinks moved uncreating
    exact smaller.trans capped

theorem refusal_owed {thread : Nat} {g g' : CappedTable} {event : CappedEvent}
    (stepped : g.step maxSessions event = some g') (refused : g'.creators thread = .returned none) :
    g.creators thread = .returned none ∨
      (event = .checks thread ∨ event = .inserts thread) ∧ g.Full maxSessions := by
  cases step_cases stepped with
  | refuses other check full next =>
    by_cases own : thread = other
    · subst own
      exact .inr ⟨check, full⟩
    · left
      rw [next] at refused
      rwa [setCreator_ne g own] at refused
  | creates other id room next =>
    left
    rw [next] at refused
    by_cases own : thread = other
    · rw [own, setCreator_self] at refused
      cases refused
    · rwa [setCreator_ne _ own] at refused
  | other moves unrefused => exact .inl (unrefused thread refused)

/-- There are never more sessions than the cap allows, and where `create_session` returns
    `nullptr`, one of its checks found them all there. -/
theorem sessions_capped (positive : 0 < maxSessions) {events : List CappedEvent} {g : CappedTable}
    (ran : run (step maxSessions) {} events = some g) :
    g.size ≤ maxSessions ∧
    ∀ thread, g.creators thread = .returned none → ∃ front check back t,
      events = front ++ check :: back ∧ run (step maxSessions) {} front = some t ∧
      (check = .checks thread ∨ check = .inserts thread) ∧ maxSessions ≤ t.size ∧
      ∀ mid rest u, back = mid ++ rest → run (step maxSessions) t (check :: mid) = some u →
        u.creators thread = .returned none := by
  constructor
  · have start : CappedTable.size {} ≤ maxSessions := Nat.zero_le maxSessions
    exact run_keeps (fun _ _ _ capped stepped => step_capped positive capped stepped) start ran
  · intro thread refused
    have owed (g : CappedTable) (event : CappedEvent) (g' : CappedTable)
        (stepped : g.step maxSessions event = some g')
        (refused : g'.creators thread = .returned none) := refusal_owed stepped refused
    rcases run_since_last owed ran refused with
      along | ⟨front, check, back, t, split, reached, brought, since⟩
    · have idle := along [] events {} rfl rfl
      cases idle
    · exact ⟨front, check, back, t, split, reached, brought.1, brought.2.2, since⟩

/-- Two threads pass the first check before one of them inserts. -/
def racingCreates : List CappedEvent :=
  [.calls 0, .calls 1, .checks 0, .checks 1, .generates 1 (ascii "b"), .generates 0 (ascii "a"),
    .inserts 0, .inserts 1]

theorem race_capped : ∃ g, run (step 1) {} racingCreates = some g ∧ g.size ≤ 1 ∧
    ∃ front check back t, racingCreates = front ++ check :: back ∧ run (step 1) {} front = some t ∧
      (check = .checks 1 ∨ check = .inserts 1) ∧ 1 ≤ t.size ∧
      ∀ mid rest u, back = mid ++ rest → run (step 1) t (check :: mid) = some u →
        u.creators 1 = .returned none := by
  have refused : (run (step 1) {} racingCreates).map (fun g => g.creators 1) =
      some (.returned none) := by decide +kernel
  obtain ⟨g, ran, refused⟩ := Option.map_eq_some_iff.mp refused
  obtain ⟨capped, owed⟩ := sessions_capped Nat.one_pos ran
  exact ⟨g, ran, capped, owed 1 refused⟩

theorem table_runs {events : List CappedEvent} {g : CappedTable}
    (ran : run (step maxSessions) {} events = some g) :
    ∃ steps, run StreamTable.step .initial steps = some g.table := by
  have keeps (g : CappedTable) (event : CappedEvent) (g' : CappedTable)
      (reached : ∃ steps, run StreamTable.step .initial steps = some g.table)
      (stepped : g.step maxSessions event = some g') :
      ∃ steps, run StreamTable.step .initial steps = some g'.table := by
    obtain ⟨steps, reached⟩ := reached
    have reaches {event : StreamEvent} (moved : g.table.step event = some g'.table) :
        run StreamTable.step .initial (steps ++ [event]) = some g'.table := by
      simp [run_append, reached, run, moved]
    cases step_cases stepped with
    | refuses thread check full next =>
      rw [next]
      exact ⟨steps, reached⟩
    | creates thread id room next =>
      refine ⟨steps ++ [.creates id], reaches ?_⟩
      rw [next]
      rfl
    | other moves refused =>
      rcases moves with same | ⟨event, -, moved⟩
      · rw [same]
        exact ⟨steps, reached⟩
      · exact ⟨steps ++ [event], reaches moved⟩
  exact run_keeps keeps ⟨[], rfl⟩ ran

section
variable {ω : Type}

theorem size_shown {g : CappedTable} {t : HttpTransport ω} (shows : g.table.Shows t) :
    g.size = t.sessions.keys.length := by
  apply length_keys_congr
  intro id
  have same := congrArg Option.isSome (shows id)
  rw [Option.isSome_map, Option.isSome_map] at same
  rw [← AList.lookup_isSome, ← AList.lookup_isSome, same]

theorem create_shows {l : StreamTable} {t : HttpTransport ω} (kept : l.Kept) (shows : l.Shows t)
    (newId : SessionId) : (l.create newId).Shows { t with
      sessions := t.sessions.insert newId { sessionId := newId } } := by
  intro id
  show Option.map _ ((t.sessions.insert newId _).lookup id) =
    Option.map _ ((l.sessions.insert newId l.objectCount).lookup id)
  by_cases own : id = newId
  · subst own
    rw [AList.lookup_insert, AList.lookup_insert, Option.map_some, Option.map_some]
    have created : (l.create id).objects l.objectCount = { sessionId := id } := update_self _ _ _
    rw [created]
    rfl
  · rw [AList.lookup_insert_ne own, AList.lookup_insert_ne own, shows id]
    cases present : l.sessions.lookup id with
    | none => rfl
    | some o =>
      have older : o ≠ l.objectCount := (kept.named id o present).2.ne
      have same : (l.create newId).objects o = l.objects o := update_of_ne older _ _
      rw [Option.map_some, Option.map_some, same]

/-- A thread that is not interrupted creates the session that `createSession` creates, or finds
    the table full with it. -/
theorem create_uninterrupted (env : HttpEnv ω) {g : CappedTable} {t : HttpTransport ω}
    (kept : g.table.Kept) (shows : g.table.Shows t) {thread : Nat} (idle : g.creators thread = .idle)
    (newId : SessionId) :
    match env.createSession t newId with
    | none => ∃ g', run (step env.config.maxSessions) g [.calls thread, .checks thread] = some g' ∧
        g'.table = g.table ∧ g'.creators thread = .returned none
    | some created => ∃ g', run (step env.config.maxSessions) g
          [.calls thread, .checks thread, .generates thread newId, .inserts thread] = some g' ∧
        g'.table.Shows created ∧ g'.creators thread = .returned (some newId) := by
  have same : g.Full env.config.maxSessions ↔
      0 < env.config.maxSessions ∧ env.config.maxSessions ≤ t.sessions.keys.length := by
    rw [Full, size_shown shows]
  have unmoved (waiting : CappedTable) (phase : CreatePhase) :
      (waiting.setCreator thread phase).Full env.config.maxSessions ↔
        waiting.Full env.config.maxSessions := Iff.rfl
  unfold HttpEnv.createSession
  by_cases full : g.Full env.config.maxSessions
  · rw [if_pos (same.mp full)]
    refine ⟨(g.setCreator thread .called).setCreator thread (.returned none), ?_, rfl,
      setCreator_self _ thread _⟩
    simp only [run, step, idle, Option.bind_some, setCreator_self, unmoved, if_pos full]
  · rw [if_neg (mt same.mpr full)]
    let waiting := ((g.setCreator thread .called).setCreator thread .passed).setCreator thread
      (.generated newId)
    refine ⟨{ waiting with table := waiting.table.create newId }.setCreator thread
      (.returned (some newId)), ?_, create_shows kept shows newId, setCreator_self _ thread _⟩
    simp only [run, step, idle, Option.bind_some, setCreator_self, unmoved, if_neg full]
    rfl

end

end CappedTable

end CppMcp
