import CppMcp.Http.Streams
import CppMcp.Lib.Table

namespace CppMcp

open Lib Function

namespace StreamTable

def Listed (l : StreamTable) (st : SseStream) (o : Nat) : Prop := st ∈ (l.objects o).sseConnections

/-- The session is in `sessions_`. -/
def Registered (l : StreamTable) (o : Nat) : Prop :=
  l.sessions.lookup (l.objects o).sessionId = some o

/-- An `on_disconnect` that has begun will remove the stream. -/
def Removing (l : StreamTable) (st : SseStream) : Prop :=
  ∃ thread, (l.closers thread).onError = some (.disconnecting st)

/-- The connection is active, or its `on_error` has still to look at `on_disconnect`. -/
def Watched (l : StreamTable) (conn : Nat) : Prop :=
  (l.connections conn).active = true ∨ ∃ thread, (l.closers thread).onError = some (.exchanged conn)

/-- No handler and no `on_error` runs. -/
def Quiet (l : StreamTable) : Prop :=
  (∀ conn, (l.connections conn).getSse = .idle) ∧ ∀ thread, l.closers thread = {}

/-- The stream's connection is closed, or a thread has still to close it. -/
def Closing (l : StreamTable) (st : SseStream) : Prop :=
  (l.connections st.conn).active = false ∨ ∃ thread, st ∈ (l.closers thread).toClose ∨
    (l.closers thread).onError = some (.called st.conn)

/-- A session that is overwritten or rolled back lists no stream; no connection gets a second
    stream or is refused while it has one that is listed; and a stream is listed while its
    session is in `sessions_` and the `on_error` of its connection has not passed it by. -/
def Orderly (l : StreamTable) : StreamEvent → Prop
  | .creates id | .rollsBack id =>
    ∀ o, l.sessions.lookup id = some o → (l.objects o).sseConnections = []
  | .refuses conn => (l.connections conn).active = true → ∀ o st, l.Listed st o → st.conn ≠ conn
  | .installs conn => ∀ o st, l.Listed st o → st.conn = conn → l.Removing st
  | .attaches conn => ∀ st, (l.connections conn).getSse = .installed st →
      l.Registered st.session ∧ (l.Watched conn ∨ l.Removing st)
  | _ => True

/-- What an orderly run keeps. -/
structure Kept (l : StreamTable) : Prop where
  named : ∀ id o, l.sessions.lookup id = some o → (l.objects o).sessionId = id ∧ o < l.objectCount
  listed : ∀ o st, l.Listed st o → l.Registered o ∧ st.session = o ∧
    (l.Removing st ∨ (l.connections st.conn).onDisconnect = some st ∧ l.Watched st.conn)
  slot : ∀ conn st, (l.connections conn).onDisconnect = some st → st.conn = conn
  installed : ∀ conn st, (l.connections conn).getSse = .installed st →
    (l.connections conn).onDisconnect = some st
  exchanged : ∀ thread conn, (l.closers thread).onError = some (.exchanged conn) →
    (l.connections conn).active = false
  disconnecting : ∀ thread st, (l.closers thread).onError = some (.disconnecting st) →
    (l.connections st.conn).active = false
  attached : ∀ st ∈ l.attached, l.Listed st st.session ∨ l.Closing st

theorem kept_initial : Kept initial where
  named id o present := by simp [initial] at present
  listed o st member := by simp [Listed, initial] at member
  slot conn st slot := by simp [initial] at slot
  installed conn st phase := by simp [initial] at phase
  exchanged thread conn phase := by simp [initial] at phase
  disconnecting thread st phase := by simp [initial] at phase
  attached st member := by simp [initial] at member

/-- Only how far threads are has changed, and connections may have been closed. -/
structure Moves (l l' : StreamTable) : Prop where
  sessions : l'.sessions = l.sessions
  objects : l'.objects = l.objects
  objectCount : l'.objectCount = l.objectCount
  attached : l'.attached = l.attached
  onDisconnect : ∀ conn, (l'.connections conn).onDisconnect = (l.connections conn).onDisconnect
  getSse : ∀ conn, (l'.connections conn).getSse = (l.connections conn).getSse
  inactive : ∀ conn, (l.connections conn).active = false → (l'.connections conn).active = false

theorem Moves.listed {l l' : StreamTable} (moves : Moves l l') {st : SseStream} {o : Nat} :
    l'.Listed st o ↔ l.Listed st o := by
  unfold Listed
  rw [moves.objects]

theorem Kept.moves {l l' : StreamTable} (kept : Kept l) (moves : Moves l l')
    (watched : ∀ o st, l.Listed st o → l'.Removing st ∨
      (l.connections st.conn).onDisconnect = some st ∧ l'.Watched st.conn)
    (exchanged : ∀ thread conn, (l'.closers thread).onError = some (.exchanged conn) →
      (l'.connections conn).active = false)
    (disconnecting : ∀ thread st, (l'.closers thread).onError = some (.disconnecting st) →
      (l'.connections st.conn).active = false)
    (closing : ∀ st, l.Closing st → l'.Closing st) : Kept l' where
  named id o present := by
    rw [moves.sessions] at present
    rw [moves.objects, moves.objectCount]
    exact kept.named id o present
  listed o st member := by
    obtain ⟨registered, own, -⟩ := kept.listed o st (moves.listed.mp member)
    refine ⟨?_, own, ?_⟩
    · unfold Registered
      rw [moves.sessions, moves.objects]
      exact registered
    · rw [moves.onDisconnect]
      exact watched o st (moves.listed.mp member)
  slot conn st slot := by
    rw [moves.onDisconnect] at slot
    exact kept.slot conn st slot
  installed conn st phase := by
    rw [moves.getSse] at phase
    rw [moves.onDisconnect]
    exact kept.installed conn st phase
  exchanged := exchanged
  disconnecting := disconnecting
  attached st member := by
    rw [moves.attached] at member
    rcases kept.attached st member with listed | closes
    · exact .inl (moves.listed.mpr listed)
    · exact .inr (closing st closes)

theorem Kept.setConnection {l : StreamTable} (kept : Kept l) (conn : Nat) (c : StreamConnection)
    (slot : ∀ st, c.onDisconnect = some st → st.conn = conn)
    (installed : ∀ st, c.getSse = .installed st → c.onDisconnect = some st)
    (inactive : (l.connections conn).active = false → c.active = false)
    (watched : ∀ o st, l.Listed st o → st.conn = conn → l.Removing st ∨
      c.onDisconnect = some st ∧ (c.active = true ∨
        ∃ thread, (l.closers thread).onError = some (.exchanged conn))) :
    Kept (l.setConnection conn c) := by
  have same {other : Nat} (ne : other ≠ conn) :
      (l.setConnection conn c).connections other = l.connections other := update_of_ne ne _ _
  have own : (l.setConnection conn c).connections conn = c := update_self _ _ _
  have stays {other : Nat} (closed : (l.connections other).active = false) :
      ((l.setConnection conn c).connections other).active = false := by
    by_cases at_conn : other = conn
    · subst at_conn
      rw [own]
      exact inactive closed
    · rw [same at_conn]
      exact closed
  constructor
  · exact kept.named
  · intro o st member
    obtain ⟨registered, session, held⟩ := kept.listed o st member
    refine ⟨registered, session, ?_⟩
    by_cases at_conn : st.conn = conn
    · have held := watched o st member at_conn
      unfold Watched
      rw [at_conn, own]
      exact held
    · unfold Watched
      rw [same at_conn]
      exact held
  · intro other st phase
    by_cases at_conn : other = conn
    · subst at_conn
      rw [own] at phase
      exact slot st phase
    · rw [same at_conn] at phase
      exact kept.slot other st phase
  · intro other st phase
    by_cases at_conn : other = conn
    · subst at_conn
      rw [own] at phase ⊢
      exact installed st phase
    · rw [same at_conn] at phase ⊢
      exact kept.installed other st phase
  · exact fun thread other phase => stays (kept.exchanged thread other phase)
  · exact fun thread st phase => stays (kept.disconnecting thread st phase)
  · intro st member
    rcases kept.attached st member with listed | closed | closer
    · exact .inl listed
    · exact .inr (.inl (stays closed))
    · exact .inr (.inr closer)

/-- A session under one id comes or goes, and the one that was there lists no stream. -/
theorem Kept.resetSession {l l' : StreamTable} (kept : Kept l) {id : SessionId}
    (empty : ∀ o, l.sessions.lookup id = some o → (l.objects o).sseConnections = [])
    (others : ∀ other, other ≠ id → l'.sessions.lookup other = l.sessions.lookup other)
    (objects : ∀ o, o < l.objectCount → l'.objects o = l.objects o)
    (unlisted : ∀ o, ¬ o < l.objectCount → (l'.objects o).sseConnections = [])
    (named : ∀ id o, l'.sessions.lookup id = some o →
      (l'.objects o).sessionId = id ∧ o < l'.objectCount)
    (connections : l'.connections = l.connections) (closers : l'.closers = l.closers)
    (attached : l'.attached = l.attached) : Kept l' := by
  have listed {o : Nat} {st : SseStream} (member : l'.Listed st o) : l.Listed st o := by
    by_cases old : o < l.objectCount
    · have same := objects o old
      unfold Listed at member
      rw [same] at member
      exact member
    · unfold Listed at member
      rw [unlisted o old] at member
      cases member
  have removing {st : SseStream} : l'.Removing st ↔ l.Removing st := by
    unfold Removing
    rw [closers]
  have watched {conn : Nat} : l'.Watched conn ↔ l.Watched conn := by
    unfold Watched
    rw [closers, connections]
  constructor
  · exact named
  · intro o st member
    obtain ⟨registered, session, held⟩ := kept.listed o st (listed member)
    have old := (kept.named _ o registered).2
    have other : (l.objects o).sessionId ≠ id := by
      intro same
      unfold Registered at registered
      rw [same] at registered
      have nothing := listed member
      unfold Listed at nothing
      rw [empty o registered] at nothing
      cases nothing
    refine ⟨?_, session, ?_⟩
    · unfold Registered
      rw [objects o old, others _ other]
      exact registered
    · rw [removing, watched, connections]
      exact held
  · rw [connections]
    exact kept.slot
  · rw [connections]
    exact kept.installed
  · rw [connections, closers]
    exact kept.exchanged
  · rw [connections, closers]
    exact kept.disconnecting
  · intro st member
    rw [attached] at member
    unfold Closing
    rw [connections, closers]
    rcases kept.attached st member with present | closing
    · have old := (kept.named _ _ (kept.listed _ st present).1).2
      refine .inl ?_
      unfold Listed
      rw [objects _ old]
      exact present
    · exact .inr closing

theorem Kept.fresh {l : StreamTable} (kept : Kept l) {o : Nat} (new : ¬ o < l.objectCount) :
    (l.objects o).sseConnections = [] := by
  refine List.eq_nil_iff_forall_not_mem.mpr fun st member => new ?_
  exact (kept.named _ o (kept.listed o st member).1).2

theorem create_kept {l : StreamTable} (kept : Kept l) {id : SessionId}
    (empty : ∀ o, l.sessions.lookup id = some o → (l.objects o).sseConnections = []) :
    Kept (l.create id) := by
  have new : (l.create id).objects l.objectCount = { sessionId := id } := update_self _ _ _
  have same {o : Nat} (ne : o ≠ l.objectCount) : (l.create id).objects o = l.objects o :=
    update_of_ne ne _ _
  refine kept.resetSession empty (fun other ne => AList.lookup_insert_ne ne)
    (fun o bound => same (Nat.ne_of_lt bound)) (fun o bound => ?_) (fun found o present => ?_)
    rfl rfl rfl
  · by_cases fresh : o = l.objectCount
    · rw [fresh, new]
    · rw [same fresh]
      exact kept.fresh bound
  · have count : (l.create id).objectCount = l.objectCount + 1 := rfl
    by_cases own : found = id
    · subst own
      have made : o = l.objectCount := by
        have inserted : (l.create found).sessions.lookup found = some l.objectCount :=
          AList.lookup_insert _
        rw [inserted] at present
        exact (Option.some.inj present).symm
      rw [made, new]
      exact ⟨rfl, by omega⟩
    · have before : l.sessions.lookup found = some o := by
        have kept : (l.create id).sessions.lookup found = l.sessions.lookup found :=
          AList.lookup_insert_ne own
        rw [← kept]
        exact present
      obtain ⟨name, bound⟩ := kept.named found o before
      rw [same (Nat.ne_of_lt bound)]
      exact ⟨name, by omega⟩

theorem erase_kept {l : StreamTable} (kept : Kept l) {id : SessionId}
    (empty : ∀ o, l.sessions.lookup id = some o → (l.objects o).sseConnections = []) :
    Kept { l with sessions := l.sessions.erase id } := by
  refine kept.resetSession empty (fun other ne => AList.lookup_erase_ne ne) (fun _ _ => rfl)
    (fun o bound => kept.fresh bound) (fun found o present => ?_) rfl rfl rfl
  have other : found ≠ id := by
    intro same
    subst same
    have gone : (l.sessions.erase found).lookup found = none := AList.lookup_erase _ _
    rw [gone] at present
    cases present
  have before : l.sessions.lookup found = some o := by
    rw [← AList.lookup_erase_ne other]
    exact present
  exact kept.named found o before

theorem sessionId_update (objects : Nat → SessionObject) (session o : Nat)
    (streams : List SseStream) :
    (update objects session { objects session with sseConnections := streams } o).sessionId =
      (objects o).sessionId := by
  by_cases own : o = session
  · rw [own, update_self]
  · rw [update_of_ne own]

theorem attach_kept {l : StreamTable} (kept : Kept l) {st : SseStream}
    (registered : l.Registered st.session)
    (held : l.Removing st ∨ (l.connections st.conn).onDisconnect = some st ∧ l.Watched st.conn) :
    Kept (l.attach st) := by
  have named (o : Nat) : ((l.attach st).objects o).sessionId = (l.objects o).sessionId :=
    sessionId_update l.objects st.session o _
  have listed (o : Nat) (other : SseStream) : (l.attach st).Listed other o ↔
      l.Listed other o ∨ o = st.session ∧ other = st := by
    unfold Listed
    by_cases own : o = st.session
    · subst own
      have session : (l.attach st).objects st.session = _ := update_self _ _ _
      rw [session]
      simp
    · have session : (l.attach st).objects o = l.objects o := update_of_ne own _ _
      rw [session]
      simp [own]
  constructor
  · intro id o present
    rw [named]
    exact kept.named id o present
  · intro o other member
    have facts : l.Registered o ∧ other.session = o ∧ (l.Removing other ∨
        (l.connections other.conn).onDisconnect = some other ∧ l.Watched other.conn) := by
      rcases (listed o other).mp member with before | ⟨own, new⟩
      · exact kept.listed o other before
      · subst own new
        exact ⟨registered, rfl, held⟩
    refine ⟨?_, facts.2⟩
    unfold Registered
    rw [named]
    exact facts.1
  · exact kept.slot
  · exact kept.installed
  · exact kept.exchanged
  · exact kept.disconnecting
  · intro other member
    rcases List.mem_append.mp member with before | new
    · rcases kept.attached other before with present | closing
      · exact .inl ((listed _ other).mpr (.inl present))
      · exact .inr closing
    · rw [List.mem_singleton.mp new]
      exact .inl ((listed _ st).mpr (.inr ⟨rfl, rfl⟩))

theorem detach_listed (l : StreamTable) (st other : SseStream) (o : Nat) :
    (l.detach st).Listed other o ↔ l.Listed other o ∧ (o = st.session → other ≠ st) := by
  unfold Listed
  by_cases own : o = st.session
  · subst own
    have session : (l.detach st).objects st.session = _ := update_self _ _ _
    rw [session]
    simp
  · have session : (l.detach st).objects o = l.objects o := update_of_ne own _ _
    rw [session]
    simp [own]

theorem detach_kept {l : StreamTable} (kept : Kept l) {st : SseStream} (removing : l.Removing st) :
    Kept (l.detach st) := by
  have named (o : Nat) : ((l.detach st).objects o).sessionId = (l.objects o).sessionId :=
    sessionId_update l.objects st.session o _
  constructor
  · intro id o present
    rw [named]
    exact kept.named id o present
  · intro o other member
    obtain ⟨registered, facts⟩ := kept.listed o other ((detach_listed l st other o).mp member).1
    refine ⟨?_, facts⟩
    unfold Registered
    rw [named]
    exact registered
  · exact kept.slot
  · exact kept.installed
  · exact kept.exchanged
  · exact kept.disconnecting
  · intro other member
    rcases kept.attached other member with present | closing
    · by_cases removed : other = st
      · obtain ⟨thread, phase⟩ := removing
        rw [removed]
        exact .inr (.inl (kept.disconnecting thread st phase))
      · exact .inl ((detach_listed l st other _).mpr ⟨present, fun _ => removed⟩)
    · exact .inr closing

theorem drop_kept {l : StreamTable} (kept : Kept l) {thread : Nat} (free : l.closers thread = {})
    (ids : List SessionId) : Kept (l.drop thread ids) := by
  have sessions (id : SessionId) : (l.drop thread ids).sessions.lookup id =
      if id ∈ ids then none else l.sessions.lookup id :=
    (lookup_foldl_erase ids l.sessions id).trans (by congr)
  have named (o : Nat) : ((l.drop thread ids).objects o).sessionId = (l.objects o).sessionId := by
    simp only [drop]
    split <;> rfl
  have listed (o : Nat) (st : SseStream) : (l.drop thread ids).Listed st o ↔
      l.Listed st o ∧ o ∉ l.under ids := by
    simp only [Listed, drop]
    split <;> simp [*]
  have closer : (l.drop thread ids).closers thread =
      { toClose := (l.under ids).flatMap fun o => (l.objects o).sseConnections } := update_self _ _ _
  have others {other : Nat} (ne : other ≠ thread) :
      (l.drop thread ids).closers other = l.closers other := update_of_ne ne _ _
  have phases (other : Nat) :
      ((l.drop thread ids).closers other).onError = (l.closers other).onError := by
    by_cases own : other = thread
    · subst own
      rw [closer, free]
    · rw [others own]
  constructor
  · intro id o present
    rw [sessions, Option.ite_none_left_eq_some] at present
    rw [named]
    exact kept.named id o present.2
  · intro o st member
    obtain ⟨before, stays⟩ := (listed o st).mp member
    obtain ⟨registered, session, held⟩ := kept.listed o st before
    refine ⟨?_, session, ?_⟩
    · unfold Registered
      rw [named, sessions, if_neg]
      · exact registered
      · exact fun dropped => stays (List.mem_filterMap.mpr ⟨_, dropped, registered⟩)
    · simp only [Removing, Watched, phases]
      exact held
  · exact kept.slot
  · exact kept.installed
  · intro other conn phase
    rw [phases] at phase
    exact kept.exchanged other conn phase
  · intro other st phase
    rw [phases] at phase
    exact kept.disconnecting other st phase
  · intro st member
    rcases kept.attached st member with present | closed | ⟨other, closes⟩
    · by_cases dropped : st.session ∈ l.under ids
      · refine .inr (.inr ⟨thread, .inl ?_⟩)
        rw [closer]
        exact List.mem_flatMap.mpr ⟨_, dropped, present⟩
      · exact .inl ((listed _ st).mpr ⟨present, dropped⟩)
    · exact .inr (.inl closed)
    · have busy : other ≠ thread := by
        intro own
        subst own
        rw [free] at closes
        simp at closes
      refine .inr (.inr ⟨other, ?_⟩)
      rw [others busy]
      exact closes

theorem setCloser_self (l : StreamTable) (thread : Nat) (closer : Closer) :
    (l.setCloser thread closer).closers thread = closer := update_self _ _ _

theorem setCloser_ne (l : StreamTable) {thread other : Nat} (ne : other ≠ thread)
    (closer : Closer) : (l.setCloser thread closer).closers other = l.closers other :=
  update_of_ne ne _ _

theorem Moves.refl (l : StreamTable) : Moves l l :=
  ⟨rfl, rfl, rfl, rfl, fun _ => rfl, fun _ => rfl, fun _ closed => closed⟩

/-- One connection has been closed, in part or altogether. -/
theorem Moves.setConnection {l : StreamTable} {conn : Nat} {c : StreamConnection}
    (onDisconnect : c.onDisconnect = (l.connections conn).onDisconnect)
    (getSse : c.getSse = (l.connections conn).getSse)
    (inactive : (l.connections conn).active = false → c.active = false) :
    Moves l (l.setConnection conn c) := by
  have own : (l.setConnection conn c).connections conn = c := update_self _ _ _
  have same {other : Nat} (ne : other ≠ conn) :
      (l.setConnection conn c).connections other = l.connections other := update_of_ne ne _ _
  refine ⟨rfl, rfl, rfl, rfl, fun other => ?_, fun other => ?_, fun other closed => ?_⟩
  all_goals by_cases ne : other = conn
  · rw [ne, own, onDisconnect]
  · rw [same ne]
  · rw [ne, own, getSse]
  · rw [same ne]
  · rw [ne, own]
    exact inactive (ne ▸ closed)
  · rw [same ne]
    exact closed

/-- One thread goes on. What its old place stood for, its new one or the connections do. -/
theorem Kept.thread {l base : StreamTable} (kept : Kept l) (moves : Moves l base)
    (same : base.closers = l.closers) {thread : Nat} {closer : Closer}
    (removes : ∀ st o, (l.closers thread).onError = some (.disconnecting st) → ¬ l.Listed st o)
    (looks : ∀ o st, (l.closers thread).onError = some (.exchanged st.conn) →
      (l.connections st.conn).onDisconnect = some st → l.Listed st o →
      closer.onError = some (.disconnecting st))
    (loses : ∀ conn, (l.connections conn).active = true → (base.connections conn).active = true ∨
      closer.onError = some (.exchanged conn))
    (exchanged : ∀ conn, closer.onError = some (.exchanged conn) →
      (base.connections conn).active = false)
    (disconnecting : ∀ st, closer.onError = some (.disconnecting st) →
      (base.connections st.conn).active = false)
    (closes : ∀ st, st ∈ (l.closers thread).toClose ∨
      (l.closers thread).onError = some (.called st.conn) →
      (base.connections st.conn).active = false ∨ st ∈ closer.toClose ∨
        closer.onError = some (.called st.conn)) : Kept (base.setCloser thread closer) := by
  have own : (base.setCloser thread closer).closers thread = closer := setCloser_self _ _ _
  have others {other : Nat} (ne : other ≠ thread) :
      (base.setCloser thread closer).closers other = l.closers other := by
    rw [setCloser_ne _ ne, same]
  have moves' : Moves l (base.setCloser thread closer) :=
    ⟨moves.sessions, moves.objects, moves.objectCount, moves.attached, moves.onDisconnect,
      moves.getSse, moves.inactive⟩
  refine kept.moves moves' ?_ ?_ ?_ ?_
  · intro o st member
    rcases (kept.listed o st member).2.2 with ⟨other, phase⟩ | ⟨slot, up | ⟨other, phase⟩⟩
    · have ne : other ≠ thread := by
        intro own
        subst own
        exact removes st o phase member
      exact .inl ⟨other, (congrArg Closer.onError (others ne)).trans phase⟩
    · refine .inr ⟨slot, ?_⟩
      rcases loses st.conn up with up | phase
      · exact .inl up
      · exact .inr ⟨thread, (congrArg Closer.onError own).trans phase⟩
    · by_cases ne : other = thread
      · subst ne
        have removing := looks o st phase slot member
        exact .inl ⟨other, (congrArg Closer.onError own).trans removing⟩
      · exact .inr ⟨slot, .inr ⟨other, (congrArg Closer.onError (others ne)).trans phase⟩⟩
  · intro other conn phase
    by_cases ne : other = thread
    · subst ne
      rw [own] at phase
      exact exchanged conn phase
    · rw [others ne] at phase
      exact moves.inactive conn (kept.exchanged other conn phase)
  · intro other st phase
    by_cases ne : other = thread
    · subst ne
      rw [own] at phase
      exact disconnecting st phase
    · rw [others ne] at phase
      exact moves.inactive st.conn (kept.disconnecting other st phase)
  · rintro st (closed | ⟨other, closing⟩)
    · exact .inl (moves.inactive st.conn closed)
    · by_cases ne : other = thread
      · subst ne
        rcases closes st closing with closed | closing
        · exact .inl closed
        · refine .inr ⟨other, ?_⟩
          rw [own]
          exact closing
      · refine .inr ⟨other, ?_⟩
        rw [others ne]
        exact closing

theorem close_kept {l : StreamTable} (kept : Kept l) {thread : Nat} {st : SseStream}
    {rest : List SseStream} (place : l.closers thread = ⟨none, st :: rest⟩) :
    Kept ((l.setConnection st.conn { l.connections st.conn with socketOpen := false }).setCloser
      thread ⟨some (.called st.conn), rest⟩) := by
  let closed : StreamConnection := { l.connections st.conn with socketOpen := false }
  have own : (l.setConnection st.conn closed).connections st.conn = closed := update_self _ _ _
  have moves : Moves l (l.setConnection st.conn closed) :=
    .setConnection rfl rfl fun inactive => inactive
  refine kept.thread moves rfl ?_ ?_ ?_ ?_ ?_ ?_
  all_goals simp only [place, reduceCtorEq, Option.some.injEq, ErrorPhase.called.injEq,
    IsEmpty.forall_iff, implies_true, or_false, List.mem_cons]
  · intro conn up
    by_cases ne : conn = st.conn
    · rw [ne] at up ⊢
      rw [own]
      exact up
    · have same : (l.setConnection st.conn closed).connections conn = l.connections conn :=
        update_of_ne ne _ _
      rw [same]
      exact up
  · rintro other (first | later)
    · exact .inr (.inr (by rw [first]))
    · exact .inr (.inl later)

/-- `on_error` finds the connection active. -/
theorem exchange_kept {l : StreamTable} (kept : Kept l) {thread conn : Nat} {rest : List SseStream}
    (place : l.closers thread = ⟨some (.called conn), rest⟩) :
    Kept ((l.setConnection conn { l.connections conn with active := false }).setCloser thread
      ⟨some (.exchanged conn), rest⟩) := by
  let closed : StreamConnection := { l.connections conn with active := false }
  have own : (l.setConnection conn closed).connections conn = closed := update_self _ _ _
  have moves : Moves l (l.setConnection conn closed) := .setConnection rfl rfl fun _ => rfl
  refine kept.thread moves rfl ?_ ?_ ?_ ?_ ?_ ?_
  all_goals simp only [place, reduceCtorEq, Option.some.injEq, ErrorPhase.called.injEq,
    ErrorPhase.exchanged.injEq, IsEmpty.forall_iff, implies_true, or_false]
  · intro other up
    by_cases ne : other = conn
    · exact .inr ne.symm
    · have same : (l.setConnection conn closed).connections other = l.connections other :=
        update_of_ne ne _ _
      rw [same]
      exact .inl up
  · rintro other rfl
    rw [own]
  · rintro other (waiting | now)
    · exact .inr waiting
    · rw [← now, own]
      exact .inl rfl

/-- `on_error` finds that another call was first. -/
theorem secondError_kept {l : StreamTable} (kept : Kept l) {thread conn : Nat}
    {rest : List SseStream} (place : l.closers thread = ⟨some (.called conn), rest⟩)
    (inactive : (l.connections conn).active = false) :
    Kept (l.setCloser thread ⟨none, rest⟩) := by
  refine kept.thread (.refl l) rfl ?_ ?_ ?_ ?_ ?_ ?_
  all_goals simp only [place, reduceCtorEq, Option.some.injEq, ErrorPhase.called.injEq,
    IsEmpty.forall_iff, implies_true, or_false]
  · exact fun other up => up
  · rintro other (waiting | now)
    · exact .inr waiting
    · rw [← now]
      exact .inl inactive

/-- `on_error` calls the handler of the stream that the connection has, if it has one. -/
theorem callHandler_kept {l : StreamTable} (kept : Kept l) {thread conn : Nat}
    {rest : List SseStream} (place : l.closers thread = ⟨some (.exchanged conn), rest⟩) :
    Kept (l.setCloser thread
      ⟨(l.connections conn).onDisconnect.map .disconnecting, rest⟩) := by
  have down := kept.exchanged thread conn (by rw [place])
  refine kept.thread (.refl l) rfl ?_ ?_ ?_ ?_ ?_ ?_
  all_goals simp only [place, reduceCtorEq, Option.some.injEq, ErrorPhase.exchanged.injEq,
    IsEmpty.forall_iff, implies_true, or_false]
  · rintro o st rfl slot -
    rw [slot]
    rfl
  · exact fun other up => .inl up
  · intro other phase
    simp at phase
  · intro st phase
    obtain ⟨found, slot, same⟩ := Option.map_eq_some_iff.mp phase
    cases same
    rw [kept.slot conn st slot]
    exact down
  · exact fun st waiting => .inr (.inl waiting)

theorem detachDone_kept {l : StreamTable} (kept : Kept l) {thread : Nat} {st : SseStream}
    {rest : List SseStream} (place : l.closers thread = ⟨some (.disconnecting st), rest⟩) :
    Kept ((l.detach st).setCloser thread ⟨none, rest⟩) := by
  have detached := detach_kept kept ⟨thread, by rw [place]⟩
  have place' : (l.detach st).closers thread = ⟨some (.disconnecting st), rest⟩ := place
  refine detached.thread (.refl _) rfl ?_ ?_ ?_ ?_ ?_ ?_
  all_goals simp only [place', reduceCtorEq, Option.some.injEq, ErrorPhase.disconnecting.injEq,
    IsEmpty.forall_iff, implies_true, or_false]
  · rintro other o rfl member
    obtain ⟨before, apart⟩ := (detach_listed l st st o).mp member
    exact apart (kept.listed o st before).2.1.symm rfl
  · exact fun other up => up
  · exact fun other waiting => .inr waiting

theorem advance_kept {l l' : StreamTable} (kept : Kept l) {thread : Nat}
    (h : l.advance thread = some l') : Kept l' := by
  unfold advance at h
  split at h
  · cases h
  · rename_i st rest place
    cases h
    exact close_kept kept place
  · rename_i conn rest place
    split at h
    · cases h
      exact exchange_kept kept place
    · rename_i inactive
      cases h
      exact secondError_kept kept place (Bool.eq_false_iff.mpr inactive)
  · rename_i conn rest place
    cases h
    exact callHandler_kept kept place
  · rename_i st rest place
    cases h
    exact detachDone_kept kept place

theorem onThread_some {l next l' : StreamTable} {thread : Nat}
    (h : l.onThread thread next = some l') : l.closers thread = {} ∧ next = l' := by
  simpa [onThread] using h

theorem Kept.setPhase {l : StreamTable} (kept : Kept l) (conn : Nat) {phase : GetPhase}
    (waits : ∀ st, phase ≠ .installed st) :
    Kept (l.setConnection conn { l.connections conn with getSse := phase }) := by
  refine kept.setConnection conn _ (fun st slot => kept.slot conn st slot)
    (fun st installed => absurd installed (waits st)) (fun inactive => inactive) ?_
  rintro o st member rfl
  exact (kept.listed o st member).2.2

theorem refuse_kept {l : StreamTable} (kept : Kept l) {conn : Nat}
    (unlisted : (l.connections conn).active = true → ∀ o st, l.Listed st o → st.conn ≠ conn) :
    Kept (l.setConnection conn { l.connections conn with active := false, getSse := .idle }) := by
  refine kept.setConnection conn _ (fun st slot => kept.slot conn st slot)
    (fun st installed => by simp at installed) (fun _ => rfl) ?_
  rintro o st member rfl
  rcases (kept.listed o st member).2.2 with removing | ⟨slot, up | exchanged⟩
  · exact .inl removing
  · exact absurd rfl (unlisted up o st member)
  · exact .inr ⟨slot, .inr exchanged⟩

theorem install_kept {l : StreamTable} (kept : Kept l) {conn o : Nat}
    (replaced : ∀ o st, l.Listed st o → st.conn = conn → l.Removing st) :
    Kept ({ l with streamCount := l.streamCount + 1 }.setConnection conn
      { l.connections conn with
        onDisconnect := some ⟨conn, o, l.streamCount⟩,
        getSse := .installed ⟨conn, o, l.streamCount⟩ }) := by
  have counted : Kept { l with streamCount := l.streamCount + 1 } :=
    ⟨kept.named, kept.listed, kept.slot, kept.installed, kept.exchanged, kept.disconnecting,
      kept.attached⟩
  refine counted.setConnection conn _ ?_ ?_ (fun inactive => inactive) ?_
  · rintro st slot
    cases slot
    rfl
  · rintro st installed
    cases installed
    rfl
  · exact fun o st member at_conn => .inl (replaced o st member at_conn)

theorem attaches_kept {l : StreamTable} (kept : Kept l) {conn : Nat} {st : SseStream}
    (phase : (l.connections conn).getSse = .installed st) (registered : l.Registered st.session)
    (watched : l.Watched conn ∨ l.Removing st) :
    Kept ((l.attach st).setConnection conn { l.connections conn with getSse := .idle }) := by
  have slot := kept.installed conn st phase
  have at_conn := kept.slot conn st slot
  refine (attach_kept kept registered ?_).setPhase conn (fun _ => by simp)
  rcases watched with watched | removing
  · rw [at_conn]
    exact .inr ⟨slot, watched⟩
  · exact .inl removing

theorem step_kept (l : StreamTable) (e : StreamEvent) (l' : StreamTable) (kept : Kept l)
    (orderly : l.Orderly e) (h : l.step e = some l') : Kept l' := by
  cases e with
  | creates id =>
    cases h
    exact create_kept kept orderly
  | rollsBack id =>
    cases h
    exact erase_kept kept orderly
  | finds conn id accepts =>
    simp only [step] at h
    split at h
    · cases h
      refine kept.setPhase conn fun st => ?_
      split
      · split <;> simp
      · simp
    · cases h
  | refuses conn =>
    simp only [step] at h
    split at h
    · cases h
      exact refuse_kept kept orderly
    · cases h
      exact refuse_kept kept orderly
    · cases h
  | installs conn =>
    simp only [step] at h
    split at h
    · cases h
      exact install_kept kept orderly
    · cases h
  | attaches conn =>
    simp only [step] at h
    split at h
    · rename_i st phase
      cases h
      exact attaches_kept kept phase (orderly st phase).1 (orderly st phase).2
    · cases h
  | errors thread conn =>
    obtain ⟨free, rfl⟩ := onThread_some h
    refine kept.thread (.refl l) rfl ?_ ?_ ?_ ?_ ?_ ?_
    all_goals simp only [free, reduceCtorEq, Option.some.injEq, IsEmpty.forall_iff, implies_true,
      List.not_mem_nil, or_self]
    exact fun other up => .inl up
  | deletes thread id =>
    obtain ⟨free, rfl⟩ := onThread_some h
    exact drop_kept kept free _
  | sweeps thread ids =>
    obtain ⟨free, rfl⟩ := onThread_some h
    exact drop_kept kept free _
  | stops thread =>
    obtain ⟨free, rfl⟩ := onThread_some h
    exact drop_kept kept free _
  | advances thread => exact advance_kept kept h

/-- No stream outlives its session. -/
structure Ends (l : StreamTable) : Prop where
  registered : ∀ o st, l.Listed st o → l.Registered o
  active : l.Quiet → ∀ o st, l.Listed st o → (l.connections st.conn).active = true
  closed : ∀ st ∈ l.attached, ¬ l.Registered st.session → l.Closing st ∧
    (l.Quiet → (l.connections st.conn).active = false)

theorem Kept.ends {l : StreamTable} (kept : Kept l) : l.Ends where
  registered o st member := (kept.listed o st member).1
  active quiet o st member := by
    have idle (thread : Nat) : (l.closers thread).onError = none := by rw [quiet.2 thread]
    rcases (kept.listed o st member).2.2 with ⟨thread, phase⟩ | ⟨-, up | ⟨thread, phase⟩⟩
    · rw [idle] at phase
      cases phase
    · exact up
    · rw [idle] at phase
      cases phase
  closed st member gone := by
    rcases kept.attached st member with present | closing
    · exact absurd (kept.listed _ st present).1 gone
    · refine ⟨closing, fun quiet => ?_⟩
      rcases closing with closed | ⟨thread, waiting | called⟩
      · exact closed
      · rw [quiet.2 thread] at waiting
        cases waiting
      · rw [quiet.2 thread] at called
        cases called

/-- In an orderly run every listed stream belongs to a session in `sessions_`, and to an active
    connection when no handler runs; and every stream of a session that is gone is closed
    or still to be closed by a thread that has not returned. -/
theorem no_stream_outlives_session {events : List StreamEvent} {l : StreamTable}
    (meets : Meets step Orderly initial events) (h : run step initial events = some l) : l.Ends :=
  (run_invariant step_kept kept_initial meets h).ends

/-- A stream that is attached, and a DELETE of its session up to its return. -/
def attachedThenDeleted : List StreamEvent :=
  [.creates (ascii "s"), .finds 0 (ascii "s") true, .installs 0, .attaches 0,
    .deletes 0 (ascii "s"), .advances 0, .advances 0, .advances 0, .advances 0]

theorem attachedThenDeleted_orderly : Meets step Orderly initial attachedThenDeleted := by
  have created : Orderly initial (.creates (ascii "s")) := by
    intro o present
    simp [initial] at present
  refine ⟨created, ?_⟩
  rintro _ ⟨⟩
  refine ⟨True.intro, ?_⟩
  rintro found ⟨⟩
  have unlisted (o : Nat) (st : SseStream) : ¬ (create initial (ascii "s")).Listed st o := by
    by_cases own : o = 0 <;> simp [Listed, create, initial, own]
  refine ⟨fun o st member => absurd member (unlisted o st), ?_⟩
  rintro installed ⟨⟩
  refine ⟨?_, ?_⟩
  · rintro st ⟨⟩
    exact ⟨by unfold Registered; decide +kernel, .inl (.inl rfl)⟩
  exact fun _ _ => ⟨True.intro, fun _ _ => ⟨True.intro, fun _ _ => ⟨True.intro, fun _ _ =>
    ⟨True.intro, fun _ _ => ⟨True.intro, fun _ _ => True.intro⟩⟩⟩⟩⟩

theorem deleted_stream_closed : ∃ l, run step initial attachedThenDeleted = some l ∧ l.Ends := by
  obtain ⟨l, ran⟩ : ∃ l, run step initial attachedThenDeleted = some l :=
    Option.isSome_iff_exists.mp (by decide +kernel)
  exact ⟨l, ran, no_stream_outlives_session attachedThenDeleted_orderly ran⟩

/-- A DELETE between the lookup of the session and the insertion of the stream. -/
def deletedBeforeAttached : List StreamEvent :=
  [.creates (ascii "s"), .finds 0 (ascii "s") true, .deletes 0 (ascii "s"), .installs 0, .attaches 0]

theorem stream_outlives_session : ¬ ∀ (events : List StreamEvent) (l : StreamTable),
    run step initial events = some l → l.Ends := by
  intro ends
  let orphan : SseStream := ⟨0, 0, 0⟩
  have outcome : (run step initial deletedBeforeAttached).map (fun l =>
      ((l.objects 0).sseConnections, l.sessions.lookup (l.objects 0).sessionId)) =
      some ([orphan], none) := by decide +kernel
  obtain ⟨l, ran, state⟩ := Option.map_eq_some_iff.mp outcome
  rw [Prod.mk.injEq] at state
  have listed : l.Listed orphan 0 := by
    unfold Listed
    rw [state.1]
    exact List.mem_singleton_self _
  have registered := (ends deletedBeforeAttached l ran).registered 0 orphan listed
  unfold Registered at registered
  rw [state.2] at registered
  cases registered

end StreamTable

end CppMcp
