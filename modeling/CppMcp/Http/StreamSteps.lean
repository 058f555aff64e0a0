import CppMcp.Http.StreamLife

namespace CppMcp

open Lib Function

namespace StreamTable

variable {ω : Type}

/-- The table has the sessions of a transport, with their streams in order. -/
def Shows (l : StreamTable) (t : HttpTransport ω) : Prop :=
  ∀ id, (t.sessions.lookup id).map (fun s => (s.sessionId, s.sseConnections)) =
    (l.sessions.lookup id).map fun o =>
      ((l.objects o).sessionId, (l.objects o).sseConnections.map SseStream.conn)

theorem Shows.found {l : StreamTable} {t : HttpTransport ω} (shows : l.Shows t) (kept : Kept l)
    {id : SessionId} {session : HttpSession} (found : t.findSession id = some session) :
    ∃ o, l.findSession id = some o ∧ l.sessions.lookup id = some o ∧ session.sessionId = id ∧
      session.sseConnections = (l.objects o).sseConnections.map SseStream.conn := by
  simp only [HttpTransport.findSession, Option.ite_none_left_eq_some] at found
  have same := shows id
  rw [found.2] at same
  obtain ⟨o, present, pair⟩ := Option.map_eq_some_iff.mp same.symm
  rw [Prod.mk.injEq] at pair
  refine ⟨o, ?_, present, pair.1.symm.trans (kept.named id o present).1, pair.2.symm⟩
  simp only [findSession, if_neg found.1, present]

theorem Shows.missing {l : StreamTable} {t : HttpTransport ω} (shows : l.Shows t)
    {id : SessionId} (missing : t.findSession id = none) : l.findSession id = none := by
  unfold findSession
  split
  · rfl
  · rename_i named
    have same := shows id
    simp only [HttpTransport.findSession, if_neg named] at missing
    rw [missing] at same
    exact Option.map_eq_none_iff.mp same.symm

theorem get_refused {l : StreamTable} {t : HttpTransport ω} (shows : l.Shows t) {conn : Nat}
    (id : SessionId) (accepts : Bool) (idle : (l.connections conn).getSse = .idle)
    (refused : l.findSession id = none ∨ accepts = false) :
    ∃ l', run step l [.finds conn id accepts, .refuses conn] = some l' ∧ l'.Shows t ∧
      (l'.connections conn).getSse = .idle ∧ (l'.connections conn).active = false := by
  let waiting := l.setConnection conn { l.connections conn with getSse := .refusing }
  have own : waiting.connections conn = { l.connections conn with getSse := .refusing } :=
    update_self _ _ _
  have finds : l.step (.finds conn id accepts) = some waiting := by
    simp only [step, idle]
    rcases refused with missing | refused
    · rw [missing]
    · rw [refused]
      cases l.findSession id <;> rfl
  let closed := waiting.setConnection conn
    { l.connections conn with active := false, getSse := .idle }
  have refuses : waiting.step (.refuses conn) = some closed := by simp only [step, own]; rfl
  have last : closed.connections conn = _ := update_self _ _ _
  refine ⟨closed, ?_, shows, ?_, ?_⟩
  · simp only [run, finds, refuses, Option.bind_some]
  · rw [last]
  · rw [last]

theorem get_attached {l : StreamTable} {t : HttpTransport ω} (kept : Kept l) (shows : l.Shows t)
    {conn o : Nat} {session : HttpSession} {id : SessionId} (idle : (l.connections conn).getSse = .idle)
    (found : l.findSession id = some o) (present : l.sessions.lookup id = some o)
    (name : session.sessionId = id)
    (streams : session.sseConnections = (l.objects o).sseConnections.map SseStream.conn) :
    ∃ l', run step l [.finds conn id true, .installs conn, .attaches conn] = some l' ∧
      l'.Shows { t with sessions := (t.sessions.insert session.sessionId
        { session with sseConnections := session.sseConnections ++ [conn] }) } ∧
      (l'.connections conn).getSse = .idle ∧
      (l'.connections conn).active = (l.connections conn).active := by
  let looked := l.setConnection conn { l.connections conn with getSse := .found o }
  have first : looked.connections conn = { l.connections conn with getSse := .found o } :=
    update_self _ _ _
  have finds : l.step (.finds conn id true) = some looked := by
    simp only [step, idle, found]
    rfl
  let st : SseStream := ⟨conn, o, l.streamCount⟩
  let tied := { looked with streamCount := looked.streamCount + 1 }.setConnection conn
    { l.connections conn with onDisconnect := some st, getSse := .installed st }
  have second : tied.connections conn = _ := update_self _ _ _
  have installs : looked.step (.installs conn) = some tied := by
    simp only [step, first]
    rfl
  let opened := (tied.attach st).setConnection conn
    { l.connections conn with onDisconnect := some st, getSse := .idle }
  have third : opened.connections conn = _ := update_self _ _ _
  have attaches : tied.step (.attaches conn) = some opened := by
    simp only [step, second]
    rfl
  refine ⟨opened, ?_, fun other => ?_, ?_, ?_⟩
  · simp only [run, finds, installs, attaches, Option.bind_some]
  · have new : opened.objects o = { l.objects o with
        sseConnections := (l.objects o).sseConnections ++ [st] } := update_self _ _ _
    by_cases own : other = id
    · subst own
      show Option.map _ ((t.sessions.insert session.sessionId _).lookup other) =
        Option.map _ (l.sessions.lookup other)
      rw [name, AList.lookup_insert, present, Option.map_some, Option.map_some, new,
        (kept.named other o present).1, streams, List.map_append]
      rfl
    · show Option.map _ ((t.sessions.insert session.sessionId _).lookup other) =
        Option.map _ (l.sessions.lookup other)
      rw [name, AList.lookup_insert_ne own, shows other]
      cases stored : l.sessions.lookup other with
      | none => rfl
      | some o' =>
        have apart : o' ≠ o := by
          rintro rfl
          exact own ((kept.named other o' stored).1.symm.trans (kept.named id o' present).1)
        have same : opened.objects o' = l.objects o' := update_of_ne apart _ _
        rw [Option.map_some, Option.map_some, same]
  · rw [third]
  · rw [third]

/-- Left alone, `handle_get_sse` does to the sessions what it does as one step. -/
theorem get_uninterrupted {l : StreamTable} {t : HttpTransport ω} (kept : Kept l)
    (shows : l.Shows t) (conn : Nat) (req : HttpRequest)
    (idle : (l.connections conn).getSse = .idle) :
    ∃ rest l', run step l (.finds conn (req.headers.valueOf "mcp-session-id")
        ((req.headers.valueOf "accept").has "text/event-stream") :: rest) = some l' ∧
      l'.Shows (HttpEnv.handleGetSse t conn req).transport ∧
      (l'.connections conn).getSse = .idle ∧ (l'.connections conn).active =
        ((l.connections conn).active && !(HttpEnv.handleGetSse t conn req).cleared) := by
  unfold HttpEnv.handleGetSse
  cases sought : t.findSession (req.headers.valueOf "mcp-session-id") with
  | none =>
    obtain ⟨l', ran, still, idle, closed⟩ :=
      get_refused shows (req.headers.valueOf "mcp-session-id")
        ((req.headers.valueOf "accept").has "text/event-stream") idle (.inl (shows.missing sought))
    exact ⟨_, l', ran, still, idle, by simp [closed, refuse]⟩
  | some session =>
    cases accepts : (req.headers.valueOf "accept").has "text/event-stream" with
    | false =>
      obtain ⟨l', ran, still, idle, closed⟩ :=
        get_refused shows (req.headers.valueOf "mcp-session-id") false idle (.inr rfl)
      exact ⟨_, l', ran, still, idle, by simp [closed, refuse]⟩
    | true =>
      obtain ⟨o, found, present, name, streams⟩ := shows.found kept sought
      obtain ⟨l', ran, now, idle, active⟩ :=
        get_attached kept shows idle found present name streams
      exact ⟨_, l', ran, now, idle, by simp [active]⟩

theorem drop_sessions (l : StreamTable) (thread : Nat) (ids : List SessionId) (other : SessionId) :
    (l.drop thread ids).sessions.lookup other =
      if other ∈ ids then none else l.sessions.lookup other :=
  (lookup_foldl_erase ids l.sessions other).trans (by congr)

theorem drop_toClose (l : StreamTable) (thread : Nat) (ids : List SessionId) :
    ((l.drop thread ids).closers thread).toClose =
      (l.under ids).flatMap fun o => (l.objects o).sseConnections := by
  have own : (l.drop thread ids).closers thread = _ := update_self _ _ _
  rw [own]

theorem drop_unknown {l : StreamTable} {t : HttpTransport ω} (shows : l.Shows t) (thread : Nat)
    {ids : List SessionId} (absent : ∀ id ∈ ids, l.sessions.lookup id = none) :
    (l.drop thread ids).Shows t ∧ ((l.drop thread ids).closers thread).toClose = [] := by
  have unknown : l.under ids = [] := List.filterMap_eq_nil_iff.mpr absent
  have kept (o : Nat) : (l.drop thread ids).objects o = l.objects o := by
    apply if_neg
    rw [unknown]
    exact List.not_mem_nil
  constructor
  · intro other
    have same : (l.drop thread ids).sessions.lookup other = l.sessions.lookup other := by
      rw [drop_sessions]
      split
      · exact (absent other ‹_›).symm
      · rfl
    simp only [same, kept]
    exact shows other
  · rw [drop_toClose, unknown]
    rfl

theorem drop_one {l : StreamTable} {t : HttpTransport ω} (kept : Kept l) (shows : l.Shows t)
    (thread : Nat) {id : SessionId} {o : Nat} (present : l.sessions.lookup id = some o) :
    (l.drop thread [id]).Shows { t with sessions := t.sessions.erase id } ∧
      ((l.drop thread [id]).closers thread).toClose = (l.objects o).sseConnections := by
  have dropped : l.under [id] = [o] := by simp [under, present]
  constructor
  · intro other
    show Option.map _ ((t.sessions.erase id).lookup other) = _
    rw [drop_sessions]
    by_cases own : other = id
    · subst own
      rw [AList.lookup_erase, if_pos (List.mem_singleton_self _)]
      rfl
    · rw [AList.lookup_erase_ne own, if_neg (fun member => own (List.mem_singleton.mp member)),
        shows other]
      cases stored : l.sessions.lookup other with
      | none => rfl
      | some o' =>
        have apart : o' ≠ o := by
          rintro rfl
          exact own ((kept.named other o' stored).1.symm.trans (kept.named id o' present).1)
        have same : (l.drop thread [id]).objects o' = l.objects o' := by
          apply if_neg
          rw [dropped]
          exact fun member => apart (List.mem_singleton.mp member)
        rw [Option.map_some, Option.map_some, same]
  · rw [drop_toClose, dropped, List.flatMap_singleton]

/-- The critical section of `handle_delete` does to the sessions what `handle_delete` does as one
    step, and leaves its thread the streams to close. -/
theorem delete_uninterrupted {l : StreamTable} {t : HttpTransport ω} (kept : Kept l)
    (shows : l.Shows t) (thread : Nat) (req : HttpRequest) (free : l.closers thread = {}) :
    ∃ l', l.step (.deletes thread (req.headers.valueOf "mcp-session-id")) = some l' ∧
      l'.Shows (HttpEnv.handleDelete t req).transport ∧
      (l'.closers thread).toClose.map SseStream.conn = (HttpEnv.handleDelete t req).closed := by
  have stepped (ids : List SessionId) : l.onThread thread (l.drop thread ids) =
      some (l.drop thread ids) := if_pos free
  refine ⟨_, stepped _, ?_⟩
  unfold HttpEnv.handleDelete
  generalize req.headers.valueOf "mcp-session-id" = id
  cases sought : t.findSession id with
  | none =>
    have absent : ∀ other ∈ (if id.isEmpty then [] else [id]), l.sessions.lookup other = none := by
      intro other member
      have missing := shows.missing sought
      unfold findSession at missing
      split at missing
      · rw [if_pos ‹_›] at member
        cases member
      · rw [if_neg ‹_›] at member
        rw [List.mem_singleton.mp member]
        exact missing
    obtain ⟨still, none⟩ := drop_unknown shows thread absent
    exact ⟨still, congrArg (List.map SseStream.conn) none⟩
  | some session =>
    obtain ⟨o, found, present, name, streams⟩ := shows.found kept sought
    have known : (if id.isEmpty then [] else [id]) = [id] := by
      simp only [findSession, Option.ite_none_left_eq_some] at found
      rw [if_neg found.1]
    rw [known]
    obtain ⟨now, closes⟩ := drop_one kept shows thread present
    exact ⟨now, (congrArg (List.map SseStream.conn) closes).trans streams.symm⟩

end StreamTable

end CppMcp
