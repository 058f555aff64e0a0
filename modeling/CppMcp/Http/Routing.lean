import CppMcp.Http.StreamSteps

namespace CppMcp

open Lib Function

/-- A frame handed to a stream: the push it comes from, and the session it was sent to, if to
    one. -/
structure PushedFrame where
  push : Nat
  target : Option SessionId
  stream : SseStream
  message : Json
deriving DecidableEq

/-- The streams with what is pushed to them. `asked` is the session id of the last GET of each
    connection, `owners` records that of the GET which opened each stream. -/
structure RoutedTable where
  table : StreamTable := .initial
  asked : Nat → SessionId := fun _ => []
  owners : List (SseStream × SessionId) := []
  pushes : Nat := 0
  frames : List PushedFrame := []

/-- A step of the sessions and streams, or one of the two pushes under the shared lock. -/
inductive RoutedEvent where
  | handles (event : StreamEvent)
  | pushesTo (id : SessionId) (message : Json)
  | pushesAll (message : Json)
deriving DecidableEq

def GetPhase.stream : GetPhase → Option SseStream
  | installed st => some st
  | _ => none

namespace StreamTable

/-- The streams of the session under an id. A listed `SseConnection` is active: its flag is cleared
    in the critical sections that clear the list. -/
def streamsOf (l : StreamTable) (id : SessionId) : List SseStream :=
  match l.sessions.lookup id with
  | some o => (l.objects o).sseConnections
  | none => []

end StreamTable

namespace RoutedTable

def push (r : RoutedTable) (target : Option SessionId) (streams : List SseStream)
    (message : Json) : RoutedTable :=
  { r with
    pushes := r.pushes + 1
    frames := r.frames ++ streams.map fun stream => ⟨r.pushes, target, stream, message⟩ }

/-- What a step of the table adds to the two histories. -/
def record (r : RoutedTable) (table : StreamTable) : StreamEvent → RoutedTable
  | .finds conn id _ => { r with table, asked := update r.asked conn id }
  | .installs conn =>
    { r with
      table
      owners := r.owners ++
        (table.connections conn).getSse.stream.toList.map fun st => (st, r.asked conn) }
  | _ => { r with table }

def step (r : RoutedTable) : RoutedEvent → Option RoutedTable
  | .handles event => (r.table.step event).map fun table => r.record table event
  | .pushesTo id message => some (r.push (some id) (r.table.streamsOf id) message)
  | .pushesAll message =>
    some (r.push none (r.table.sessions.keys.flatMap r.table.streamsOf) message)

end RoutedTable

namespace StreamTable

/-- No session, stream or `handle_get_sse` is new. -/
structure Drift (l l' : StreamTable) : Prop where
  sessions : ∀ id o, l'.sessions.lookup id = some o → l.sessions.lookup id = some o
  named : ∀ o, (l'.objects o).sessionId = (l.objects o).sessionId
  streams : ∀ o, (l'.objects o).sseConnections.Sublist (l.objects o).sseConnections
  objectCount : l'.objectCount = l.objectCount
  streamCount : l'.streamCount = l.streamCount
  attached : l'.attached = l.attached
  phases : ∀ conn, (l'.connections conn).getSse = (l.connections conn).getSse ∨
    (l'.connections conn).getSse = .idle

theorem Drift.refl (l : StreamTable) : Drift l l :=
  ⟨fun _ _ h => h, fun _ => rfl, fun _ => .refl _, rfl, rfl, rfl, fun _ => .inl rfl⟩

theorem Drift.setCloser {l l' : StreamTable} (drift : Drift l l') (thread : Nat)
    (closer : Closer) : Drift l (l'.setCloser thread closer) :=
  ⟨drift.sessions, drift.named, drift.streams, drift.objectCount, drift.streamCount,
    drift.attached, drift.phases⟩

theorem drift_setConnection (l : StreamTable) (conn : Nat) {c : StreamConnection}
    (phase : c.getSse = (l.connections conn).getSse ∨ c.getSse = .idle) :
    Drift l (l.setConnection conn c) := by
  refine { Drift.refl l with phases := fun other => ?_ }
  by_cases own : other = conn
  · subst own
    have connection : (l.setConnection other c).connections other = c := update_self _ _ _
    rw [connection]
    exact phase
  · have connection : (l.setConnection conn c).connections other = l.connections other :=
      update_of_ne own _ _
    rw [connection]
    exact .inl rfl

theorem drift_detach (l : StreamTable) (st : SseStream) : Drift l (l.detach st) := by
  refine { Drift.refl l with named := fun o => ?_, streams := fun o => ?_ }
  · exact sessionId_update l.objects st.session o _
  · by_cases own : o = st.session
    · subst own
      have session : (l.detach st).objects st.session = _ := update_self _ _ _
      rw [session]
      apply List.filter_sublist
    · have session : (l.detach st).objects o = l.objects o := update_of_ne own _ _
      rw [session]

theorem drift_drop (l : StreamTable) (thread : Nat) (ids : List SessionId) :
    Drift l (l.drop thread ids) := by
  refine { Drift.refl l with sessions := fun id o present => ?_, named := fun o => ?_,
                             streams := fun o => ?_ }
  · rw [drop_sessions] at present
    split at present
    · cases present
    · exact present
  · show (if o ∈ l.under ids then _ else _ : SessionObject).sessionId = _
    split <;> rfl
  · show (if o ∈ l.under ids then _ else _ : SessionObject).sseConnections.Sublist _
    split
    · exact List.nil_sublist _
    · exact .refl _

theorem drift_advance {l l' : StreamTable} {thread : Nat} (h : l.advance thread = some l') :
    Drift l l' := by
  unfold advance at h
  split at h
  · cases h
  · rename_i st rest _
    cases h
    let closed := { l.connections st.conn with socketOpen := false }
    exact (@drift_setConnection l st.conn closed (.inl rfl)).setCloser _ _
  · rename_i conn rest _
    split at h
    · cases h
      let inactive := { l.connections conn with active := false }
      exact (@drift_setConnection l conn inactive (.inl rfl)).setCloser _ _
    · cases h
      exact (Drift.refl l).setCloser _ _
  · cases h
    exact (Drift.refl l).setCloser _ _
  · cases h
    exact (drift_detach l _).setCloser _ _

/-- A new session, a lookup, a new stream and its insertion are the only steps that bring
    something. -/
theorem step_drift {l l' : StreamTable} {event : StreamEvent} (h : l.step event = some l') :
    (∃ id, event = .creates id) ∨ (∃ conn id accepts, event = .finds conn id accepts) ∨
      (∃ conn, event = .installs conn) ∨ (∃ conn, event = .attaches conn) ∨
        Drift l l' ∧ ∀ r : RoutedTable, r.record l' event = { r with table := l' } := by
  have last {event : StreamEvent} (drift : Drift l l')
      (plain : ∀ r : RoutedTable, r.record l' event = { r with table := l' }) :
      (∃ id, event = .creates id) ∨ (∃ conn id accepts, event = .finds conn id accepts) ∨
        (∃ conn, event = .installs conn) ∨ (∃ conn, event = .attaches conn) ∨
          Drift l l' ∧ ∀ r : RoutedTable, r.record l' event = { r with table := l' } :=
    .inr (.inr (.inr (.inr ⟨drift, plain⟩)))
  cases event with
  | creates id => exact .inl ⟨id, rfl⟩
  | finds conn id accepts => exact .inr (.inl ⟨conn, id, accepts, rfl⟩)
  | installs conn => exact .inr (.inr (.inl ⟨conn, rfl⟩))
  | attaches conn => exact .inr (.inr (.inr (.inl ⟨conn, rfl⟩)))
  | rollsBack id =>
    cases h
    refine last ?_ fun _ => rfl
    exact { Drift.refl l with sessions := fun other o present => (lookup_erase present).2 }
  | refuses conn =>
    simp only [step] at h
    split at h
    all_goals cases h
    all_goals exact last (drift_setConnection l conn (.inr rfl)) fun _ => rfl
  | errors thread conn =>
    obtain ⟨-, rfl⟩ := onThread_some h
    exact last ((Drift.refl l).setCloser _ _) fun _ => rfl
  | deletes thread id =>
    obtain ⟨-, rfl⟩ := onThread_some h
    exact last (drift_drop l thread _) fun _ => rfl
  | sweeps thread ids =>
    obtain ⟨-, rfl⟩ := onThread_some h
    exact last (drift_drop l thread ids) fun _ => rfl
  | stops thread =>
    obtain ⟨-, rfl⟩ := onThread_some h
    exact last (drift_drop l thread _) fun _ => rfl
  | advances thread => exact last (drift_advance h) fun _ => rfl

end StreamTable

namespace RoutedTable

open StreamTable

/-- Who asked for what: a stream belongs to the session whose id its GET presented, it is listed
    nowhere else, and it is listed once. -/
structure Sound (r : RoutedTable) : Prop where
  named : ∀ id o, r.table.sessions.lookup id = some o →
    (r.table.objects o).sessionId = id ∧ o < r.table.objectCount
  found : ∀ conn o, (r.table.connections conn).getSse = .found o →
    o < r.table.objectCount ∧ (r.table.objects o).sessionId = r.asked conn
  installed : ∀ conn st, (r.table.connections conn).getSse = .installed st →
    st.conn = conn ∧ st.session < r.table.objectCount ∧
      (r.table.objects st.session).sessionId = r.asked conn ∧
      (st, r.asked conn) ∈ r.owners ∧ st ∉ r.table.attached
  listed : ∀ o, ∀ st ∈ (r.table.objects o).sseConnections, st.session = o ∧
    (st, (r.table.objects o).sessionId) ∈ r.owners ∧ st ∈ r.table.attached
  single : ∀ o, (r.table.objects o).sseConnections.Nodup
  fresh : ∀ entry ∈ r.owners, entry.1.serial < r.table.streamCount
  distinct : (r.owners.map fun entry => entry.1.serial).Nodup
  attached : ∀ st ∈ r.table.attached, st.serial < r.table.streamCount

theorem initial_sound : Sound {} where
  named id o present := by simp [initial] at present
  found := nofun
  installed := nofun
  listed := nofun
  single o := List.nodup_nil
  fresh := nofun
  distinct := List.nodup_nil
  attached := nofun

theorem drift_sound {r : RoutedTable} (inv : r.Sound) {l : StreamTable}
    (drift : Drift r.table l) : Sound { r with table := l } where
  named id o present := by
    show (l.objects o).sessionId = id ∧ o < l.objectCount
    rw [drift.named, drift.objectCount]
    exact inv.named id o (drift.sessions id o present)
  found conn o phase := by
    show o < l.objectCount ∧ (l.objects o).sessionId = r.asked conn
    rw [drift.named, drift.objectCount]
    rcases drift.phases conn with same | idle
    · exact inv.found conn o (same.symm.trans phase)
    · exact absurd (idle.symm.trans phase) nofun
  installed conn st phase := by
    show _ ∧ st.session < l.objectCount ∧ (l.objects st.session).sessionId = _ ∧ _ ∧
      st ∉ l.attached
    rw [drift.named, drift.objectCount, drift.attached]
    rcases drift.phases conn with same | idle
    · exact inv.installed conn st (same.symm.trans phase)
    · exact absurd (idle.symm.trans phase) nofun
  listed o st member := by
    show _ ∧ (st, (l.objects o).sessionId) ∈ _ ∧ st ∈ l.attached
    rw [drift.named, drift.attached]
    exact inv.listed o st ((drift.streams o).subset member)
  single o := (inv.single o).sublist (drift.streams o)
  fresh entry member := by
    show _ < l.streamCount
    rw [drift.streamCount]
    exact inv.fresh entry member
  distinct := inv.distinct
  attached st member := by
    show _ < l.streamCount
    rw [drift.streamCount]
    exact inv.attached st (drift.attached ▸ member)

theorem creates_sound {r : RoutedTable} (inv : r.Sound) (id : SessionId) :
    Sound { r with table := r.table.create id } := by
  have new : (r.table.create id).objects r.table.objectCount = { sessionId := id } :=
    update_self _ _ _
  have old {o : Nat} (other : o ≠ r.table.objectCount) :
      (r.table.create id).objects o = r.table.objects o := update_of_ne other _ _
  refine ⟨?_, ?_, ?_, ?_, ?_, inv.fresh, inv.distinct, inv.attached⟩
  · intro key o present
    show _ ∧ o < r.table.objectCount + 1
    rcases lookup_insert_cases present with ⟨rfl, rfl⟩ | ⟨-, before⟩
    · exact ⟨congrArg SessionObject.sessionId new, Nat.lt_succ_self _⟩
    · obtain ⟨named, below⟩ := inv.named key o before
      refine ⟨?_, below.trans (Nat.lt_succ_self _)⟩
      rw [old below.ne]
      exact named
  · intro conn o phase
    obtain ⟨below, named⟩ := inv.found conn o phase
    refine ⟨below.trans (Nat.lt_succ_self _), ?_⟩
    show ((r.table.create id).objects o).sessionId = _
    rw [old below.ne]
    exact named
  · intro conn st phase
    obtain ⟨own, below, named, rest⟩ := inv.installed conn st phase
    refine ⟨own, below.trans (Nat.lt_succ_self _), ?_, rest⟩
    show ((r.table.create id).objects st.session).sessionId = _
    rw [old below.ne]
    exact named
  · intro o st member
    change st ∈ ((r.table.create id).objects o).sseConnections at member
    by_cases last : o = r.table.objectCount
    · rw [last, new] at member
      cases member
    · rw [old last] at member
      show _ ∧ (st, ((r.table.create id).objects o).sessionId) ∈ _ ∧ _
      rw [old last]
      exact inv.listed o st member
  · intro o
    show ((r.table.create id).objects o).sseConnections.Nodup
    by_cases last : o = r.table.objectCount
    · rw [last, new]
      exact List.nodup_nil
    · rw [old last]
      exact inv.single o

theorem connection_cases (l : StreamTable) (conn other : Nat) (c : StreamConnection) :
    (other = conn ∧ (l.setConnection conn c).connections other = c) ∨
      (other ≠ conn ∧ (l.setConnection conn c).connections other = l.connections other) := by
  by_cases own : other = conn
  · subst own
    exact .inl ⟨rfl, update_self _ _ _⟩
  · exact .inr ⟨own, update_of_ne own _ _⟩

theorem findSession_some {l : StreamTable} {id : SessionId} {o : Nat}
    (found : l.findSession id = some o) : l.sessions.lookup id = some o := by
  unfold findSession at found
  split at found
  · cases found
  · exact found

/-- `handle_get_sse` looks the session up under the id that the GET presents. -/
theorem finds_sound {r : RoutedTable} (inv : r.Sound) {conn : Nat} {id : SessionId}
    {phase : GetPhase} (looked : phase = .refusing ∨
      ∃ o, phase = .found o ∧ r.table.findSession id = some o) :
    Sound { r with
      table := r.table.setConnection conn { r.table.connections conn with getSse := phase }
      asked := update r.asked conn id } := by
  refine ⟨inv.named, fun other o at_phase => ?_, fun other st at_phase => ?_, inv.listed,
    inv.single, inv.fresh, inv.distinct, inv.attached⟩
  · rcases connection_cases r.table conn other
      { r.table.connections conn with getSse := phase } with ⟨rfl, now⟩ | ⟨apart, now⟩
    · rw [now] at at_phase
      show _ ∧ _ = update r.asked other id other
      rw [update_self]
      rcases looked with refusing | ⟨o', found, present⟩
      · exact absurd (at_phase.symm.trans refusing) nofun
      · obtain rfl : o = o' := GetPhase.found.inj (at_phase.symm.trans found)
        exact (inv.named id o (findSession_some present)).symm
    · rw [now] at at_phase
      show _ ∧ _ = update r.asked conn id other
      rw [update_of_ne apart]
      exact inv.found other o at_phase
  · rcases connection_cases r.table conn other
      { r.table.connections conn with getSse := phase } with ⟨rfl, now⟩ | ⟨apart, now⟩
    · rw [now] at at_phase
      rcases looked with refusing | ⟨o', found, -⟩
      · exact absurd (at_phase.symm.trans refusing) nofun
      · exact absurd (at_phase.symm.trans found) nofun
    · rw [now] at at_phase
      show _ ∧ _ ∧ _ = update r.asked conn id other ∧ (st, update r.asked conn id other) ∈ _ ∧ _
      rw [update_of_ne apart]
      exact inv.installed other st at_phase

theorem installs_sound {r : RoutedTable} (inv : r.Sound) {conn o : Nat}
    (found : (r.table.connections conn).getSse = .found o) :
    let st : SseStream := ⟨conn, o, r.table.streamCount⟩
    Sound { r with
      table := { r.table with streamCount := r.table.streamCount + 1 }.setConnection conn
        { r.table.connections conn with onDisconnect := some st, getSse := .installed st }
      owners := r.owners ++ [(st, r.asked conn)] } := by
  intro st
  have unowned : ∀ entry ∈ r.owners, entry.1.serial ≠ st.serial := fun entry member =>
    (inv.fresh entry member).ne
  have later {n : Nat} (below : n < r.table.streamCount) : n < r.table.streamCount + 1 :=
    below.trans (Nat.lt_succ_self _)
  have own (other : Nat) := connection_cases
    { r.table with streamCount := r.table.streamCount + 1 } conn other
    { r.table.connections conn with onDisconnect := some st, getSse := .installed st }
  refine ⟨inv.named, fun other o' at_phase => ?_, fun other st' at_phase => ?_, ?_, inv.single,
    fun entry member => ?_, ?_, fun st' member => later (inv.attached st' member)⟩
  · rcases own other with ⟨-, now⟩ | ⟨-, now⟩
    · rw [now] at at_phase
      cases at_phase
    · rw [now] at at_phase
      exact inv.found other o' at_phase
  · rcases own other with ⟨rfl, now⟩ | ⟨-, now⟩
    · rw [now] at at_phase
      obtain rfl : st = st' := GetPhase.installed.inj at_phase
      obtain ⟨below, named⟩ := inv.found other o found
      refine ⟨rfl, below, named, List.mem_append_right _ (List.mem_singleton_self _), ?_⟩
      exact fun member => absurd (inv.attached st member) (lt_irrefl _)
    · rw [now] at at_phase
      obtain ⟨at_conn, below, named, member, unattached⟩ := inv.installed other st' at_phase
      exact ⟨at_conn, below, named, List.mem_append_left _ member, unattached⟩
  · intro o' st' member
    obtain ⟨session, owned, attached⟩ := inv.listed o' st' member
    exact ⟨session, List.mem_append_left _ owned, attached⟩
  · rcases List.mem_append.mp member with before | new
    · exact later (inv.fresh entry before)
    · rw [List.mem_singleton.mp new]
      exact Nat.lt_succ_self _
  · show ((r.owners ++ [(st, r.asked conn)]).map fun entry => entry.1.serial).Nodup
    rw [List.map_append]
    refine List.Nodup.append inv.distinct (List.nodup_singleton _) fun serial before new => ?_
    obtain ⟨entry, member, rfl⟩ := List.mem_map.mp before
    exact unowned entry member (List.mem_singleton.mp new)

theorem attach_streams (l : StreamTable) (st : SseStream) (o : Nat) :
    ((l.attach st).objects o).sseConnections =
      (l.objects o).sseConnections ++ if o = st.session then [st] else [] := by
  by_cases own : o = st.session
  · subst own
    have session : (l.attach st).objects st.session = _ := update_self _ _ _
    rw [session, if_pos rfl]
  · have session : (l.attach st).objects o = l.objects o := update_of_ne own _ _
    rw [session, if_neg own, List.append_nil]

theorem attaches_sound {r : RoutedTable} (inv : r.Sound) {conn : Nat} {st : SseStream}
    (installed : (r.table.connections conn).getSse = .installed st) :
    let connection := { r.table.connections conn with getSse := .idle }
    Sound { r with table := (r.table.attach st).setConnection conn connection } := by
  intro connection
  obtain ⟨at_conn, below, named, owned, unattached⟩ := inv.installed conn st installed
  have sessionId (o : Nat) : ((r.table.attach st).objects o).sessionId =
      (r.table.objects o).sessionId := sessionId_update r.table.objects st.session o _
  have streams := attach_streams r.table st
  have phases (other : Nat) := connection_cases (r.table.attach st) conn other
    { r.table.connections conn with getSse := .idle }
  refine ⟨fun id o present => ?_, fun other o at_phase => ?_, fun other st' at_phase => ?_,
    fun o st' member => ?_, fun o => ?_, inv.fresh, inv.distinct, fun st' member => ?_⟩
  · show ((r.table.attach st).objects o).sessionId = id ∧ _
    rw [sessionId]
    exact inv.named id o present
  · show _ ∧ ((r.table.attach st).objects o).sessionId = _
    rw [sessionId]
    rcases phases other with ⟨-, now⟩ | ⟨-, now⟩
    · exact absurd ((congrArg StreamConnection.getSse now).symm.trans at_phase) nofun
    · exact inv.found other o ((congrArg StreamConnection.getSse now).symm.trans at_phase)
  · show _ ∧ _ ∧ ((r.table.attach st).objects st'.session).sessionId = _ ∧ _ ∧
      st' ∉ r.table.attached ++ [st]
    rw [sessionId]
    rcases phases other with ⟨-, now⟩ | ⟨apart, now⟩
    · exact absurd ((congrArg StreamConnection.getSse now).symm.trans at_phase) nofun
    · obtain ⟨own, below', named', owned', unattached'⟩ :=
        inv.installed other st' ((congrArg StreamConnection.getSse now).symm.trans at_phase)
      refine ⟨own, below', named', owned', fun member => ?_⟩
      rcases List.mem_append.mp member with before | new
      · exact unattached' before
      · rw [List.mem_singleton.mp new, at_conn] at own
        exact apart own.symm
  · change st' ∈ ((r.table.attach st).objects o).sseConnections at member
    show _ ∧ (st', ((r.table.attach st).objects o).sessionId) ∈ _ ∧ st' ∈ r.table.attached ++ [st]
    rw [sessionId]
    rw [streams] at member
    rcases List.mem_append.mp member with before | new
    · obtain ⟨session, owned', attached⟩ := inv.listed o st' before
      exact ⟨session, owned', List.mem_append_left _ attached⟩
    · split at new
      · rename_i own
        rw [List.mem_singleton.mp new, own, named]
        exact ⟨rfl, owned, List.mem_append_right _ (List.mem_singleton_self _)⟩
      · cases new
  · show ((r.table.attach st).objects o).sseConnections.Nodup
    rw [streams]
    split
    · refine List.Nodup.append (inv.single o) (List.nodup_singleton _) fun st' before new => ?_
      rw [List.mem_singleton.mp new] at before
      exact unattached (inv.listed o st before).2.2
    · rw [List.append_nil]
      exact inv.single o
  · rcases List.mem_append.mp member with before | new
    · exact inv.attached st' before
    · rw [List.mem_singleton.mp new]
      exact inv.fresh _ owned

theorem handles_sound {r : RoutedTable} (inv : r.Sound) {event : StreamEvent} {l : StreamTable}
    (h : r.table.step event = some l) : (r.record l event).Sound := by
  rcases step_drift h with ⟨id, rfl⟩ | ⟨conn, id, accepts, rfl⟩ | ⟨conn, rfl⟩ | ⟨conn, rfl⟩ |
    ⟨drift, plain⟩
  · cases h
    exact creates_sound inv id
  · simp only [StreamTable.step] at h
    split at h
    · cases h
      apply finds_sound inv
      cases found : r.table.findSession id with
      | none => exact .inl rfl
      | some o =>
        cases accepts with
        | true => exact .inr ⟨o, rfl, rfl⟩
        | false => exact .inl rfl
    · cases h
  · simp only [StreamTable.step] at h
    split at h
    · rename_i o found
      cases h
      have opened := installs_sound inv found
      let st : SseStream := ⟨conn, o, r.table.streamCount⟩
      let tied := { r.table with streamCount := r.table.streamCount + 1 }.setConnection conn
        { r.table.connections conn with onDisconnect := some st, getSse := .installed st }
      have now : tied.connections conn = _ := update_self _ _ _
      show Sound { r with
        table := tied
        owners := r.owners ++
          (tied.connections conn).getSse.stream.toList.map fun st => (st, r.asked conn) }
      rw [now]
      exact opened
    · cases h
  · simp only [StreamTable.step] at h
    split at h
    · rename_i st installed
      cases h
      exact attaches_sound inv installed
    · cases h
  · rw [plain]
    exact drift_sound inv drift

/-- A push only writes to the streams. -/
theorem push_sound {r : RoutedTable} (inv : r.Sound) (target : Option SessionId)
    (streams : List SseStream) (message : Json) : (r.push target streams message).Sound :=
  ⟨inv.named, inv.found, inv.installed, inv.listed, inv.single, inv.fresh, inv.distinct,
    inv.attached⟩

theorem step_sound {r r' : RoutedTable} {event : RoutedEvent} (inv : r.Sound)
    (h : r.step event = some r') : r'.Sound := by
  cases event with
  | handles event =>
    obtain ⟨l, stepped, rfl⟩ := Option.map_eq_some_iff.mp h
    exact handles_sound inv stepped
  | pushesTo id message =>
    cases h
    exact push_sound inv _ _ _
  | pushesAll message =>
    cases h
    exact push_sound inv _ _ _

theorem mem_streamsOf {l : StreamTable} {id : SessionId} {st : SseStream}
    (listed : st ∈ l.streamsOf id) :
    ∃ o, l.sessions.lookup id = some o ∧ st ∈ (l.objects o).sseConnections := by
  unfold streamsOf at listed
  split at listed
  · rename_i o present
    exact ⟨o, present, listed⟩
  · cases listed

/-- A stream that a session lists was opened by a GET with the id of that session. -/
theorem Sound.owned {r : RoutedTable} (inv : r.Sound) {id : SessionId} {st : SseStream}
    (listed : st ∈ r.table.streamsOf id) : (st, id) ∈ r.owners ∧ st ∈ r.table.attached := by
  obtain ⟨o, present, member⟩ := mem_streamsOf listed
  obtain ⟨-, owned, attached⟩ := inv.listed o st member
  rw [(inv.named id o present).1] at owned
  exact ⟨owned, attached⟩

theorem Sound.owner {r : RoutedTable} (inv : r.Sound) {st : SseStream} {id other : SessionId}
    (owned : (st, id) ∈ r.owners) (also : (st, other) ∈ r.owners) : other = id := by
  have same : (st, other) = (st, id) := List.inj_on_of_nodup_map inv.distinct also owned rfl
  exact congrArg Prod.snd same

theorem Sound.streamsOf_nodup {r : RoutedTable} (inv : r.Sound) (id : SessionId) :
    (r.table.streamsOf id).Nodup := by
  unfold streamsOf
  split
  · exact inv.single _
  · exact List.nodup_nil

theorem Sound.all_nodup {r : RoutedTable} (inv : r.Sound) :
    (r.table.sessions.keys.flatMap r.table.streamsOf).Nodup := by
  rw [List.nodup_flatMap]
  refine ⟨fun id _ => inv.streamsOf_nodup id, ?_⟩
  refine r.table.sessions.keys_nodup.imp fun {id other} apart st first second => apart ?_
  exact inv.owner (inv.owned second).1 (inv.owned first).1

/-- What a stream is handed by an event: the message of a push that finds it listed. -/
def heard (st : SseStream) (r : RoutedTable) : RoutedEvent → List Json
  | .handles _ => []
  | .pushesTo id message => if st ∈ r.table.streamsOf id then [message] else []
  | .pushesAll message =>
    if st ∈ r.table.sessions.keys.flatMap r.table.streamsOf then [message] else []

def framesOf (r : RoutedTable) (st : SseStream) : List PushedFrame :=
  r.frames.filter fun frame => frame.stream = st

theorem push_framesOf (r : RoutedTable) (target : Option SessionId) {streams : List SseStream}
    (message : Json) (nodup : streams.Nodup) (st : SseStream) :
    (r.push target streams message).framesOf st =
      r.framesOf st ++ if st ∈ streams then [⟨r.pushes, target, st, message⟩] else [] := by
  have mine : ((fun frame : PushedFrame => decide (frame.stream = st)) ∘ fun stream =>
      (⟨r.pushes, target, stream, message⟩ : PushedFrame)) = fun stream => stream == st := by
    funext stream
    rfl
  unfold framesOf push
  rw [List.filter_append, List.filter_map, mine, List.filter_beq]
  split
  · rename_i member
    rw [List.count_eq_one_of_mem nodup member]
    rfl
  · rename_i missing
    rw [List.count_eq_zero_of_not_mem missing]
    rfl

theorem step_framesOf {r r' : RoutedTable} {event : RoutedEvent} (inv : r.Sound)
    (h : r.step event = some r') (st : SseStream) :
    (r'.framesOf st).map PushedFrame.message =
      (r.framesOf st).map PushedFrame.message ++ heard st r event := by
  cases event with
  | handles event =>
    obtain ⟨l, -, rfl⟩ := Option.map_eq_some_iff.mp h
    have same : (r.record l event).framesOf st = r.framesOf st := by cases event <;> rfl
    rw [same, heard, List.append_nil]
  | pushesTo id message =>
    cases h
    rw [push_framesOf r _ message (inv.streamsOf_nodup id), List.map_append, heard]
    split <;> rfl
  | pushesAll message =>
    cases h
    rw [push_framesOf r _ message inv.all_nodup, List.map_append, heard]
    split <;> rfl

/-- The streams of the frames are owned, by the session the frame was sent to if to one. -/
def Addressed (r : RoutedTable) : Prop :=
  ∀ frame ∈ r.frames, ∃ id, (frame.stream, id) ∈ r.owners ∧
    ∀ target, frame.target = some target → target = id

theorem push_addressed {r : RoutedTable} (addressed : r.Addressed) {target : Option SessionId}
    {streams : List SseStream} (message : Json)
    (owned : ∀ st ∈ streams, ∃ id, (st, id) ∈ r.owners ∧ ∀ other, target = some other → other = id) :
    (r.push target streams message).Addressed := by
  intro frame member
  rcases List.mem_append.mp member with before | new
  · exact addressed frame before
  · obtain ⟨st, listed, rfl⟩ := List.mem_map.mp new
    exact owned st listed

theorem step_addressed {r r' : RoutedTable} {event : RoutedEvent} (inv : r.Sound)
    (addressed : r.Addressed) (h : r.step event = some r') : r'.Addressed := by
  cases event with
  | handles event =>
    obtain ⟨l, -, rfl⟩ := Option.map_eq_some_iff.mp h
    have more : r.owners ⊆ (r.record l event).owners := by
      cases event with
      | installs conn => exact List.subset_append_left _ _
      | _ => exact List.Subset.refl _
    have frames : (r.record l event).frames = r.frames := by cases event <;> rfl
    intro frame member
    obtain ⟨id, owned, sent⟩ := addressed frame (frames ▸ member)
    exact ⟨id, more owned, sent⟩
  | pushesTo id message =>
    cases h
    refine push_addressed addressed message fun st listed => ⟨id, (inv.owned listed).1, ?_⟩
    exact fun other same => (Option.some.inj same).symm
  | pushesAll message =>
    cases h
    refine push_addressed addressed message fun st listed => ?_
    obtain ⟨id, -, member⟩ := List.mem_flatMap.mp listed
    exact ⟨id, (inv.owned member).1, nofun⟩

/-- A stream that no session lists any more. -/
def Gone (st : SseStream) (r : RoutedTable) : Prop :=
  st ∈ r.table.attached ∧ ∀ id, st ∉ r.table.streamsOf id

theorem gone_of_sublists {st : SseStream} {r : RoutedTable} (gone : Gone st r) {r' : RoutedTable}
    (attached : r.table.attached ⊆ r'.table.attached)
    (listed : ∀ id o, r'.table.sessions.lookup id = some o →
      st ∈ (r'.table.objects o).sseConnections →
      r.table.sessions.lookup id = some o ∧ st ∈ (r.table.objects o).sseConnections) :
    Gone st r' := by
  refine ⟨attached gone.1, fun id member => gone.2 id ?_⟩
  obtain ⟨o, present, inside⟩ := mem_streamsOf member
  obtain ⟨before, there⟩ := listed id o present inside
  simp only [streamsOf, before]
  exact there

theorem step_gone {r r' : RoutedTable} {event : RoutedEvent} (inv : r.Sound) {st : SseStream}
    (gone : Gone st r) (h : r.step event = some r') : Gone st r' := by
  cases event with
  | handles event =>
    obtain ⟨l, stepped, rfl⟩ := Option.map_eq_some_iff.mp h
    rcases step_drift stepped with ⟨id, rfl⟩ | ⟨conn, id, accepts, rfl⟩ | ⟨conn, rfl⟩ |
      ⟨conn, rfl⟩ | ⟨drift, plain⟩
    · cases stepped
      refine gone_of_sublists gone (List.Subset.refl _) fun key o present inside => ?_
      change st ∈ ((r.table.create id).objects o).sseConnections at inside
      by_cases last : o = r.table.objectCount
      · have new : (r.table.create id).objects r.table.objectCount = _ := update_self _ _ _
        rw [last, new] at inside
        cases inside
      · have old : (r.table.create id).objects o = r.table.objects o := update_of_ne last _ _
        rw [old] at inside
        rcases lookup_insert_cases present with ⟨-, rfl⟩ | ⟨-, before⟩
        · exact absurd rfl last
        · exact ⟨before, inside⟩
    · simp only [StreamTable.step] at stepped
      split at stepped
      all_goals cases stepped
      exact gone
    · simp only [StreamTable.step] at stepped
      split at stepped
      all_goals cases stepped
      exact gone
    · simp only [StreamTable.step] at stepped
      split at stepped
      · rename_i other installed
        cases stepped
        have unattached := (inv.installed conn other installed).2.2.2.2
        refine gone_of_sublists gone (List.subset_append_left _ _) fun id o present inside => ?_
        change st ∈ ((r.table.attach other).objects o).sseConnections at inside
        rw [attach_streams] at inside
        rcases List.mem_append.mp inside with before | new
        · exact ⟨present, before⟩
        · split at new
          · exact absurd (List.mem_singleton.mp new ▸ gone.1) unattached
          · cases new
      · cases stepped
    · rw [plain]
      refine gone_of_sublists gone (fun _ member => drift.attached ▸ member) ?_
      exact fun id o present inside =>
        ⟨drift.sessions id o present, (drift.streams o).subset inside⟩
  | pushesTo id message =>
    cases h
    exact gone
  | pushesAll message =>
    cases h
    exact gone

theorem gone_framesOf {r r' : RoutedTable} {event : RoutedEvent} (inv : r.Sound) {st : SseStream}
    (gone : Gone st r) (h : r.step event = some r') : r'.framesOf st = r.framesOf st := by
  cases event with
  | handles event =>
    obtain ⟨l, -, rfl⟩ := Option.map_eq_some_iff.mp h
    cases event <;> rfl
  | pushesTo id message =>
    cases h
    rw [push_framesOf r _ message (inv.streamsOf_nodup id), if_neg (gone.2 id), List.append_nil]
  | pushesAll message =>
    cases h
    have unlisted : st ∉ r.table.sessions.keys.flatMap r.table.streamsOf := fun listed => by
      obtain ⟨id, -, member⟩ := List.mem_flatMap.mp listed
      exact gone.2 id member
    rw [push_framesOf r _ message inv.all_nodup, if_neg unlisted, List.append_nil]

/-- In every interleaving of pushes with the handlers, a stream is handed the messages of exactly
    the pushes that find it listed, once each and in order, and never one to another session than
    the one its GET named. Once no session lists it, it is handed nothing. -/
theorem pushes_routed {events : List RoutedEvent} {r : RoutedTable}
    (ran : run step {} events = some r) (st : SseStream) :
    (r.framesOf st).map PushedFrame.message = produced step (heard st) {} events ∧
      (∀ frame ∈ r.framesOf st, ∃ id, (st, id) ∈ r.owners ∧
        (∀ other, (st, other) ∈ r.owners → other = id) ∧
          ∀ target, frame.target = some target → target = id) ∧
      (st ∈ r.table.attached → (∀ id, st ∉ r.table.streamsOf id) → ∀ later r',
        run step r later = some r' → r'.framesOf st = r.framesOf st) := by
  let messages : RoutedTable → List Json := fun r => (r.framesOf st).map PushedFrame.message
  have pushed : messages r = [] ++ produced step (heard st) {} events :=
    @run_produced _ _ _ _ Sound messages (heard st) (fun _ _ _ inv h => step_sound inv h)
      (fun _ _ _ inv h => step_framesOf inv h st) _ _ _ initial_sound ran
  have addressed : r.Sound ∧ r.Addressed := by
    apply @run_keeps _ _ step (fun r => r.Sound ∧ r.Addressed) _ _ _ _ ⟨initial_sound, nofun⟩ ran
    exact fun s e s' inv h => ⟨step_sound inv.1 h, step_addressed inv.1 inv.2 h⟩
  refine ⟨pushed, fun frame member => ?_, fun attached unlisted later r' more => ?_⟩
  · obtain ⟨inside, mine⟩ := List.mem_filter.mp member
    obtain ⟨id, owned, sent⟩ := addressed.2 frame inside
    rw [of_decide_eq_true mine] at owned
    exact ⟨id, owned, fun other also => addressed.1.owner owned also, sent⟩
  · have kept : r'.Sound ∧ Gone st r' ∧ r'.framesOf st = r.framesOf st := by
      apply @run_keeps _ _ step (fun t => t.Sound ∧ Gone st t ∧ t.framesOf st = r.framesOf st)
        _ _ _ _ ⟨addressed.1, ⟨attached, unlisted⟩, rfl⟩ more
      rintro s e s' ⟨sound, gone, same⟩ h
      exact ⟨step_sound sound h, step_gone sound gone h, (gone_framesOf sound gone h).trans same⟩
    exact kept.2.2

/-- Two sessions with a stream each: a push to the first and one to both, then the DELETE of the
    first and the same again. -/
def pushedAroundDelete : List RoutedEvent :=
  [.handles (.creates (ascii "s")), .handles (.creates (ascii "t")),
    .handles (.finds 0 (ascii "s") true), .handles (.installs 0), .handles (.attaches 0),
    .handles (.finds 1 (ascii "t") true), .handles (.installs 1), .handles (.attaches 1),
    .pushesTo (ascii "s") (.string "own"), .pushesAll (.string "both"),
    .handles (.deletes 0 (ascii "s")),
    .pushesTo (ascii "s") (.string "late"), .pushesAll (.string "rest")]

theorem pushes_routed_around_delete : ∃ r, run step {} pushedAroundDelete = some r ∧
    (r.framesOf ⟨0, 0, 0⟩).map PushedFrame.message = [.string "own", .string "both"] ∧
    (r.framesOf ⟨1, 1, 1⟩).map PushedFrame.message = [.string "both", .string "rest"] ∧
    ∀ later r', run step r later = some r' → r'.framesOf ⟨0, 0, 0⟩ = r.framesOf ⟨0, 0, 0⟩ := by
  have outcome : (run step {} pushedAroundDelete).map (fun r =>
      (r.table.attached, (r.table.objects 0).sseConnections, (r.table.objects 1).sseConnections,
        r.table.sessions.keys.map r.table.sessions.lookup)) =
      some ([⟨0, 0, 0⟩, ⟨1, 1, 1⟩], [], [⟨1, 1, 1⟩], [some 1]) := by decide +kernel
  obtain ⟨r, ran, state⟩ := Option.map_eq_some_iff.mp outcome
  simp only [Prod.mk.injEq] at state
  obtain ⟨attached, -, second, sessions⟩ := state
  obtain ⟨own, -, silent⟩ := pushes_routed ran ⟨0, 0, 0⟩
  refine ⟨r, ran, own.trans (by decide +kernel), ?_, silent ?_ fun id listed => ?_⟩
  · exact (pushes_routed ran ⟨1, 1, 1⟩).1.trans (by decide +kernel)
  · rw [attached]
    exact List.mem_cons_self
  · obtain ⟨o, present, inside⟩ := mem_streamsOf listed
    have key : id ∈ r.table.sessions.keys := AList.lookup_isSome.mp (Option.isSome_of_eq_some present)
    have left : some o ∈ [some 1] := sessions ▸ List.mem_map.mpr ⟨id, key, present⟩
    obtain rfl : o = 1 := Option.some.inj (List.mem_singleton.mp left)
    rw [second] at inside
    cases List.mem_singleton.mp inside

end RoutedTable

end CppMcp
