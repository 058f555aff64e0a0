import CppMcp.Lib.Threads
import CppMcp.Queue.WriteQueue

namespace CppMcp

open Lib

inductive PipeMode where
  | singleClient
  | multiClient
deriving DecidableEq

/-- What of a `LocalPipeConfig` bears on which connections are listed. -/
structure LocalPipeConfig where
  mode : PipeMode := .singleClient
  maxInstances : Int := 4
  writeQueueMaxBytes : Nat := 0
  writeQueueOverflow : QueueOverflowPolicy := .dropNewest

/-- A write queue that overflows calls `on_error`. -/
def LocalPipeConfig.closesOnOverflow (config : LocalPipeConfig) : Bool :=
  decide (0 < config.writeQueueMaxBytes ∧ config.writeQueueOverflow = .closeOnError)

/-- What `init_write_queue` constructs a connection's queue with. -/
def LocalPipeConfig.writeQueue (config : LocalPipeConfig) : WriteQueueConfig :=
  ⟨config.writeQueueMaxBytes, config.writeQueueOverflow, true⟩

theorem closesOnOverflow_of_report {config : LocalPipeConfig} {q : AsyncWriteQueue}
    {item : QueueItem} (reports : (q.enqueue config.writeQueue item).1.reporting ≠ q.reporting) :
    config.closesOnOverflow = true := by
  unfold AsyncWriteQueue.enqueue at reports
  split at reports
  · exact absurd rfl reports
  · split at reports
    · rename_i overflows
      have bounded := (of_decide_eq_true overflows).1
      split at reports
      · rename_i policy
        exact decide_eq_true ⟨bounded, policy⟩
      · exact absurd rfl reports
    · dsimp only at reports
      split at reports
      · exact absurd rfl reports
      · exact absurd rfl reports

/-- The chain of `do_accept`: an `async_accept` that has not completed, its handler before
    `push_back` and behind it, or neither. -/
inductive AcceptPhase where
  | waiting
  | admitting (conn : Nat)
  | registered
  | ended
deriving DecidableEq

def AcceptPhase.admits : AcceptPhase → Bool
  | admitting _ => true
  | _ => false

/-- A call under way: `on_error` in `unregister_connection`; `stop` past its check, then before
    `connections_mutex_` and in its loop; `send_message` before the mutex and in its loop, or in
    an `unregister_connection` that wants the mutex `send_message` shares. -/
inductive PipeCall where
  | unregistering (conn : Nat)
  | stopping
  | locking
  | sweeping (index : Nat)
  | joining
  | sending (index : Nat)
  | stuck (conn : Nat)
  | returned
deriving DecidableEq

/-- The call holds `connections_mutex_` alone. -/
def PipeCall.sweeps : PipeCall → Bool
  | sweeping _ => true
  | _ => false

/-- The call holds `connections_mutex_` shared. -/
def PipeCall.shares : PipeCall → Bool
  | sending _ | stuck _ => true
  | _ => false

/-- A `LocalPipeTransport` on Unix with the calls that were made of it. Connections are known by
    the number of their construction; `inactive` are those whose `active` was cleared. -/
structure LocalPipeTransport where
  running : Bool := true
  acceptor : AcceptPhase := .waiting
  nextConnectionId : Nat := 0
  connections : List Nat := []
  inactive : List Nat := []
  calls : List PipeCall := []
deriving DecidableEq

/-- How `start` ends: without an `io_context`, when `open`, `bind` or `listen` fails, or with a
    first `do_accept`. -/
inductive StartOutcome where
  | noContext
  | fails
  | listens
deriving DecidableEq

/-- What the threads do: `async_accept` completes or its handler goes on, a read or a write of a
    connection fails, `stop` and `send_message` are called, and a call goes on to its next atomic
    action. `overflows` says that the write queue `send_message` comes to is full. -/
inductive PipeEvent where
  | acceptFails
  | clientConnects
  | accepts
  | errors (conn : Nat)
  | stops
  | sends
  | advances (place : Nat) (overflows : Bool)
deriving DecidableEq

namespace LocalPipeTransport

def start : StartOutcome → LocalPipeTransport
  | .listens => {}
  | .noContext | .fails => { running := false, acceptor := .ended }

/-- Nobody holds `connections_mutex_`. -/
def Free (s : LocalPipeTransport) : Prop := s.calls.all fun call => !call.sweeps && !call.shares

/-- `connections_mutex_` can be shared. -/
def Sharable (s : LocalPipeTransport) : Prop := s.calls.all fun call => !call.sweeps

instance (s : LocalPipeTransport) : Decidable s.Free := inferInstanceAs (Decidable (_ = true))

instance (s : LocalPipeTransport) : Decidable s.Sharable := inferInstanceAs (Decidable (_ = true))

/-- The connection was listed, so that it may be read from and written to. -/
def Registered (s : LocalPipeTransport) (conn : Nat) : Prop :=
  conn < s.nextConnectionId ∧ s.acceptor ≠ .admitting conn

instance (s : LocalPipeTransport) (conn : Nat) : Decidable (s.Registered conn) :=
  inferInstanceAs (Decidable (_ ∧ _))

def call (s : LocalPipeTransport) (call : PipeCall) : LocalPipeTransport :=
  { s with calls := s.calls ++ [call] }

def setCall (s : LocalPipeTransport) (place : Nat) (call : PipeCall) : LocalPipeTransport :=
  { s with calls := s.calls.set place call }

def deactivate (s : LocalPipeTransport) (conn : Nat) : LocalPipeTransport :=
  { s with inactive := conn :: s.inactive }

variable (config : LocalPipeConfig)

/-- The completion of `async_accept` with an error. -/
def acceptFails (s : LocalPipeTransport) : Option LocalPipeTransport :=
  match s.acceptor with
  | .waiting => some { s with acceptor := if s.running then .waiting else .ended }
  | _ => none

/-- The completion of `async_accept` with a client, up to `push_back`. -/
def clientConnects (s : LocalPipeTransport) : Option LocalPipeTransport :=
  match s.acceptor with
  | .waiting =>
    if s.running then
      some { s with
        acceptor := .admitting s.nextConnectionId
        nextConnectionId := s.nextConnectionId + 1 }
    else some { s with acceptor := .ended }
  | _ => none

/-- The rest of that handler: `push_back` under the mutex, then `start_read` and `do_accept`. -/
def accepts (s : LocalPipeTransport) : Option LocalPipeTransport :=
  match s.acceptor with
  | .admitting conn =>
    if s.Free then some { s with connections := s.connections ++ [conn], acceptor := .registered }
    else none
  | .registered =>
    if config.mode = .singleClient then some { s with acceptor := .ended }
    else some { s with acceptor := if s.running then .waiting else .ended }
  | _ => none

/-- `PipeConnection::on_error` -/
def onError (s : LocalPipeTransport) (conn : Nat) : LocalPipeTransport :=
  if conn ∈ s.inactive then s else (s.deactivate conn).call (.unregistering conn)

/-- The next atomic action of a call. -/
def advance (s : LocalPipeTransport) (place : Nat) (overflows : Bool) :
    PipeCall → Option LocalPipeTransport
  | .unregistering conn =>
    if s.Free then
      some ({ s with connections := s.connections.filter (· ≠ conn) }.setCall place .returned)
    else none
  | .stopping => some ({ s with running := false }.setCall place .locking)
  | .locking => if s.Free then some (s.setCall place (.sweeping 0)) else none
  | .sweeping index =>
    match s.connections[index]? with
    | some conn => some ((s.deactivate conn).setCall place (.sweeping (index + 1)))
    | none => some ({ s with connections := [] }.setCall place .returned)
  | .joining => if s.Sharable then some (s.setCall place (.sending 0)) else none
  | .sending index =>
    match s.connections[index]? with
    | some conn =>
      if conn ∉ s.inactive ∧ config.closesOnOverflow ∧ overflows then
        some ((s.deactivate conn).setCall place (.stuck conn))
      else some (s.setCall place (.sending (index + 1)))
    | none => some (s.setCall place .returned)
  -- the mutex is not given up before `unregister_connection` has had it alone
  | .stuck _ => none
  | .returned => none

def step (s : LocalPipeTransport) : PipeEvent → Option LocalPipeTransport
  | .acceptFails => s.acceptFails
  | .clientConnects => s.clientConnects
  | .accepts => s.accepts config
  | .errors conn => if s.Registered conn then some (s.onError conn) else none
  | .stops => some (if s.running then s.call .stopping else s)
  | .sends => some (s.call .joining)
  | .advances place overflows => s.calls[place]?.bind (s.advance config place overflows)

def InLimit (s : LocalPipeTransport) : Prop :=
  match config.mode with
  | .singleClient => s.connections.length ≤ 1
  | .multiClient => (s.connections.length : Int) ≤ config.maxInstances

/-- A call that does not hold the mutex shared is to take the connection out of the list. -/
def AboutToBeRemoved (s : LocalPipeTransport) (conn : Nat) : Prop :=
  ∃ call ∈ s.calls, call = .unregistering conn ∨ call.sweeps = true

/-- The list is within its limit, and what is in it is active or about to be removed. -/
def Respects (s : LocalPipeTransport) : Prop :=
  s.InLimit config ∧ ∀ conn ∈ s.connections, conn ∉ s.inactive ∨ s.AboutToBeRemoved conn

/-- In MultiClient mode, the step lists a connection beside `max_instances` others. -/
def Overfills (s : LocalPipeTransport) (event : PipeEvent) : Prop :=
  event = .accepts ∧ s.acceptor.admits = true ∧ config.mode = .multiClient ∧
    config.maxInstances ≤ s.connections.length

/-- The step is `send_message` at an active connection whose full write queue closes. -/
def blocks (s : LocalPipeTransport) : PipeEvent → Bool
  | .advances place true =>
    match s.calls[place]? with
    | some (.sending index) =>
      match s.connections[index]? with
      | some conn => config.closesOnOverflow && !s.inactive.contains conn
      | none => false
    | _ => false
  | _ => false

def Sound (s : LocalPipeTransport) (event : PipeEvent) : Prop :=
  ¬ s.Overfills config event ∧ s.blocks config event = false

instance (s : LocalPipeTransport) (event : PipeEvent) : Decidable (s.Overfills config event) :=
  inferInstanceAs (Decidable (_ ∧ _))

instance (s : LocalPipeTransport) (event : PipeEvent) : Decidable (s.Sound config event) :=
  inferInstanceAs (Decidable (_ ∧ _))

section
variable {config} {s s' : LocalPipeTransport} {place : Nat} {old new call : PipeCall}

theorem setCall_self (found : s.calls[place]? = some old) : new ∈ (s.setCall place new).calls := by
  obtain ⟨inside, -⟩ := List.getElem?_eq_some_iff.mp found
  exact List.mem_set inside new

theorem setCall_cases (member : call ∈ (s.setCall place new).calls) :
    call ∈ s.calls ∨ call = new := List.mem_or_eq_of_mem_set member

theorem setCall_ne (found : s.calls[place]? = some old) (member : call ∈ s.calls)
    (other : call ≠ old) : call ∈ (s.setCall place new).calls := mem_moves found member other

theorem Free.quiet (free : s.Free) (member : call ∈ s.calls) :
    call.sweeps = false ∧ call.shares = false := by
  have quiet := List.all_eq_true.mp free call member
  simpa using quiet

theorem Sharable.quiet (sharable : s.Sharable) (member : call ∈ s.calls) : call.sweeps = false := by
  have quiet := List.all_eq_true.mp sharable call member
  simpa using quiet

/-- What a thread that goes from one action to the next holds, it held or may take. -/
def Takes (s : LocalPipeTransport) (old new : PipeCall) : Prop :=
  (new.sweeps = true → old.sweeps = true ∨ s.Free) ∧
    (new.shares = true → old.shares = true ∨ s.Sharable)

/-- What a step can do. -/
inductive Stepped (config : LocalPipeConfig) (s s' : LocalPipeTransport) (event : PipeEvent) :
    Prop
  | rests (sound : s.Sound config event) (acceptor : AcceptPhase)
      (phase : acceptor = .ended ∨ acceptor = .waiting ∧
        (s.acceptor = .waiting ∨ config.mode = .multiClient))
      (next : s' = { s with acceptor })
  | arrives (sound : s.Sound config event) (waiting : s.acceptor = .waiting)
      (next : s' = { s with
        acceptor := .admitting s.nextConnectionId
        nextConnectionId := s.nextConnectionId + 1 })
  | registers (handles : event = .accepts) (conn : Nat)
      (admitting : s.acceptor = .admitting conn) (free : s.Free)
      (next : s' = { s with connections := s.connections ++ [conn], acceptor := .registered })
  | errs (sound : s.Sound config event) (conn : Nat)
      (registered : s.Registered conn)
      (next : s' = (s.deactivate conn).call (.unregistering conn))
  | calls (sound : s.Sound config event) (new : PipeCall)
      (waits : new = .stopping ∨ new = .joining) (next : s' = s.call new)
  | stays (sound : s.Sound config event) (next : s' = s)
  | unregisters (sound : s.Sound config event) (place conn : Nat)
      (found : s.calls[place]? = some (.unregistering conn)) (free : s.Free)
      (next : s' = { s with connections := s.connections.filter (· ≠ conn) }.setCall place
        .returned)
  | moves (sound : s.Sound config event) (place : Nat) (old new : PipeCall)
      (found : s.calls[place]? = some old)
      (apart : old.sweeps = false ∧
        ∀ conn, old ≠ .unregistering conn ∧ old ≠ .stuck conn ∧ new ≠ .unregistering conn)
      (takes : s.Takes old new) (running : Bool)
      (next : s' = { s with running }.setCall place new)
  | sweeps (sound : s.Sound config event) (place index conn : Nat)
      (found : s.calls[place]? = some (.sweeping index)) (listed : conn ∈ s.connections)
      (next : s' = (s.deactivate conn).setCall place (.sweeping (index + 1)))
  | clears (sound : s.Sound config event) (place index : Nat)
      (found : s.calls[place]? = some (.sweeping index))
      (next : s' = { s with connections := [] }.setCall place .returned)
  | blocks (unsound : ¬ s.Sound config event) (place index conn : Nat)
      (found : s.calls[place]? = some (.sending index)) (listed : conn ∈ s.connections)
      (active : conn ∉ s.inactive)
      (next : s' = (s.deactivate conn).setCall place (.stuck conn))

theorem sound_of_advance {overflows : Bool}
    (unblocked : s.blocks config (.advances place overflows) = false) :
    s.Sound config (.advances place overflows) := ⟨by simp [Overfills], unblocked⟩

theorem advance_cases {overflows : Bool} (found : s.calls[place]? = some call)
    (advanced : s.advance config place overflows call = some s') :
    Stepped config s s' (.advances place overflows) := by
  have sound (other : ∀ index, call ≠ .sending index) :
      s.Sound config (.advances place overflows) := by
    apply sound_of_advance
    cases overflows with
    | false => rfl
    | true =>
      simp only [blocks, found]
      split
      · rename_i index same
        exact absurd (Option.some.inj same) (other index)
      · rfl
  cases call with
  | unregistering conn =>
    simp only [advance] at advanced
    split at advanced
    · rename_i free
      cases advanced
      exact .unregisters (sound (by simp)) place conn found free rfl
    · cases advanced
  | stopping =>
    cases advanced
    exact .moves (sound (by simp)) place _ .locking found (by simp [PipeCall.sweeps])
      (by simp [Takes, PipeCall.sweeps, PipeCall.shares]) false rfl
  | locking =>
    simp only [advance] at advanced
    split at advanced
    · rename_i free
      cases advanced
      exact .moves (sound (by simp)) place _ (.sweeping 0) found (by simp [PipeCall.sweeps])
        ⟨fun _ => .inr free, by simp [PipeCall.shares]⟩ s.running rfl
    · cases advanced
  | sweeping index =>
    simp only [advance] at advanced
    split at advanced
    · rename_i conn listed
      cases advanced
      exact .sweeps (sound (by simp)) place index conn found (List.mem_of_getElem? listed) rfl
    · cases advanced
      exact .clears (sound (by simp)) place index found rfl
  | joining =>
    simp only [advance] at advanced
    split at advanced
    · rename_i sharable
      cases advanced
      exact .moves (sound (by simp)) place _ (.sending 0) found (by simp [PipeCall.sweeps])
        ⟨by simp [PipeCall.sweeps], fun _ => .inr sharable⟩ s.running rfl
    · cases advanced
  | sending index =>
    have moves (new : PipeCall) (waits : new = .returned ∨ new = .sending (index + 1))
        (sound : s.Sound config (.advances place overflows)) :
        Stepped config s (s.setCall place new) (.advances place overflows) := by
      have apart : new.sweeps = false ∧ ∀ conn, new ≠ .unregistering conn := by
        rcases waits with rfl | rfl <;> simp [PipeCall.sweeps]
      exact .moves sound place _ new found
        ⟨rfl, fun conn => ⟨by simp, by simp, apart.2 conn⟩⟩
        ⟨by simp [apart.1], fun _ => .inl rfl⟩ s.running rfl
    simp only [advance] at advanced
    split at advanced
    · rename_i conn listed
      have blocked : s.blocks config (.advances place overflows) = true ↔
          conn ∉ s.inactive ∧ config.closesOnOverflow = true ∧ overflows = true := by
        cases overflows <;> simp [blocks, found, listed, and_comm]
      split at advanced
      · rename_i closes
        cases advanced
        refine .blocks ?_ place index conn found (List.mem_of_getElem? listed) closes.1 rfl
        intro sound
        rw [Sound, blocked.mpr closes] at sound
        cases sound.2
      · rename_i passes
        cases advanced
        exact moves _ (.inr rfl) (sound_of_advance (by simpa using mt blocked.mp passes))
    · rename_i ended
      cases advanced
      refine moves _ (.inl rfl) (sound_of_advance ?_)
      cases overflows <;> simp [blocks, found, ended]
  | stuck conn => cases advanced
  | returned => cases advanced

theorem step_cases {event : PipeEvent} (stepped : s.step config event = some s') :
    Stepped config s s' event := by
  have sound (other : event ≠ .accepts) (unblocked : s.blocks config event = false) :
      s.Sound config event := ⟨fun full => other full.1, unblocked⟩
  cases event with
  | acceptFails =>
    simp only [step, acceptFails] at stepped
    split at stepped
    · rename_i waiting
      cases stepped
      refine .rests (sound nofun rfl) _ ?_ rfl
      cases s.running
      · exact .inl rfl
      · exact .inr ⟨rfl, .inl waiting⟩
    · cases stepped
  | clientConnects =>
    simp only [step, clientConnects] at stepped
    split at stepped
    · rename_i waiting
      split at stepped
      · cases stepped
        exact .arrives (sound nofun rfl) waiting rfl
      · cases stepped
        exact .rests (sound nofun rfl) _ (.inl rfl) rfl
    · cases stepped
  | accepts =>
    simp only [step, accepts] at stepped
    split at stepped
    · rename_i conn admitting
      split at stepped
      · rename_i free
        cases stepped
        exact .registers rfl conn admitting free rfl
      · cases stepped
    · rename_i registered
      have sound : s.Sound config .accepts := ⟨by simp [Overfills, registered, AcceptPhase.admits], rfl⟩
      split at stepped
      · cases stepped
        exact .rests sound _ (.inl rfl) rfl
      · rename_i multi
        cases stepped
        refine .rests sound _ ?_ rfl
        cases s.running
        · exact .inl rfl
        · right
          refine ⟨rfl, .inr ?_⟩
          cases mode : config.mode with
          | singleClient => exact absurd mode multi
          | multiClient => rfl
    · cases stepped
  | errors conn =>
    simp only [step] at stepped
    split at stepped
    · rename_i registered
      cases stepped
      unfold onError
      split
      · exact .stays (sound nofun rfl) rfl
      · exact .errs (sound nofun rfl) conn registered rfl
    · cases stepped
  | stops =>
    simp only [step] at stepped
    cases stepped
    split
    · exact .calls (sound nofun rfl) .stopping (.inl rfl) rfl
    · exact .stays (sound nofun rfl) rfl
  | sends =>
    cases stepped
    exact .calls (sound nofun rfl) .joining (.inr rfl) rfl
  | advances place overflows =>
    obtain ⟨call, found, advanced⟩ := Option.bind_eq_some_iff.mp stepped
    exact advance_cases found advanced

/-- The mutex is held alone, or shared, or by nobody. -/
def Alone (s : LocalPipeTransport) : Prop :=
  ∀ a ∈ s.calls, ∀ b ∈ s.calls, a.sweeps = true → b.shares = false

theorem Alone.calls (alone : s.Alone) (new : PipeCall)
    (waits : new.sweeps = false ∧ new.shares = false) : (s.call new).Alone := by
  intro a first b second sweeps
  rcases List.mem_append.mp second with other | last
  · rcases List.mem_append.mp first with one | last
    · exact alone a one b other sweeps
    · rw [List.mem_singleton.mp last, waits.1] at sweeps
      cases sweeps
  · rw [List.mem_singleton.mp last]
    exact waits.2

theorem Alone.moves (alone : s.Alone) (found : s.calls[place]? = some old)
    (takes : s.Takes old new) : (s.setCall place new).Alone := by
  have member := List.mem_of_getElem? found
  intro a first b second sweeps
  rcases setCall_cases first with one | rfl
  · rcases setCall_cases second with other | rfl
    · exact alone a one b other sweeps
    · by_contra shares
      rcases takes.2 (by simpa using shares) with shared | sharable
      · rw [alone a one old member sweeps] at shared
        cases shared
      · rw [sharable.quiet one] at sweeps
        cases sweeps
  · rcases setCall_cases second with other | rfl
    · rcases takes.1 sweeps with swept | free
      · exact alone old member b other swept
      · exact (free.quiet other).2
    · cases b with
      | sweeping index => rfl
      | _ => cases sweeps

structure Kept (config : LocalPipeConfig) (s : LocalPipeTransport) : Prop where
  admitted : ∀ conn, s.acceptor = .admitting conn → conn < s.nextConnectionId
  listed : ∀ conn ∈ s.connections, s.Registered conn
  inactive : ∀ conn ∈ s.inactive, s.Registered conn
  removing : ∀ conn, .unregistering conn ∈ s.calls → conn ∈ s.inactive
  alone : s.Alone
  unlisted : config.mode = .singleClient →
    (s.acceptor = .waiting ∨ ∃ conn, s.acceptor = .admitting conn) → s.connections = []
  single : config.mode = .singleClient → s.connections.length ≤ 1

theorem kept_start (outcome : StartOutcome) : Kept config (start outcome) := by
  cases outcome
  all_goals exact ⟨nofun, nofun, nofun, nofun, nofun, fun _ _ => rfl, fun _ => Nat.zero_le 1⟩

/-- A step that leaves the accept chain alone and adds no connection to the list. -/
theorem Kept.acts (kept : Kept config s) (acceptor : s'.acceptor = s.acceptor)
    (next : s'.nextConnectionId = s.nextConnectionId)
    (listed : s'.connections.Sublist s.connections) (inactive : ∀ conn ∈ s'.inactive,
      s.Registered conn) (removing : ∀ conn, .unregistering conn ∈ s'.calls → conn ∈ s'.inactive)
    (alone : s'.Alone) : Kept config s' := by
  have registered (conn : Nat) (old : s.Registered conn) : s'.Registered conn := by
    unfold Registered
    rw [acceptor, next]
    exact old
  constructor
  · rw [acceptor, next]
    exact kept.admitted
  · exact fun conn member => registered conn (kept.listed conn (listed.subset member))
  · exact fun conn member => registered conn (inactive conn member)
  · exact removing
  · exact alone
  · intro mode phase
    rw [acceptor] at phase
    rw [kept.unlisted mode phase] at listed
    exact List.sublist_nil.mp listed
  · exact fun mode => listed.length_le.trans (kept.single mode)

theorem Kept.rests (kept : Kept config s) {acceptor : AcceptPhase}
    (phase : acceptor = .ended ∨ acceptor = .waiting ∧
      (s.acceptor = .waiting ∨ config.mode = .multiClient)) :
    Kept config { s with acceptor } := by
  have quiet (conn : Nat) : acceptor ≠ .admitting conn := by
    rcases phase with rfl | ⟨rfl, -⟩ <;> simp
  constructor
  · exact fun conn admitting => absurd admitting (quiet conn)
  · exact fun conn member => ⟨(kept.listed conn member).1, quiet conn⟩
  · exact fun conn member => ⟨(kept.inactive conn member).1, quiet conn⟩
  · exact kept.removing
  · exact kept.alone
  · intro mode waits
    rcases phase with rfl | ⟨rfl, waiting | multi⟩
    · simp at waits
    · exact kept.unlisted mode (.inl waiting)
    · rw [mode] at multi
      cases multi
  · exact kept.single

theorem Kept.arrives (kept : Kept config s) (waiting : s.acceptor = .waiting) :
    Kept config { s with
      acceptor := .admitting s.nextConnectionId
      nextConnectionId := s.nextConnectionId + 1 } := by
  have older {conn : Nat} (registered : s.Registered conn) : conn < s.nextConnectionId + 1 ∧
      AcceptPhase.admitting s.nextConnectionId ≠ .admitting conn := by
    refine ⟨Nat.lt_succ_of_lt registered.1, fun same => ?_⟩
    exact registered.1.ne (AcceptPhase.admitting.inj same).symm
  constructor
  · intro conn admitting
    cases admitting
    exact Nat.lt_succ_self _
  · exact fun conn member => older (kept.listed conn member)
  · exact fun conn member => older (kept.inactive conn member)
  · exact kept.removing
  · exact kept.alone
  · exact fun mode _ => kept.unlisted mode (.inl waiting)
  · exact kept.single

theorem Kept.registers (kept : Kept config s) {conn : Nat}
    (admitting : s.acceptor = .admitting conn) :
    Kept config { s with connections := s.connections ++ [conn], acceptor := .registered } := by
  constructor
  · exact nofun
  · intro other member
    rcases List.mem_append.mp member with earlier | last
    · exact ⟨(kept.listed other earlier).1, nofun⟩
    · rw [List.mem_singleton.mp last]
      exact ⟨kept.admitted conn admitting, nofun⟩
  · exact fun other member => ⟨(kept.inactive other member).1, nofun⟩
  · exact kept.removing
  · exact kept.alone
  · exact fun _ phase => absurd phase (by simp)
  · intro mode
    rw [kept.unlisted mode (.inr ⟨conn, admitting⟩)]
    exact le_rfl

theorem unregistering_of_set {conn : Nat} (other : ∀ conn, new ≠ .unregistering conn)
    (member : .unregistering conn ∈ (s.setCall place new).calls) :
    .unregistering conn ∈ s.calls := by
  rcases setCall_cases member with earlier | same
  · exact earlier
  · exact absurd same.symm (other conn)

theorem Kept.step (kept : Kept config s) {event : PipeEvent}
    (stepped : s.step config event = some s') : Kept config s' := by
  have inactive (conn : Nat) (registered : s.Registered conn) (other : Nat)
      (member : other ∈ conn :: s.inactive) : s.Registered other := by
    rcases List.mem_cons.mp member with rfl | earlier
    · exact registered
    · exact kept.inactive other earlier
  have still {place : Nat} {old : PipeCall} (new : PipeCall) (takes : s.Takes old new)
      (found : s.calls[place]? = some old) (other : ∀ conn, new ≠ .unregistering conn) :
      (∀ conn, .unregistering conn ∈ (s.setCall place new).calls → conn ∈ s.inactive) ∧
        (s.setCall place new).Alone :=
    ⟨fun conn member => kept.removing conn (unregistering_of_set other member),
      kept.alone.moves found takes⟩
  cases step_cases stepped with
  | rests sound acceptor phase next =>
    rw [next]
    exact kept.rests phase
  | arrives sound waiting next =>
    rw [next]
    exact kept.arrives waiting
  | registers handles conn admitting free next =>
    rw [next]
    exact kept.registers admitting
  | errs sound conn registered next =>
    rw [next]
    refine kept.acts rfl rfl (List.Sublist.refl _) (inactive conn registered) ?_
      (kept.alone.calls (.unregistering conn) ⟨rfl, rfl⟩)
    intro other member
    rcases List.mem_append.mp member with earlier | last
    · exact List.mem_cons_of_mem _ (kept.removing other earlier)
    · cases List.mem_singleton.mp last
      exact List.mem_cons_self
  | calls sound new waits next =>
    have quiet : (new.sweeps = false ∧ new.shares = false) ∧ ∀ conn, .unregistering conn ≠ new := by
      rcases waits with rfl | rfl <;> simp [PipeCall.sweeps, PipeCall.shares]
    rw [next]
    refine kept.acts rfl rfl (List.Sublist.refl _) kept.inactive ?_ (kept.alone.calls new quiet.1)
    intro conn member
    rcases List.mem_append.mp member with earlier | last
    · exact kept.removing conn earlier
    · exact absurd (List.mem_singleton.mp last) (quiet.2 conn)
  | stays sound next =>
    rw [next]
    exact kept
  | unregisters sound place conn found free next =>
    obtain ⟨removing, alone⟩ := still .returned
      (by simp [Takes, PipeCall.sweeps, PipeCall.shares]) found (by simp)
    rw [next]
    exact kept.acts rfl rfl List.filter_sublist kept.inactive removing alone
  | moves sound place old new found apart takes running next =>
    obtain ⟨removing, alone⟩ := still new takes found fun conn => (apart.2 conn).2.2
    rw [next]
    exact kept.acts rfl rfl (List.Sublist.refl _) kept.inactive removing alone
  | sweeps sound place index conn found listed next =>
    obtain ⟨removing, alone⟩ := still (.sweeping (index + 1))
      ⟨fun _ => .inl rfl, by simp [PipeCall.shares]⟩ found (by simp)
    rw [next]
    exact kept.acts rfl rfl (List.Sublist.refl _) (inactive conn (kept.listed conn listed))
      (fun other member => List.mem_cons_of_mem _ (removing other member)) alone
  | clears sound place index found next =>
    obtain ⟨removing, alone⟩ := still .returned
      (by simp [Takes, PipeCall.sweeps, PipeCall.shares]) found (by simp)
    rw [next]
    exact kept.acts rfl rfl (List.nil_sublist _) kept.inactive removing alone
  | blocks unsound place index conn found listed active next =>
    obtain ⟨removing, alone⟩ := still (.stuck conn)
      ⟨by simp [PipeCall.sweeps], fun _ => .inl rfl⟩ found (by simp)
    rw [next]
    exact kept.acts rfl rfl (List.Sublist.refl _) (inactive conn (kept.listed conn listed))
      (fun other member => List.mem_cons_of_mem _ (removing other member)) alone

theorem InLimit.fewer (within : s.InLimit config)
    (fewer : s'.connections.length ≤ s.connections.length) : s'.InLimit config := by
  unfold InLimit at within ⊢
  split at within
  · exact fewer.trans within
  · exact (Int.ofNat_le.mpr fewer).trans within

theorem removed_of_set {conn : Nat} (found : s.calls[place]? = some old)
    (apart : old.sweeps = false ∧ old ≠ .unregistering conn) (removed : s.AboutToBeRemoved conn) :
    (s.setCall place new).AboutToBeRemoved conn := by
  obtain ⟨call, member, removes⟩ := removed
  refine ⟨call, setCall_ne found member ?_, removes⟩
  rintro rfl
  rcases removes with rfl | sweeps
  · exact apart.2 rfl
  · rw [apart.1] at sweeps
    cases sweeps

theorem Respects.calls (respects : s.Respects config) (new : PipeCall) {conn : Nat}
    (member : conn ∈ s.connections) :
    conn ∉ s.inactive ∨ (s.call new).AboutToBeRemoved conn := by
  apply (respects.2 conn member).imp_right
  rintro ⟨call, among, removes⟩
  exact ⟨call, List.mem_append_left _ among, removes⟩

theorem registers_limit (kept : Kept config s) {conn : Nat}
    (admitting : s.acceptor = .admitting conn) :
    InLimit config { s with connections := s.connections ++ [conn], acceptor := .registered } ↔
      s.Sound config .accepts := by
  have room : s.Sound config .accepts ↔
      (config.mode = .multiClient → (s.connections.length : Int) < config.maxInstances) := by
    simp [Sound, Overfills, blocks, admitting, AcceptPhase.admits]
  rw [room]
  cases mode : config.mode with
  | singleClient =>
    simp only [InLimit, mode, kept.unlisted mode (.inr ⟨conn, admitting⟩)]
    simp
  | multiClient =>
    simp only [InLimit, mode, List.length_append, List.length_singleton, forall_const]
    omega

/-- What `send_message` waits to take out of the list that it holds, nobody takes out. -/
theorem unremoved_of_blocks (kept : Kept config s) {index conn : Nat}
    (found : s.calls[place]? = some (.sending index)) (active : conn ∉ s.inactive) :
    ¬ (s.setCall place (.stuck conn)).AboutToBeRemoved conn := by
  rintro ⟨call, member, removes⟩
  rcases setCall_cases member with earlier | rfl
  · rcases removes with rfl | sweeps
    · exact active (kept.removing conn earlier)
    · cases kept.alone call earlier _ (List.mem_of_getElem? found) sweeps
  · rcases removes with same | sweeps
    · cases same
    · cases sweeps

/-- A step leaves the list as it should be exactly if it is sound. -/
theorem respects_step (kept : Kept config s) (respects : s.Respects config) {event : PipeEvent}
    (stepped : s.step config event = some s') : s'.Respects config ↔ s.Sound config event := by
  have sweeping {t : LocalPipeTransport} {index conn : Nat} (member : .sweeping index ∈ t.calls) :
      conn ∉ t.inactive ∨ t.AboutToBeRemoved conn := .inr ⟨_, member, .inr rfl⟩
  cases step_cases stepped with
  | rests sound acceptor phase next =>
    rw [next]
    exact ⟨fun _ => sound, fun _ => respects⟩
  | arrives sound waiting next =>
    rw [next]
    exact ⟨fun _ => sound, fun _ => respects⟩
  | registers handles conn admitting free next =>
    rw [next, handles, ← registers_limit kept admitting]
    refine ⟨And.left, fun within => ⟨within, fun other member => ?_⟩⟩
    rcases List.mem_append.mp member with earlier | last
    · exact respects.2 other earlier
    · left
      rw [List.mem_singleton.mp last]
      exact fun inactive => (kept.inactive conn inactive).2 admitting
  | errs sound conn registered next =>
    rw [next]
    refine ⟨fun _ => sound, fun _ => ⟨respects.1, fun other member => ?_⟩⟩
    by_cases own : other = conn
    · right
      exact ⟨.unregistering other, List.mem_append_right _ (by simp [own]), .inl rfl⟩
    · rcases respects.calls (.unregistering conn) member with active | removed
      · left
        exact fun member => (List.mem_cons.mp member).elim own active
      · exact .inr removed
  | calls sound new waits next =>
    rw [next]
    exact ⟨fun _ => sound, fun _ => ⟨respects.1, fun conn member => respects.calls new member⟩⟩
  | stays sound next =>
    rw [next]
    exact ⟨fun _ => sound, fun _ => respects⟩
  | unregisters sound place conn found free next =>
    rw [next]
    refine ⟨fun _ => sound, fun _ => ⟨?_, fun other member => ?_⟩⟩
    · exact respects.1.fewer (List.length_filter_le _ _)
    · obtain ⟨earlier, other⟩ := List.mem_filter.mp member
      apply (respects.2 _ earlier).imp_right
      apply removed_of_set found
      refine ⟨rfl, fun same => ?_⟩
      simp [PipeCall.unregistering.inj same] at other
  | moves sound place old new found apart takes running next =>
    rw [next]
    refine ⟨fun _ => sound, fun _ => ⟨respects.1, fun conn member => ?_⟩⟩
    apply (respects.2 conn member).imp_right
    exact removed_of_set found ⟨apart.1, (apart.2 conn).1⟩
  | sweeps sound place index conn found listed next =>
    rw [next]
    exact ⟨fun _ => sound, fun _ => ⟨respects.1, fun _ _ => sweeping (setCall_self found)⟩⟩
  | clears sound place index found next =>
    rw [next]
    exact ⟨fun _ => sound, fun _ => ⟨respects.1.fewer (Nat.zero_le _), nofun⟩⟩
  | blocks unsound place index conn found listed active next =>
    refine ⟨fun respected => ?_, fun sound => absurd sound unsound⟩
    rw [next] at respected
    rcases respected.2 conn listed with still | removed
    · exact absurd List.mem_cons_self still
    · exact absurd removed (unremoved_of_blocks kept found active)

theorem respects_start (outcome : StartOutcome) :
    (start outcome).Respects config ↔ (config.mode = .multiClient → 0 ≤ config.maxInstances) := by
  have empty : (start outcome).connections = [] := by cases outcome <;> rfl
  have within : (start outcome).InLimit config ↔
      (config.mode = .multiClient → 0 ≤ config.maxInstances) := by
    unfold InLimit
    rw [empty]
    cases config.mode <;> simp
  rw [← within]
  refine ⟨And.left, fun within => ⟨within, ?_⟩⟩
  rw [empty]
  exact nofun

/-- All along a run, no more connections are listed than the mode allows, each of them active or
    about to be removed, exactly if the limit is no negative one and every step of the run is
    sound. -/
theorem respects_limit_iff {outcome : StartOutcome} {events : List PipeEvent}
    (ran : run (step config) (start outcome) events = some s) :
    (∀ front back t, events = front ++ back → run (step config) (start outcome) front = some t →
      t.Respects config) ↔
    (config.mode = .multiClient → 0 ≤ config.maxInstances) ∧
      Meets (step config) (Sound config) (start outcome) events := by
  have exact (s : LocalPipeTransport) (event : PipeEvent) (s' : LocalPipeTransport)
      (holds : Kept config s ∧ s.Respects config) (stepped : s.step config event = some s') :
      (Kept config s' ∧ s'.Respects config) ↔ s.Sound config event := by
    rw [← respects_step holds.1 holds.2 stepped]
    exact and_iff_right (holds.1.step stepped)
  rw [← respects_start outcome]
  constructor
  · intro along
    have first := along [] events _ rfl rfl
    refine ⟨first, (along_iff_meets exact ⟨kept_start outcome, first⟩ ran).mp ?_⟩
    intro front back t split reached
    have kept : Kept config t := run_keeps (fun _ _ _ kept stepped => kept.step stepped)
      (kept_start outcome) reached
    exact ⟨kept, along front back t split reached⟩
  · rintro ⟨first, sound⟩ front back t split reached
    have along := (along_iff_meets exact ⟨kept_start outcome, first⟩ ran).mpr sound
    exact (along front back t split reached).2

/-- The default `max_instances`, and one client more. -/
def fiveClients : List PipeEvent :=
  (List.replicate 5 [.clientConnects, .accepts, .accepts]).flatten

theorem fifth_client_listed : ∃ s,
    run (step { mode := .multiClient }) (start .listens) fiveClients = some s ∧
    ¬ s.Respects { mode := .multiClient } := by
  have listed : (run (step { mode := .multiClient }) (start .listens) fiveClients).map
      (fun s => s.connections.length) = some 5 := by decide +kernel
  obtain ⟨s, ran, five⟩ := Option.map_eq_some_iff.mp listed
  refine ⟨s, ran, fun respects => ?_⟩
  have within : (s.connections.length : Int) ≤ 4 := respects.1
  omega

/-- Two clients at a limit of two; one of them leaves before a third one comes, and while
    `send_message` writes to the others the transport is stopped. -/
def changingClients : List PipeEvent :=
  [.clientConnects, .accepts, .accepts, .acceptFails, .clientConnects, .accepts, .accepts,
    .errors 0, .clientConnects, .advances 0 false, .accepts, .accepts, .sends, .advances 1 false,
    .stops, .advances 2 false, .advances 1 false, .advances 1 false, .advances 1 false,
    .advances 2 false, .advances 2 false, .errors 2, .advances 2 false, .advances 2 false,
    .acceptFails]

theorem changingClients_respected :
    ∃ s, run (step { mode := .multiClient, maxInstances := 2 }) (start .listens) changingClients =
      some s ∧
    ∀ front back t, changingClients = front ++ back →
      run (step { mode := .multiClient, maxInstances := 2 }) (start .listens) front = some t →
      t.Respects { mode := .multiClient, maxInstances := 2 } := by
  have reaches : (run (step { mode := .multiClient, maxInstances := 2 }) (start .listens)
      changingClients).isSome = true := by decide +kernel
  obtain ⟨s, ran⟩ := Option.isSome_iff_exists.mp reaches
  exact ⟨s, ran, (respects_limit_iff ran).mpr ⟨fun _ => by decide, by decide +kernel⟩⟩

/-- In SingleClient mode the list is as it should be, unless a write queue closes. -/
theorem single_respects (mode : config.mode = .singleClient)
    (drops : config.closesOnOverflow = false) {outcome : StartOutcome} {events : List PipeEvent}
    (ran : run (step config) (start outcome) events = some s) : s.Respects config := by
  have sound (s : LocalPipeTransport) (event : PipeEvent) : s.Sound config event := by
    constructor
    · rintro ⟨-, -, multi, -⟩
      rw [mode] at multi
      cases multi
    · unfold blocks
      split
      · split
        · split
          · rw [drops, Bool.false_and]
          · rfl
        · rfl
      · rfl
  have keeps (s : LocalPipeTransport) (event : PipeEvent) (s' : LocalPipeTransport)
      (holds : Kept config s ∧ s.Respects config) (stepped : s.step config event = some s') :
      Kept config s' ∧ s'.Respects config :=
    ⟨holds.1.step stepped, (respects_step holds.1 holds.2 stepped).mpr (sound s event)⟩
  have first : (start outcome).Respects config := by
    rw [respects_start outcome, mode]
    exact nofun
  exact (run_keeps keeps ⟨kept_start outcome, first⟩ ran).2

theorem stuck_step (kept : Kept config s) {conn : Nat} (stuck : .stuck conn ∈ s.calls)
    {event : PipeEvent} (stepped : s.step config event = some s') :
    .stuck conn ∈ s'.calls ∧ s'.connections = s.connections := by
  have unfree : ¬ s.Free := fun free => by cases (free.quiet stuck).2
  have unswept {place index : Nat} (found : s.calls[place]? = some (.sweeping index)) : False := by
    cases kept.alone _ (List.mem_of_getElem? found) _ stuck rfl
  cases step_cases stepped with
  | rests sound acceptor phase next =>
    rw [next]
    exact ⟨stuck, rfl⟩
  | arrives sound waiting next =>
    rw [next]
    exact ⟨stuck, rfl⟩
  | registers handles other admitting free next => exact absurd free unfree
  | errs sound other registered next =>
    rw [next]
    exact ⟨List.mem_append_left _ stuck, rfl⟩
  | calls sound new waits next =>
    rw [next]
    exact ⟨List.mem_append_left _ stuck, rfl⟩
  | stays sound next =>
    rw [next]
    exact ⟨stuck, rfl⟩
  | unregisters sound place other found free next => exact absurd free unfree
  | moves sound place old new found apart takes running next =>
    rw [next]
    exact ⟨setCall_ne found stuck fun same => (apart.2 conn).2.1 same.symm, rfl⟩
  | sweeps sound place index other found listed next => exact (unswept found).elim
  | clears sound place index found next => exact (unswept found).elim
  | blocks unsound place index other found listed active next =>
    rw [next]
    exact ⟨setCall_ne found stuck (by simp), rfl⟩

/-- A `send_message` that wants the mutex it shares wants it for ever, and no connection is
    taken out of the list any more. -/
theorem stuck_stays (kept : Kept config s) {conn : Nat} (stuck : .stuck conn ∈ s.calls)
    {events : List PipeEvent} (ran : run (step config) s events = some s') :
    .stuck conn ∈ s'.calls ∧ s'.connections = s.connections := by
  have keeps (t : LocalPipeTransport) (event : PipeEvent) (t' : LocalPipeTransport)
      (holds : Kept config t ∧ .stuck conn ∈ t.calls ∧ t.connections = s.connections)
      (stepped : t.step config event = some t') :
      Kept config t' ∧ .stuck conn ∈ t'.calls ∧ t'.connections = s.connections := by
    obtain ⟨still, same⟩ := stuck_step holds.1 holds.2.1 stepped
    exact ⟨holds.1.step stepped, still, same.trans holds.2.2⟩
  exact (run_keeps keeps ⟨kept, stuck, rfl⟩ ran).2

end

end LocalPipeTransport

end CppMcp
