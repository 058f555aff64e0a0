import CppMcp.Lib.Handles
import CppMcp.Lib.Run

namespace CppMcp

open Lib

inductive Pipe where
  | stdin
  | stdout
deriving DecidableEq

/-- An end of one of the two pipes to a child, known by the number of its `spawn`. -/
structure PipeEnd where
  child : Nat
  pipe : Pipe
  writes : Bool
deriving DecidableEq

/-- What a `Process` records on POSIX. `child` counts the children that it has had. -/
structure Process where
  child : Nat := 0
  stdinFd : Option Nat := none
  stdoutFd : Option Nat := none
deriving DecidableEq

/-- What a `connect` meets. Where `dup` fails, the constructor of the stream descriptor throws. -/
inductive ConnectOutcome where
  | noContext
  | firstPipeFails
  | secondPipeFails
  | forkFails
  | firstDupFails
  | secondDupFails
  | succeeds
deriving DecidableEq

/-- The descriptors of the parent, and who has them: `process_`, and `stdin_desc_` and
    `stdout_desc_`, which are `none` while they are null or closed. -/
structure StdioChild where
  fds : Handles PipeEnd := {}
  process : Process := {}
  stdinDesc : Option Nat := none
  stdoutDesc : Option Nat := none
  connected : Bool := false
  destroyed : Bool := false

/-- What happens to a `StdioClientTransport`: its member functions, a read or a write that fails,
    and a line that is too long in `do_read`. `exits` says that `wait_for_exit` sees the child
    exit, if it is called. -/
inductive ChildEvent where
  | connects (outcome : ConnectOutcome)
  | readFails
  | dropsConnection
  | disconnects (exits : Bool)
  | destroys (exits : Bool)
deriving DecidableEq

/-- `pipe`: the read end is the next descriptor, the write end the one behind it. -/
def makePipe (fds : Handles PipeEnd) (child : Nat) (pipe : Pipe) : Handles PipeEnd :=
  (fds.acquire ⟨child, pipe, false⟩).acquire ⟨child, pipe, true⟩

def ConnectOutcome.Spawns (outcome : ConnectOutcome) : Prop :=
  outcome = .firstDupFails ∨ outcome = .secondDupFails ∨ outcome = .succeeds

instance (outcome : ConnectOutcome) : Decidable outcome.Spawns := inferInstanceAs (Decidable (_ ∨ _))

namespace StdioChild

/-- `Process::spawn`, in the parent. -/
def spawn (t : StdioChild) (outcome : ConnectOutcome) : StdioChild :=
  let child := t.process.child + 1
  let stdinPipe := t.fds.next
  let stdoutPipe := t.fds.next + 2
  let first := makePipe t.fds child .stdin
  let both := makePipe first child .stdout
  match outcome with
  | .noContext | .firstPipeFails => t
  -- the pipes stay open when what follows them fails
  | .secondPipeFails => { t with fds := first }
  | .forkFails => { t with fds := both }
  | .firstDupFails | .secondDupFails | .succeeds =>
    { t with
      fds := (both.release stdinPipe).release (stdoutPipe + 1)
      process := ⟨child, some (stdinPipe + 1), some stdoutPipe⟩ }

/-- A new stream descriptor on a `dup`; the one before it is destroyed. -/
def openStdin (t : StdioChild) : StdioChild :=
  match t.process.stdinFd.bind t.fds.refers with
  | none => t
  | some pipeEnd =>
    { t with
      fds := (t.fds.acquire pipeEnd).releaseAll t.stdinDesc.toList
      stdinDesc := some t.fds.next }

def openStdout (t : StdioChild) : StdioChild :=
  match t.process.stdoutFd.bind t.fds.refers with
  | none => t
  | some pipeEnd =>
    { t with
      fds := (t.fds.acquire pipeEnd).releaseAll t.stdoutDesc.toList
      stdoutDesc := some t.fds.next }

def connect (t : StdioChild) (outcome : ConnectOutcome) : StdioChild :=
  if t.connected then t
  else
    match outcome with
    | .noContext => t
    | .firstPipeFails | .secondPipeFails | .forkFails => t.spawn outcome
    | .firstDupFails => { t.spawn outcome with connected := true }
    | .secondDupFails => { (t.spawn outcome).openStdin with connected := true }
    | .succeeds => { (t.spawn outcome).openStdin.openStdout with connected := true }

/-- `disconnect`, up to its `wait_for_exit`. -/
def closeStreams (t : StdioChild) : StdioChild :=
  { t with
    fds := t.fds.releaseAll (t.stdinDesc.toList ++ t.stdoutDesc.toList)
    stdinDesc := none, stdoutDesc := none, connected := false }

/-- `Process::terminate` -/
def terminate (t : StdioChild) : StdioChild :=
  { t with
    fds := t.fds.releaseAll (t.process.stdinFd.toList ++ t.process.stdoutFd.toList)
    process := { t.process with stdinFd := none, stdoutFd := none } }

def disconnect (t : StdioChild) (exits : Bool) : StdioChild :=
  if t.connected && !exits then t.closeStreams.terminate else t.closeStreams

/-- `do_read` on a line that is too long. -/
def dropConnection (t : StdioChild) : StdioChild :=
  { t with
    fds := t.fds.releaseAll (t.stdoutDesc.toList ++ t.stdinDesc.toList)
    stdinDesc := none, stdoutDesc := none, connected := false }

/-- `~StdioClientTransport`, and `~Process` behind it. -/
def destroy (t : StdioChild) (exits : Bool) : StdioChild :=
  { (t.disconnect exits).terminate with destroyed := true }

def step (t : StdioChild) (event : ChildEvent) : Option StdioChild :=
  if t.destroyed then none
  else
    match event with
    | .connects outcome => some (t.connect outcome)
    | .readFails => some { t with connected := false }
    | .dropsConnection => some t.dropConnection
    | .disconnects exits => some (t.disconnect exits)
    | .destroys exits => some (t.destroy exits)

/-- A step calls `wait_for_exit`. -/
def Waits (t : StdioChild) : ChildEvent → Prop
  | .disconnects _ | .destroys _ => t.connected = true
  | _ => False

/-- The parent has the write end of its child's `stdin` open. -/
def HoldsStdin (t : StdioChild) : Prop :=
  ∃ fd, t.fds.refers fd = some ⟨t.process.child, .stdin, true⟩

/-- The descriptors that the transport still knows of. -/
def held (t : StdioChild) : List Nat :=
  t.process.stdinFd.toList ++ t.process.stdoutFd.toList ++
    (t.stdinDesc.toList ++ t.stdoutDesc.toList)

/-- None of the descriptors has leaked. -/
def Leakless (t : StdioChild) : Prop := t.fds.Covered t.held

/-- A step forgets no descriptor: no `spawn` fails between its pipes and the child, and none
    finds the descriptors of a child before it recorded. -/
def Recorded (t : StdioChild) : ChildEvent → Prop
  | .connects outcome => t.connected = false →
    outcome ≠ .secondPipeFails ∧ outcome ≠ .forkFails ∧
      (outcome.Spawns → t.process.stdinFd = none ∧ t.process.stdoutFd = none)
  | _ => True

section Kept

variable {h : Handles PipeEnd} {owned : List Nat}

theorem makePipe_kept (kept : h.Kept owned) (child : Nat) (pipe : Pipe) :
    (makePipe h child pipe).Kept ((h.next + 1) :: h.next :: owned) ∧
      ((makePipe h child pipe).Covered ((h.next + 1) :: h.next :: owned) ↔ h.Covered owned) := by
  have first := kept.acquire ⟨child, pipe, false⟩
  have second := first.acquire ⟨child, pipe, true⟩
  exact ⟨second, (first.covered_acquire _).trans (kept.covered_acquire _)⟩

/-- The order in which descriptors are held does not matter. -/
theorem reorder {owned' : List Nat} (kept : h.Kept owned)
    (same : ∀ n, owned'.count n = owned.count n) :
    h.Kept owned' ∧ (h.Covered owned' ↔ h.Covered owned) :=
  ⟨kept.weaken fun n => Nat.le_of_eq (same n), Handles.covered_congr same⟩

end Kept

/-- A `spawn` that starts a child leaves the parent its ends of the two pipes. -/
theorem spawn_pipes {t : StdioChild} (kept : t.fds.Kept t.held) {outcome : ConnectOutcome}
    (spawns : outcome.Spawns) :
    let ends := (t.fds.next + 1) :: (t.fds.next + 2) :: t.held
    (t.spawn outcome).fds.Kept ends ∧
      ((t.spawn outcome).fds.Covered ends ↔ t.Leakless) := by
  intro ends
  let first := makePipe t.fds (t.process.child + 1) .stdin
  let both := makePipe first (t.process.child + 1) .stdout
  obtain ⟨keptFirst, coversFirst⟩ := makePipe_kept kept (t.process.child + 1) .stdin
  obtain ⟨keptBoth, coversBoth⟩ := makePipe_kept keptFirst (t.process.child + 1) .stdout
  have sorted : both.Kept (t.fds.next :: (t.fds.next + 3) :: ends) ∧
      (both.Covered (t.fds.next :: (t.fds.next + 3) :: ends) ↔ t.Leakless) := by
    have same (n : Nat) : (t.fds.next :: (t.fds.next + 3) :: ends).count n =
        ((first.next + 1) :: first.next :: (t.fds.next + 1) :: t.fds.next :: t.held).count n := by
      simp only [ends, first, makePipe, Handles.next_acquire, List.count_cons, Nat.add_assoc,
        Nat.reduceAdd]
      omega
    obtain ⟨keptSorted, coversSorted⟩ := reorder keptBoth same
    exact ⟨keptSorted, coversSorted.trans (coversBoth.trans coversFirst)⟩
  have spawned : (t.spawn outcome).fds = (both.release t.fds.next).release (t.fds.next + 3) := by
    rcases spawns with rfl | rfl | rfl <;> rfl
  rw [spawned]
  exact ⟨sorted.1.release.release,
    sorted.1.release.covered_release.trans (sorted.1.covered_release.trans sorted.2)⟩

/-- The transport has what it had, in other hands, and nothing more has leaked. -/
structure Carries (t t' : StdioChild) : Prop where
  kept : t'.fds.Kept t'.held
  leakless : t'.Leakless ↔ t.Leakless

theorem Carries.trans {t t' t'' : StdioChild} (first : t.Carries t') (second : t'.Carries t'') :
    t.Carries t'' := ⟨second.kept, second.leakless.trans first.leakless⟩

/-- Descriptors that were held are closed. -/
theorem carries_released {t t' : StdioChild} (kept : t.fds.Kept t.held) {gone : List Nat}
    (fds : t'.fds = t.fds.releaseAll gone)
    (same : ∀ n, (gone ++ t'.held).count n = t.held.count n) : t.Carries t' := by
  obtain ⟨kept', covers⟩ := reorder kept same
  obtain ⟨final, released⟩ := kept'.releaseAll
  rw [← fds] at final released
  exact ⟨final, released.trans covers⟩

/-- A new descriptor takes the place of an old one. -/
theorem carries_replaced {t t' : StdioChild} (kept : t.fds.Kept t.held) {old rest : List Nat}
    {pipeEnd : PipeEnd} (fds : t'.fds = (t.fds.acquire pipeEnd).releaseAll old)
    (before : ∀ n, (old ++ rest).count n = t.held.count n)
    (after : ∀ n, t'.held.count n = (t.fds.next :: rest).count n) : t.Carries t' := by
  obtain ⟨kept', covers⟩ := reorder kept before
  have moved (n : Nat) :
      (old ++ (t.fds.next :: rest)).count n = (t.fds.next :: (old ++ rest)).count n := by
    simp only [List.count_append, List.count_cons]
    omega
  obtain ⟨acquired, covers'⟩ := reorder (kept'.acquire pipeEnd) moved
  obtain ⟨final, released⟩ := acquired.releaseAll
  rw [← fds] at final released
  obtain ⟨ordered, covers''⟩ := reorder final after
  exact ⟨ordered, covers''.trans (released.trans
    (covers'.trans ((kept'.covered_acquire pipeEnd).trans covers)))⟩

theorem openStdin_carries {t : StdioChild} (kept : t.fds.Kept t.held) : t.Carries t.openStdin := by
  unfold openStdin
  split
  · exact ⟨kept, Iff.rfl⟩
  · let rest := t.process.stdinFd.toList ++ t.process.stdoutFd.toList ++ t.stdoutDesc.toList
    apply @carries_replaced _ _ kept _ rest _ rfl
    · intro n
      simp only [rest, held, List.count_append]
      omega
    · intro n
      simp only [rest, held, List.count_append, List.count_cons, Option.toList_some, List.count_nil]
      omega

theorem openStdout_carries {t : StdioChild} (kept : t.fds.Kept t.held) :
    t.Carries t.openStdout := by
  unfold openStdout
  split
  · exact ⟨kept, Iff.rfl⟩
  · let rest := t.process.stdinFd.toList ++ t.process.stdoutFd.toList ++ t.stdinDesc.toList
    apply @carries_replaced _ _ kept _ rest _ rfl
    · intro n
      simp only [rest, held, List.count_append]
      omega
    · intro n
      simp only [rest, held, List.count_append, List.count_cons, Option.toList_some, List.count_nil]
      omega

theorem closeStreams_carries {t : StdioChild} (kept : t.fds.Kept t.held) :
    t.Carries t.closeStreams := by
  apply carries_released kept rfl
  intro n
  simp only [held, closeStreams, List.count_append, Option.toList_none, List.count_nil]
  omega

theorem dropConnection_carries {t : StdioChild} (kept : t.fds.Kept t.held) :
    t.Carries t.dropConnection := by
  apply carries_released kept rfl
  intro n
  simp only [held, dropConnection, List.count_append, Option.toList_none, List.count_nil]
  omega

theorem terminate_carries {t : StdioChild} (kept : t.fds.Kept t.held) :
    t.Carries t.terminate := by
  apply carries_released kept rfl
  intro n
  simp only [held, terminate, List.count_append, Option.toList_none, List.count_nil]
  omega

theorem disconnect_carries {t : StdioChild} (kept : t.fds.Kept t.held) (exits : Bool) :
    t.Carries (t.disconnect exits) := by
  have closed := closeStreams_carries kept
  unfold disconnect
  split
  · exact closed.trans (terminate_carries closed.kept)
  · exact closed

theorem destroy_carries {t : StdioChild} (kept : t.fds.Kept t.held) (exits : Bool) :
    t.Carries (t.destroy exits) := by
  have left := disconnect_carries kept exits
  have final := terminate_carries left.kept
  exact left.trans ⟨final.kept, final.leakless⟩

/-- The `spawn` of a child forgets the descriptors that were recorded before. -/
theorem spawn_leakless_iff {t : StdioChild} (kept : t.fds.Kept t.held) {outcome : ConnectOutcome}
    (spawns : outcome.Spawns) : (t.spawn outcome).fds.Kept (t.spawn outcome).held ∧
      ((t.spawn outcome).Leakless ↔
        t.Leakless ∧ t.process.stdinFd = none ∧ t.process.stdoutFd = none) := by
  obtain ⟨kept', covers⟩ := spawn_pipes kept spawns
  have now : (t.spawn outcome).held = (t.fds.next + 1) :: (t.fds.next + 2) ::
      (t.stdinDesc.toList ++ t.stdoutDesc.toList) := by
    rcases spawns with rfl | rfl | rfl <;> rfl
  let recorded := t.process.stdinFd.toList ++ t.process.stdoutFd.toList
  have counts (n : Nat) : ((t.fds.next + 1) :: (t.fds.next + 2) :: t.held).count n =
      (t.spawn outcome).held.count n + recorded.count n := by
    rw [now]
    simp only [recorded, held, List.count_append, List.count_cons]
    omega
  constructor
  · exact kept'.weaken fun n => by rw [counts n]; omega
  · cases stdinFd : t.process.stdinFd with
    | some fd =>
      refine iff_of_false ?_ (by simp)
      apply @Handles.Kept.leaks _ _ _ _ kept' fd
      have forgotten : 0 < recorded.count fd := by
        apply List.count_pos_iff.mpr
        simp [recorded, stdinFd]
      have total := counts fd
      omega
    | none =>
      cases stdoutFd : t.process.stdoutFd with
      | some fd =>
        refine iff_of_false ?_ (by simp)
        apply @Handles.Kept.leaks _ _ _ _ kept' fd
        have forgotten : 0 < recorded.count fd := by
          apply List.count_pos_iff.mpr
          simp [recorded, stdoutFd]
        have total := counts fd
        omega
      | none =>
        have same (n : Nat) : (t.spawn outcome).held.count n =
            ((t.fds.next + 1) :: (t.fds.next + 2) :: t.held).count n := by
          rw [counts n]
          simp [recorded, stdinFd, stdoutFd]
        rw [and_iff_left ⟨rfl, rfl⟩]
        exact (Handles.covered_congr same).trans covers

/-- Open descriptors that nobody has are a leak. -/
theorem spilled {h : Handles PipeEnd} {fd : Nat} {gone owned : List Nat}
    (kept : h.Kept (fd :: gone ++ owned)) : h.Kept owned ∧ ¬ h.Covered owned := by
  constructor
  · apply kept.weaken
    intro n
    rw [List.count_append]
    omega
  · apply @Handles.Kept.leaks _ _ _ _ kept fd
    rw [List.count_append, List.count_cons]
    simp

/-- A `connect` forgets no descriptor exactly if its step is one that forgets none. -/
theorem connect_leakless_iff {t : StdioChild} (kept : t.fds.Kept t.held)
    (outcome : ConnectOutcome) : (t.connect outcome).fds.Kept (t.connect outcome).held ∧
      ((t.connect outcome).Leakless ↔ t.Leakless ∧ t.Recorded (.connects outcome)) := by
  unfold connect
  cases connected : t.connected with
  | true => simp [kept, Recorded, connected]
  | false =>
    have whole (spawns : outcome.Spawns) : t.Recorded (.connects outcome) ↔
        t.process.stdinFd = none ∧ t.process.stdoutFd = none := by
      simp only [Recorded, connected, forall_const, spawns]
      constructor
      · exact fun recorded => recorded.2.2
      · intro none
        refine ⟨?_, ?_, none⟩ <;> rintro rfl <;> revert spawns <;> decide
    have early (before : ¬ outcome.Spawns) (second : outcome ≠ .secondPipeFails)
        (fork : outcome ≠ .forkFails) : t.Leakless ↔ t.Leakless ∧ t.Recorded (.connects outcome) := by
      have recorded : t.Recorded (.connects outcome) :=
        fun _ => ⟨second, fork, fun spawns => absurd spawns before⟩
      exact (and_iff_left recorded).symm
    obtain ⟨first, -⟩ := makePipe_kept kept (t.process.child + 1) .stdin
    cases outcome with
    | noContext => exact ⟨kept, early (by decide) (by decide) (by decide)⟩
    | firstPipeFails => exact ⟨kept, early (by decide) (by decide) (by decide)⟩
    | secondPipeFails =>
      obtain ⟨kept', leaks⟩ := @spilled _ _ [_] _ first
      refine ⟨kept', iff_of_false leaks ?_⟩
      simp [Recorded, connected]
    | forkFails =>
      obtain ⟨both, -⟩ := makePipe_kept first (t.process.child + 1) .stdout
      obtain ⟨kept', leaks⟩ := @spilled _ _ [_, _, _] _ both
      refine ⟨kept', iff_of_false leaks ?_⟩
      simp [Recorded, connected]
    | firstDupFails =>
      obtain ⟨spawned, leakless⟩ := spawn_leakless_iff kept (.inl rfl)
      rw [whole (.inl rfl)]
      exact ⟨spawned, leakless⟩
    | secondDupFails =>
      obtain ⟨spawned, leakless⟩ := spawn_leakless_iff kept (.inr (.inl rfl))
      have opened := openStdin_carries spawned
      rw [whole (.inr (.inl rfl))]
      exact ⟨opened.kept, opened.leakless.trans leakless⟩
    | succeeds =>
      obtain ⟨spawned, leakless⟩ := spawn_leakless_iff kept (.inr (.inr rfl))
      have opened := openStdin_carries spawned
      have opened' := opened.trans (openStdout_carries opened.kept)
      rw [whole (.inr (.inr rfl))]
      exact ⟨opened'.kept, opened'.leakless.trans leakless⟩

/-- The recorded end is none of the stream descriptors', and is not the next one. -/
theorem stdin_apart {t : StdioChild} (kept : t.fds.Kept t.held) {fd : Nat}
    (recorded : t.process.stdinFd = some fd) :
    fd ∉ t.stdinDesc.toList ∧ fd ∉ t.stdoutDesc.toList ∧ fd ≠ t.fds.next := by
  have owned := kept.owned fd
  have single : t.fds.live fd ≤ 1 := by
    unfold Handles.live
    split <;> omega
  simp only [held, recorded, Option.toList_some, List.count_append, List.count_singleton_self]
    at owned
  refine ⟨?_, ?_, ?_⟩
  · intro member
    have more := List.count_pos_iff.mpr member
    omega
  · intro member
    have more := List.count_pos_iff.mpr member
    omega
  · rintro rfl
    have fresh := kept.fresh.1
    omega

/-- The transport has the write end of its child's `stdin` recorded and open. -/
def RecordsStdin (t : StdioChild) : Prop :=
  ∃ fd, t.process.stdinFd = some fd ∧ t.fds.refers fd = some ⟨t.process.child, .stdin, true⟩

theorem spawn_records (t : StdioChild) {outcome : ConnectOutcome} (spawns : outcome.Spawns) :
    (t.spawn outcome).RecordsStdin := by
  refine ⟨t.fds.next + 1, ?_⟩
  rcases spawns with rfl | rfl | rfl <;>
    simp [spawn, makePipe, Handles.refers_release, Handles.refers_acquire]

/-- A stream descriptor is replaced that is not the recorded one. -/
theorem records_replaced {t t' : StdioChild} {fd : Nat} {pipeEnd : PipeEnd} {old : List Nat}
    (recorded : t.process.stdinFd = some fd)
    (refers : t.fds.refers fd = some ⟨t.process.child, .stdin, true⟩)
    (process : t'.process = t.process) (fds : t'.fds = (t.fds.acquire pipeEnd).releaseAll old)
    (apart : fd ∉ old) (other : fd ≠ t.fds.next) : t'.RecordsStdin := by
  refine ⟨fd, process ▸ recorded, ?_⟩
  rw [process, fds, Handles.refers_releaseAll, if_neg apart, Handles.refers_acquire, if_neg other]
  exact refers

theorem openStdin_records {t : StdioChild} (kept : t.fds.Kept t.held) (records : t.RecordsStdin) :
    t.openStdin.RecordsStdin := by
  obtain ⟨fd, recorded, refers⟩ := records
  obtain ⟨apart, -, other⟩ := stdin_apart kept recorded
  unfold openStdin
  split
  · exact ⟨fd, recorded, refers⟩
  · exact records_replaced recorded refers rfl rfl apart other

theorem openStdout_records {t : StdioChild} (kept : t.fds.Kept t.held) (records : t.RecordsStdin) :
    t.openStdout.RecordsStdin := by
  obtain ⟨fd, recorded, refers⟩ := records
  obtain ⟨-, apart, other⟩ := stdin_apart kept recorded
  unfold openStdout
  split
  · exact ⟨fd, recorded, refers⟩
  · exact records_replaced recorded refers rfl rfl apart other

theorem closeStreams_records {t : StdioChild} (kept : t.fds.Kept t.held)
    (records : t.RecordsStdin) : t.closeStreams.RecordsStdin := by
  obtain ⟨fd, recorded, refers⟩ := records
  obtain ⟨apart, apart', -⟩ := stdin_apart kept recorded
  refine ⟨fd, recorded, ?_⟩
  have stays : fd ∉ t.stdinDesc.toList ++ t.stdoutDesc.toList := by
    rw [List.mem_append, not_or]
    exact ⟨apart, apart'⟩
  show (t.fds.releaseAll _).refers fd = _
  rw [Handles.refers_releaseAll, if_neg stays]
  exact refers

theorem connect_records {t : StdioChild} (kept : t.fds.Kept t.held)
    (before : t.connected = true → t.RecordsStdin) (outcome : ConnectOutcome)
    (connected : (t.connect outcome).connected = true) : (t.connect outcome).RecordsStdin := by
  unfold connect at connected ⊢
  split
  · exact before ‹_›
  · rename_i idle
    rw [if_neg idle] at connected
    have spawned (spawns : outcome.Spawns) :
        (t.spawn outcome).RecordsStdin ∧ (t.spawn outcome).fds.Kept (t.spawn outcome).held :=
      ⟨spawn_records t spawns, (spawn_leakless_iff kept spawns).1⟩
    cases outcome with
    | noContext | firstPipeFails | secondPipeFails | forkFails => exact absurd connected idle
    | firstDupFails => exact (spawned (.inl rfl)).1
    | secondDupFails =>
      obtain ⟨records, kept'⟩ := spawned (.inr (.inl rfl))
      exact openStdin_records kept' records
    | succeeds =>
      obtain ⟨records, kept'⟩ := spawned (.inr (.inr rfl))
      have records' := openStdin_records kept' records
      exact openStdout_records (openStdin_carries kept').kept records'

theorem destroy_held (t : StdioChild) (exits : Bool) : (t.destroy exits).held = [] := by
  unfold destroy disconnect
  split <;> rfl

/-- The step does not wait for the exit of a child, and forgets no descriptor. -/
def Orderly (t : StdioChild) (event : ChildEvent) : Prop := ¬ t.Waits event ∧ t.Recorded event

structure Inv (t : StdioChild) : Prop where
  kept : t.fds.Kept t.held
  records : t.connected = true → t.RecordsStdin
  released : t.destroyed = true → t.held = []

theorem initial_inv : Inv {} :=
  ⟨Handles.kept_initial, nofun, fun _ => rfl⟩

theorem connect_destroyed (t : StdioChild) (outcome : ConnectOutcome) :
    (t.connect outcome).destroyed = t.destroyed := by
  unfold connect
  split
  · rfl
  · cases outcome
    all_goals simp only [spawn, openStdin, openStdout]
    all_goals repeat' split
    all_goals rfl

theorem disconnect_idle (t : StdioChild) (exits : Bool) : (t.disconnect exits).connected = false := by
  unfold disconnect
  split <;> rfl

theorem step_inv {t t' : StdioChild} {event : ChildEvent} (inv : t.Inv)
    (h : t.step event = some t') : t'.Inv ∧ (t'.Leakless ↔ t.Leakless ∧ t.Recorded event) := by
  unfold step at h
  split at h
  · cases h
  rename_i alive
  have always {P : Prop} : P ↔ P ∧ True := (and_iff_left True.intro).symm
  cases event with
  | connects outcome =>
    cases h
    obtain ⟨kept, leakless⟩ := connect_leakless_iff inv.kept outcome
    refine ⟨⟨kept, connect_records inv.kept inv.records outcome, ?_⟩, leakless⟩
    rw [connect_destroyed]
    exact fun destroyed => absurd destroyed alive
  | readFails =>
    cases h
    exact ⟨⟨inv.kept, nofun, inv.released⟩, always⟩
  | dropsConnection =>
    cases h
    obtain ⟨kept, leakless⟩ := dropConnection_carries inv.kept
    exact ⟨⟨kept, nofun, fun destroyed => absurd destroyed alive⟩, leakless.trans always⟩
  | disconnects exits =>
    cases h
    obtain ⟨kept, leakless⟩ := disconnect_carries inv.kept exits
    refine ⟨⟨kept, ?_, ?_⟩, leakless.trans always⟩
    · rw [disconnect_idle]
      nofun
    · have same : (t.disconnect exits).destroyed = t.destroyed := by
        unfold disconnect
        split <;> rfl
      rw [same]
      exact fun destroyed => absurd destroyed alive
  | destroys exits =>
    cases h
    obtain ⟨kept, leakless⟩ := destroy_carries inv.kept exits
    refine ⟨⟨kept, ?_, fun _ => destroy_held t exits⟩, leakless.trans always⟩
    have idle : (t.destroy exits).connected = false := disconnect_idle t exits
    rw [idle]
    nofun

theorem run_inv {t : StdioChild} {events : List ChildEvent}
    (h : run step {} events = some t) : t.Inv :=
  run_keeps (fun _ _ _ inv stepped => (step_inv inv stepped).1) initial_inv h

/-- A descriptor that has leaked is never closed again. -/
theorem run_leaks {t t' : StdioChild} {events : List ChildEvent} (inv : t.Inv)
    (leaks : ¬ t.Leakless) (h : run step t events = some t') : ¬ t'.Leakless := by
  have both : t'.Inv ∧ ¬ t'.Leakless := by
    apply @run_keeps _ _ step (fun t => t.Inv ∧ ¬ t.Leakless) _ _ _ _ ⟨inv, leaks⟩ h
    intro s e s' ⟨inv, leaks⟩ stepped
    obtain ⟨inv', leakless⟩ := step_inv inv stepped
    exact ⟨inv', fun none => leaks (leakless.mp none).1⟩
  exact both.2

theorem run_leakless {t : StdioChild} {events : List ChildEvent}
    (orderly : Meets step Orderly {} events) (h : run step {} events = some t) : t.Leakless := by
  have both : t.Inv ∧ t.Leakless := by
    have start : ({} : StdioChild).Inv ∧ ({} : StdioChild).Leakless :=
      ⟨initial_inv, Handles.covered_initial⟩
    apply @run_invariant _ _ step Orderly (fun t => t.Inv ∧ t.Leakless) _ _ _ _ start orderly h
    intro s e s' ⟨inv, leakless⟩ orderly stepped
    obtain ⟨inv', same⟩ := step_inv inv stepped
    exact ⟨inv', same.mpr ⟨leakless, orderly.2⟩⟩
  exact both.2

/-- The end of a child's `stdin` that the `Process` keeps is open when its exit is waited for. -/
theorem waits_open {t : StdioChild} {event : ChildEvent} (inv : t.Inv) (waits : t.Waits event) :
    t.closeStreams.HoldsStdin := by
  have connected : t.connected = true := by
    cases event with
    | disconnects | destroys => exact waits
    | connects | readFails | dropsConnection => exact absurd waits id
  obtain ⟨fd, -, refers⟩ := closeStreams_records inv.kept (inv.records connected)
  exact ⟨fd, refers⟩

/-- No open descriptor is the write end of the child's `stdin` when its exit is waited for, and
    after the destruction every descriptor has been closed exactly once. -/
structure ClosesAll (events : List ChildEvent) : Prop where
  eof : ∀ front event back t, events = front ++ event :: back → run step {} front = some t →
    t.Waits event → ¬ t.closeStreams.HoldsStdin
  once : ∀ t, run step {} events = some t → t.destroyed = true →
    ∀ fd < t.fds.next, t.fds.releases.count fd = 1

/-- A run closes everything in time if each of its steps is orderly, and a run to the destruction
    only then. -/
theorem closes_all_iff {events : List ChildEvent} {t : StdioChild}
    (h : run step {} events = some t) :
    (Meets step Orderly {} events → ClosesAll events) ∧
      (t.destroyed = true → ClosesAll events → Meets step Orderly {} events) := by
  have empty {s : StdioChild} (inv : s.Inv) (destroyed : s.destroyed = true) :
      (∀ fd < s.fds.next, s.fds.releases.count fd = 1) ↔ s.Leakless := by
    have kept := inv.kept
    unfold Leakless
    rw [inv.released destroyed] at kept ⊢
    exact kept.released_iff
  constructor
  · intro orderly
    constructor
    · intro front event back s split reached waits
      exact absurd waits ((meets_iff h).mp orderly front event back s split reached).1
    · intro s reached destroyed
      obtain rfl : t = s := Option.some.inj (h.symm.trans reached)
      exact (empty (run_inv h) destroyed).mpr (run_leakless orderly h)
  · intro destroyed closes
    rw [meets_iff h]
    intro front event back s split reached
    have inv := run_inv reached
    constructor
    · intro waits
      exact closes.eof front event back s split reached waits (waits_open inv waits)
    · by_contra forgets
      subst split
      obtain ⟨s', first, later⟩ := run_split h
      obtain rfl : s = s' := Option.some.inj (reached.symm.trans first)
      obtain ⟨next, stepped, later⟩ := run_cons_eq later
      obtain ⟨inv', leakless⟩ := step_inv inv stepped
      have leaks := run_leaks inv' (fun none => forgets (leakless.mp none).2) later
      exact leaks ((empty (run_inv h) destroyed).mp (closes.once t h destroyed))

/-- A child that closes its side, and a transport that is destroyed then. -/
def childLeaves : List ChildEvent :=
  [.connects .succeeds, .readFails, .disconnects true, .destroys true]

theorem child_leaves_closed : ∃ t, run step {} childLeaves = some t ∧
    (Meets step Orderly {} childLeaves → ClosesAll childLeaves) ∧
      (t.destroyed = true → ClosesAll childLeaves → Meets step Orderly {} childLeaves) :=
  ⟨_, rfl, closes_all_iff rfl⟩

/-- A `disconnect` while the child runs, and a connection after one that the child has closed. -/
theorem stdin_left_open : ¬ ClosesAll [.connects .succeeds, .disconnects false] ∧
    ¬ ClosesAll [.connects .succeeds, .readFails, .connects .succeeds, .readFails,
      .destroys true] := by
  constructor
  · intro closes
    exact closes.eof [.connects .succeeds] (.disconnects false) [] _ rfl rfl rfl ⟨1, rfl⟩
  · intro closes
    have once := closes.once _ rfl rfl 1 (by decide)
    revert once
    decide

end StdioChild

end CppMcp
