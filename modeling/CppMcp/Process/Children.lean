import Mathlib.Logic.Function.Basic
import CppMcp.Lib.Run
import CppMcp.Lib.Table

namespace CppMcp

open Lib Function

/-- Who started a process: a transport, the rest of the program, or another program. -/
inductive Starter where
  | transport (object : Nat)
  | program
  | elsewhere
deriving DecidableEq

/-- A process, with its number among all that were ever started. After its end it keeps its pid
    until its parent waits for it; after that the pid is given out again. -/
structure OsProcess where
  serial : Nat
  starter : Starter
  ended : Bool := false
deriving DecidableEq

/-- Where an object is: in no call, in `wait_for_exit`, in `terminate` with so many rounds left
    after its SIGTERM, in the `waitpid` after its SIGKILL, or destroyed. -/
inductive ChildPhase where
  | idle
  | waiting (destroys : Bool)
  | terminating (rounds : Nat) (destroys : Bool)
  | killing (destroys : Bool)
  | destroyed
deriving DecidableEq

/-- A `StdioClientTransport` with its `process_`. `childPid` is `none` for -1. -/
structure ChildHandle where
  connected : Bool := false
  childPid : Option Nat := none
  phase : ChildPhase := .idle
deriving DecidableEq

/-- The processes of the system, and the transports of one program. `signals`, `reaped` and
    `forgotten` are histories: what each `kill` hit, what each `waitpid` took away, and the
    children whose pid a later `spawn` has overwritten. -/
structure ProcessTable where
  processes : AList (fun _ : Nat => OsProcess) := ∅
  started : Nat := 0
  handles : Nat → ChildHandle := fun _ => {}
  signals : List (Nat × Option OsProcess) := []
  reaped : List (Nat × OsProcess) := []
  forgotten : List Nat := []

/-- `starts`, `ends` and `collects` are steps of other programs, of the children, and of those
    parts of this program that wait for children of their own. The pid of `connects` is that of
    the fork, if the `spawn` succeeds; `choice` is the child that a wait for any child takes. -/
inductive ProcessEvent where
  | starts (pid : Nat) (starter : Starter)
  | ends (pid : Nat)
  | collects (pid : Nat)
  | connects (object : Nat) (pid : Option Nat)
  | readFails (object : Nat)
  | disconnects (object : Nat) (destroys : Bool)
  | polls (object choice : Nat)
  | timesOut (object : Nat)
deriving DecidableEq

namespace ProcessTable

def setHandle (t : ProcessTable) (object : Nat) (h : ChildHandle) : ProcessTable :=
  { t with handles := update t.handles object h }

/-- `fork`: a pid that is free. -/
def start (t : ProcessTable) (pid : Nat) (starter : Starter) : Option ProcessTable :=
  if 0 < pid ∧ t.processes.lookup pid = none then
    some { t with
      processes := t.processes.insert pid ⟨t.started, starter, false⟩
      started := t.started + 1 }
  else none

def isChild (p : OsProcess) : Bool := p.starter ≠ .elsewhere

/-- `waitpid` with `WNOHANG`, when it returns a pid. -/
def reap (t : ProcessTable) (object pid : Nat) : Option ProcessTable :=
  match t.processes.lookup pid with
  | some p =>
    if p.ended ∧ isChild p then
      some { t with processes := t.processes.erase pid, reaped := t.reaped ++ [(object, p)] }
    else none
  | none => none

def signal (t : ProcessTable) (object pid : Nat) : ProcessTable :=
  { t with signals := t.signals ++ [(object, t.processes.lookup pid)] }

def after (destroys : Bool) : ChildPhase := if destroys then .destroyed else .idle

/-- `terminate`, up to its first `waitpid`. -/
def terminate (t : ProcessTable) (object : Nat) (destroys : Bool) : ProcessTable :=
  match (t.handles object).childPid with
  | none => t.setHandle object { t.handles object with phase := after destroys }
  | some pid =>
    (t.signal object pid).setHandle object
      { t.handles object with phase := .terminating 50 destroys }

/-- The child was reaped, and the call is over. -/
def finish (t : ProcessTable) (object : Nat) (destroys : Bool) : ProcessTable :=
  t.setHandle object { t.handles object with childPid := none, phase := after destroys }

def spawn (t : ProcessTable) (object pid : Nat) : Option ProcessTable :=
  (t.start pid (.transport object)).map fun next =>
    { next with
      handles := update t.handles object ⟨true, some pid, .idle⟩
      forgotten := t.forgotten ++ ((t.handles object).childPid.bind t.processes.lookup).toList.map
        OsProcess.serial }

/-- A round of the loop that the object is in, or its last `waitpid`. -/
def poll (t : ProcessTable) (object choice : Nat) : Option ProcessTable :=
  match (t.handles object).phase, (t.handles object).childPid with
  | .waiting destroys, some pid =>
    match t.reap object pid with
    | some next => some (next.finish object destroys)
    | none => some t
  -- `waitpid(-1)` takes any child, whose pid is not -1; without children it returns -1
  | .waiting destroys, none =>
    if t.processes.entries.all fun entry => !isChild entry.2 then some (t.finish object destroys)
    else some ((t.reap object choice).getD t)
  | .terminating 0 destroys, some pid =>
    some ((t.signal object pid).setHandle object
      { t.handles object with phase := .killing destroys })
  | .terminating (rounds + 1) destroys, some pid =>
    match t.reap object pid with
    | some next => some (next.finish object destroys)
    | none => some (t.setHandle object
      { t.handles object with phase := .terminating rounds destroys })
  -- the last `waitpid` blocks as long as there is such a child
  | .killing destroys, some pid =>
    match t.reap object pid with
    | some next => some (next.finish object destroys)
    | none =>
      match t.processes.lookup pid with
      | some p => if isChild p then none else some (t.finish object destroys)
      | none => some (t.finish object destroys)
  | _, _ => none

def step (t : ProcessTable) : ProcessEvent → Option ProcessTable
  | .starts pid starter =>
    match starter with
    | .transport _ => none
    | _ => t.start pid starter
  | .ends pid =>
    (t.processes.lookup pid).map fun p =>
      { t with processes := t.processes.insert pid { p with ended := true } }
  | .collects pid =>
    match t.processes.lookup pid with
    | some ⟨_, .program, true⟩ | some ⟨_, .elsewhere, true⟩ =>
      some { t with processes := t.processes.erase pid }
    | _ => none
  | .connects object pid =>
    if (t.handles object).phase = .idle then
      if (t.handles object).connected then some t
      else
        match pid with
        | none => some t
        | some pid => t.spawn object pid
    else none
  | .readFails object => some (t.setHandle object { t.handles object with connected := false })
  | .disconnects object destroys =>
    if (t.handles object).phase = .idle then
      if (t.handles object).connected then
        some (t.setHandle object
          { t.handles object with connected := false, phase := .waiting destroys })
      else if destroys then some (t.terminate object true)
      else some t
    else none
  | .polls object choice => t.poll object choice
  | .timesOut object =>
    match (t.handles object).phase with
    | .waiting destroys => some (t.terminate object destroys)
    | _ => none

end ProcessTable

/-- The object is in a call that waits for its child. -/
def ChildPhase.busy : ChildPhase → Bool
  | waiting _ | terminating _ _ | killing _ => true
  | _ => false

/-- A transport that is connected, or waits for a child, has recorded one. -/
structure ChildHandle.Sound (h : ChildHandle) : Prop where
  held : h.connected = true ∨ h.phase.busy = true → h.childPid ≠ none
  idle : h.connected = true → h.phase = .idle
  gone : h.phase = .destroyed → h.childPid = none

namespace ProcessTable

/-- A recorded pid is that of a child of this object that nobody has waited for, also when pids
    are given out again. -/
structure Owned (t : ProcessTable) : Prop where
  recorded : ∀ o pid, (t.handles o).childPid = some pid →
    ∃ p, t.processes.lookup pid = some p ∧ p.starter = .transport o
  handles : ∀ o, (t.handles o).Sound
  numbered : ∀ pid p, t.processes.lookup pid = some p →
    p.serial < t.started ∧ ∀ entry ∈ t.reaped, entry.2.serial ≠ p.serial
  distinct : ∀ pid pid' p p', t.processes.lookup pid = some p → t.processes.lookup pid' = some p' →
    p.serial = p'.serial → pid = pid'
  reaped : ∀ entry ∈ t.reaped, entry.2.serial < t.started ∧ entry.2.starter = .transport entry.1
  once : (t.reaped.map fun entry => entry.2.serial).Nodup
  signals : ∀ entry ∈ t.signals, ∃ p, entry.2 = some p ∧ p.starter = .transport entry.1
  kept : ∀ pid p o, t.processes.lookup pid = some p → p.starter = .transport o →
    (t.handles o).childPid = some pid ∨ p.serial ∈ t.forgotten

theorem handle_cases (handles : Nat → ChildHandle) (object other : Nat) (h : ChildHandle) :
    (other = object ∧ update handles object h other = h) ∨
      (other ≠ object ∧ update handles object h other = handles other) := by
  by_cases own : other = object
  · subst own
    exact .inl ⟨rfl, update_self _ _ _⟩
  · exact .inr ⟨own, update_of_ne own _ _⟩

theorem handles_sound {t : ProcessTable} (inv : t.Owned) {object : Nat} {h : ChildHandle}
    (sound : h.Sound) (o : Nat) : (update t.handles object h o).Sound := by
  rcases handle_cases t.handles object o h with ⟨-, now⟩ | ⟨-, now⟩
  · rw [now]
    exact sound
  · rw [now]
    exact inv.handles o

/-- A handle changes without its pid. -/
theorem setHandle_owned {t : ProcessTable} (inv : t.Owned) {object : Nat} {h : ChildHandle}
    (pid : h.childPid = (t.handles object).childPid) (sound : h.Sound) :
    (t.setHandle object h).Owned := by
  have same (o : Nat) : (update t.handles object h o).childPid = (t.handles o).childPid := by
    rcases handle_cases t.handles object o h with ⟨rfl, now⟩ | ⟨-, now⟩
    · rw [now, pid]
    · rw [now]
  refine ⟨fun o child found => ?_, handles_sound inv sound, inv.numbered, inv.distinct, inv.reaped,
    inv.once, inv.signals, fun child p o found starter => ?_⟩
  · exact inv.recorded o child ((same o).symm.trans found)
  · exact (inv.kept child p o found starter).imp_left fun own => (same o).trans own

theorem signal_owned {t : ProcessTable} (inv : t.Owned) {object pid : Nat}
    (recorded : (t.handles object).childPid = some pid) : (t.signal object pid).Owned := by
  refine ⟨inv.recorded, inv.handles, inv.numbered, inv.distinct, inv.reaped, inv.once,
    fun entry member => ?_, inv.kept⟩
  rcases List.mem_append.mp member with old | new
  · exact inv.signals entry old
  · rw [List.mem_singleton.mp new]
    exact inv.recorded object pid recorded

theorem reap_some {t t' : ProcessTable} {object pid : Nat} (h : t.reap object pid = some t') :
    ∃ p, t.processes.lookup pid = some p ∧ p.ended = true ∧
      t' = { t with processes := t.processes.erase pid, reaped := t.reaped ++ [(object, p)] } := by
  unfold reap at h
  split at h
  · rename_i p found
    rw [Option.ite_none_right_eq_some] at h
    obtain ⟨⟨ended, -⟩, same⟩ := h
    exact ⟨p, found, ended, (Option.some.inj same).symm⟩
  · cases h

/-- The object's own child is waited for, and the call ends. -/
theorem finish_owned {t t' : ProcessTable} (inv : t.Owned) {object pid : Nat}
    (recorded : (t.handles object).childPid = some pid)
    (busy : (t.handles object).phase.busy = true) (h : t.reap object pid = some t')
    (destroys : Bool) : (t'.finish object destroys).Owned := by
  obtain ⟨p, found, -, rfl⟩ := reap_some h
  obtain ⟨own, present, starter⟩ := inv.recorded object pid recorded
  obtain rfl : p = own := Option.some.inj (found.symm.trans present)
  have apart : (t.handles object).connected = false := by
    refine Bool.eq_false_iff.mpr fun connected => ?_
    rw [(inv.handles object).idle connected] at busy
    cases busy
  let done : ChildHandle := { t.handles object with childPid := none, phase := after destroys }
  have cases_of (o : Nat) := handle_cases t.handles object o done
  have quiet : done.phase.busy = false := by
    show (after destroys).busy = false
    cases destroys <;> rfl
  have sound : done.Sound := by
    refine ⟨fun either => ?_, fun connected => ?_, fun _ => rfl⟩
    · rcases either with connected | waits
      · exact nomatch apart.symm.trans connected
      · exact nomatch quiet.symm.trans waits
    · exact nomatch apart.symm.trans connected
  refine ⟨fun o child there => ?_, handles_sound inv sound, fun child q there => ?_,
    fun child child' q q' there there' => ?_, fun entry member => ?_, ?_, inv.signals,
    fun child q o there by_ => ?_⟩
  · change (update t.handles object done o).childPid = some child at there
    rcases cases_of o with ⟨rfl, now⟩ | ⟨other, now⟩
    · rw [now] at there
      cases there
    · rw [now] at there
      obtain ⟨q, before, same⟩ := inv.recorded o child there
      refine ⟨q, ?_, same⟩
      have different : child ≠ pid := by
        rintro rfl
        obtain rfl : p = q := Option.some.inj (found.symm.trans before)
        exact other (Starter.transport.inj (same.symm.trans starter))
      show (t.processes.erase pid).lookup child = some q
      rw [AList.lookup_erase_ne different, before]
  · obtain ⟨different, before⟩ := lookup_erase there
    obtain ⟨below, unreaped⟩ := inv.numbered child q before
    refine ⟨below, fun entry member => ?_⟩
    rcases List.mem_append.mp member with old | new
    · exact unreaped entry old
    · rw [List.mem_singleton.mp new]
      exact fun same => different (inv.distinct child pid q p before found same.symm)
  · exact inv.distinct child child' q q' (lookup_erase there).2 (lookup_erase there').2
  · rcases List.mem_append.mp member with old | new
    · exact inv.reaped entry old
    · rw [List.mem_singleton.mp new]
      exact ⟨(inv.numbered pid p found).1, starter⟩
  · show ((t.reaped ++ [(object, p)]).map fun entry => entry.2.serial).Nodup
    rw [List.map_append]
    refine List.Nodup.append inv.once (List.nodup_singleton _) fun serial before new => ?_
    obtain ⟨entry, member, rfl⟩ := List.mem_map.mp before
    exact (inv.numbered pid p found).2 entry member (List.mem_singleton.mp new)
  · obtain ⟨different, before⟩ := lookup_erase there
    show (update t.handles object done o).childPid = some child ∨ _
    rcases cases_of o with ⟨rfl, -⟩ | ⟨-, now⟩
    · rcases inv.kept child q o before by_ with own | lost
      · exact absurd (Option.some.inj (own.symm.trans recorded)) different
      · exact .inr lost
    · rw [now]
      exact inv.kept child q o before by_

theorem terminate_owned {t : ProcessTable} (inv : t.Owned) {object : Nat} {destroys : Bool}
    (apart : (t.handles object).connected = false) : (t.terminate object destroys).Owned := by
  unfold terminate
  split
  · rename_i none_
    refine setHandle_owned inv rfl ⟨fun either => ?_, fun connected => ?_, fun _ => none_⟩
    · rcases either with connected | waits
      · exact nomatch apart.symm.trans connected
      · cases destroys <;> cases waits
    · exact nomatch apart.symm.trans connected
  · rename_i pid recorded
    refine setHandle_owned (signal_owned inv recorded) rfl ⟨fun _ none_ => ?_, fun connected => ?_,
      nofun⟩
    · exact nomatch recorded.symm.trans none_
    · exact nomatch apart.symm.trans connected

/-- A call goes on with the child that is recorded. -/
theorem goesOn_owned {t : ProcessTable} (inv : t.Owned) {object pid : Nat} {phase : ChildPhase}
    (recorded : (t.handles object).childPid = some pid)
    (busy : (t.handles object).phase.busy = true) (next : phase.busy = true) :
    (t.setHandle object { t.handles object with phase }).Owned := by
  refine setHandle_owned inv rfl ⟨fun _ none_ => ?_, fun connected => ?_, fun gone => ?_⟩
  · exact nomatch recorded.symm.trans none_
  · rw [(inv.handles object).idle connected] at busy
    cases busy
  · rw [show phase = .destroyed from gone] at next
    cases next

theorem poll_owned {t t' : ProcessTable} (inv : t.Owned) {object choice : Nat}
    (h : t.poll object choice = some t') : t'.Owned := by
  unfold poll at h
  split at h
  · rename_i destroys pid at_phase recorded
    have busy : (t.handles object).phase.busy = true := at_phase ▸ rfl
    split at h
    · rename_i next reaped
      cases h
      exact finish_owned inv recorded busy reaped destroys
    · cases h
      exact inv
  · rename_i destroys at_phase none_
    have busy : (t.handles object).phase.busy = true := at_phase ▸ rfl
    exact absurd none_ ((inv.handles object).held (.inr busy))
  · rename_i destroys pid at_phase recorded
    have busy : (t.handles object).phase.busy = true := at_phase ▸ rfl
    cases h
    exact goesOn_owned (signal_owned inv recorded) recorded busy rfl
  · rename_i rounds destroys pid at_phase recorded
    have busy : (t.handles object).phase.busy = true := at_phase ▸ rfl
    split at h
    · rename_i next reaped
      cases h
      exact finish_owned inv recorded busy reaped destroys
    · cases h
      exact goesOn_owned inv recorded busy rfl
  · rename_i destroys pid at_phase recorded
    have busy : (t.handles object).phase.busy = true := at_phase ▸ rfl
    split at h
    · rename_i next reaped
      cases h
      exact finish_owned inv recorded busy reaped destroys
    · -- the child is there until it is waited for here, so the call blocks
      obtain ⟨p, found, starter⟩ := inv.recorded object pid recorded
      simp [found, isChild, starter] at h
  · cases h

theorem start_some {t t' : ProcessTable} {pid : Nat} {starter : Starter}
    (h : t.start pid starter = some t') : t.processes.lookup pid = none ∧
      t' = { t with
        processes := t.processes.insert pid ⟨t.started, starter, false⟩
        started := t.started + 1 } := by
  simp only [start, Option.ite_none_right_eq_some] at h
  exact ⟨h.1.2, (Option.some.inj h.2).symm⟩

/-- A new process has a number of its own. -/
theorem start_numbered {t t' : ProcessTable} (inv : t.Owned) {pid : Nat} {starter : Starter}
    (h : t.start pid starter = some t') :
    (∀ child p, t'.processes.lookup child = some p →
      p.serial < t'.started ∧ ∀ entry ∈ t'.reaped, entry.2.serial ≠ p.serial) ∧
    ∀ child child' p p', t'.processes.lookup child = some p →
      t'.processes.lookup child' = some p' → p.serial = p'.serial → child = child' := by
  obtain ⟨-, rfl⟩ := start_some h
  refine ⟨fun child p found => ?_, fun child child' p p' found found' same => ?_⟩
  · rcases lookup_insert_cases found with ⟨-, rfl⟩ | ⟨-, before⟩
    · exact ⟨Nat.lt_succ_self _, fun entry member => Nat.ne_of_lt (inv.reaped entry member).1⟩
    · exact ⟨Nat.lt_succ_of_lt (inv.numbered child p before).1, (inv.numbered child p before).2⟩
  · rcases lookup_insert_cases found with ⟨rfl, rfl⟩ | ⟨-, before⟩ <;>
      rcases lookup_insert_cases found' with ⟨rfl, rfl⟩ | ⟨-, before'⟩
    · rfl
    · exact absurd same.symm (Nat.ne_of_lt (inv.numbered child' p' before').1)
    · exact absurd same (Nat.ne_of_lt (inv.numbered child p before).1)
    · exact inv.distinct child child' p p' before before' same

/-- A process that no transport has started. -/
theorem starts_owned {t t' : ProcessTable} (inv : t.Owned) {pid : Nat} {starter : Starter}
    (other : ∀ o, starter ≠ .transport o) (h : t.start pid starter = some t') : t'.Owned := by
  obtain ⟨numbered, distinct⟩ := start_numbered inv h
  obtain ⟨free, rfl⟩ := start_some h
  refine ⟨fun o child recorded => ?_, inv.handles, numbered, distinct, fun entry member => ?_,
    inv.once, inv.signals, fun child p o found by_ => ?_⟩
  · obtain ⟨p, found, by_⟩ := inv.recorded o child recorded
    have different : child ≠ pid := by
      rintro rfl
      exact nomatch free.symm.trans found
    exact ⟨p, (AList.lookup_insert_ne different).trans found, by_⟩
  · exact ⟨Nat.lt_succ_of_lt (inv.reaped entry member).1, (inv.reaped entry member).2⟩
  · rcases lookup_insert_cases found with ⟨-, rfl⟩ | ⟨-, before⟩
    · exact absurd by_ (other o)
    · exact inv.kept child p o before by_

theorem spawn_owned {t t' : ProcessTable} (inv : t.Owned) {object pid : Nat}
    (h : t.spawn object pid = some t') : t'.Owned := by
  obtain ⟨next, started, rfl⟩ := Option.map_eq_some_iff.mp h
  obtain ⟨numbered, distinct⟩ := start_numbered inv started
  obtain ⟨free, rfl⟩ := start_some started
  let connected : ChildHandle := ⟨true, some pid, .idle⟩
  have sound : connected.Sound := ⟨fun _ => nofun, fun _ => rfl, nofun⟩
  have cases_of (o : Nat) := handle_cases t.handles object o connected
  refine ⟨fun o child recorded => ?_, handles_sound inv sound, numbered, distinct,
    fun entry member => ?_, inv.once, inv.signals, fun child p o found by_ => ?_⟩
  · change (update t.handles object connected o).childPid = some child at recorded
    rcases cases_of o with ⟨rfl, now⟩ | ⟨-, now⟩
    · rw [now] at recorded
      obtain rfl : pid = child := Option.some.inj recorded
      exact ⟨_, AList.lookup_insert _, rfl⟩
    · rw [now] at recorded
      obtain ⟨p, found, by_⟩ := inv.recorded o child recorded
      have different : child ≠ pid := by
        rintro rfl
        exact nomatch free.symm.trans found
      exact ⟨p, (AList.lookup_insert_ne different).trans found, by_⟩
  · exact ⟨Nat.lt_succ_of_lt (inv.reaped entry member).1, (inv.reaped entry member).2⟩
  · show (update t.handles object connected o).childPid = some child ∨ _
    rcases lookup_insert_cases found with ⟨rfl, rfl⟩ | ⟨-, before⟩
    · obtain rfl : object = o := Starter.transport.inj by_
      rw [update_self]
      exact .inl rfl
    · rcases inv.kept child p o before by_ with own | lost
      · rcases cases_of o with ⟨rfl, -⟩ | ⟨-, now⟩
        · refine .inr (List.mem_append_right _ ?_)
          rw [own, Option.bind_some, before]
          exact List.mem_singleton_self _
        · rw [now]
          exact .inl own
      · exact .inr (List.mem_append_left _ lost)

/-- A process that ends is still there, under its pid. -/
theorem ends_owned {t : ProcessTable} (inv : t.Owned) {pid : Nat} {p : OsProcess}
    (found : t.processes.lookup pid = some p) :
    Owned { t with processes := t.processes.insert pid { p with ended := true } } := by
  have before {child : Nat} {q : OsProcess}
      (there : (t.processes.insert pid { p with ended := true }).lookup child = some q) :
      ∃ q', t.processes.lookup child = some q' ∧ q'.serial = q.serial ∧ q'.starter = q.starter := by
    rcases lookup_insert_cases there with ⟨rfl, rfl⟩ | ⟨-, before⟩
    · exact ⟨p, found, rfl, rfl⟩
    · exact ⟨q, before, rfl, rfl⟩
  refine ⟨fun o child recorded => ?_, inv.handles, fun child q there => ?_,
    fun child child' q q' there there' same => ?_, inv.reaped, inv.once, inv.signals,
    fun child q o there by_ => ?_⟩
  · obtain ⟨q, present, by_⟩ := inv.recorded o child recorded
    by_cases same : child = pid
    · subst same
      obtain rfl : p = q := Option.some.inj (found.symm.trans present)
      exact ⟨_, AList.lookup_insert _, by_⟩
    · exact ⟨q, (AList.lookup_insert_ne same).trans present, by_⟩
  · obtain ⟨q', present, serial, -⟩ := before there
    exact serial ▸ inv.numbered child q' present
  · obtain ⟨r, present, serial, -⟩ := before there
    obtain ⟨r', present', serial', -⟩ := before there'
    exact inv.distinct child child' r r' present present' (serial.trans (same.trans serial'.symm))
  · obtain ⟨q', present, serial, starter⟩ := before there
    exact serial ▸ inv.kept child q' o present (starter.trans by_)

/-- Others wait for their own children only. -/
theorem collects_owned {t : ProcessTable} (inv : t.Owned) {pid : Nat} {p : OsProcess}
    (found : t.processes.lookup pid = some p) (other : ∀ o, p.starter ≠ .transport o) :
    Owned { t with processes := t.processes.erase pid } := by
  refine ⟨fun o child recorded => ?_, inv.handles,
    fun child q there => inv.numbered child q (lookup_erase there).2,
    fun child child' q q' there there' =>
      inv.distinct child child' q q' (lookup_erase there).2 (lookup_erase there').2,
    inv.reaped, inv.once, inv.signals,
    fun child q o there => inv.kept child q o (lookup_erase there).2⟩
  obtain ⟨q, present, by_⟩ := inv.recorded o child recorded
  have different : child ≠ pid := by
    rintro rfl
    obtain rfl : p = q := Option.some.inj (found.symm.trans present)
    exact other o by_
  exact ⟨q, (AList.lookup_erase_ne different).trans present, by_⟩

theorem step_owned {t t' : ProcessTable} {event : ProcessEvent} (inv : t.Owned)
    (h : t.step event = some t') : t'.Owned := by
  cases event with
  | starts pid starter =>
    simp only [step] at h
    split at h
    · cases h
    · rename_i other
      exact starts_owned inv other h
  | ends pid =>
    obtain ⟨p, found, rfl⟩ := Option.map_eq_some_iff.mp h
    exact ends_owned inv found
  | collects pid =>
    simp only [step] at h
    split at h
    · rename_i found
      cases h
      exact collects_owned inv found nofun
    · rename_i found
      cases h
      exact collects_owned inv found nofun
    · cases h
  | connects object pid =>
    simp only [step] at h
    repeat' split at h
    · cases h
      exact inv
    · cases h
      exact inv
    · exact spawn_owned inv h
    · cases h
  | readFails object =>
    cases h
    obtain ⟨held, -, gone⟩ := inv.handles object
    refine setHandle_owned inv rfl ⟨fun either => ?_, nofun, gone⟩
    exact held (either.imp_left nofun)
  | disconnects object destroys =>
    simp only [step] at h
    split at h
    · split at h
      · rename_i connected
        cases h
        have held := (inv.handles object).held (.inl connected)
        exact setHandle_owned inv rfl ⟨fun _ => held, nofun, nofun⟩
      · rename_i apart
        split at h
        · cases h
          exact terminate_owned inv (Bool.eq_false_iff.mpr apart)
        · cases h
          exact inv
    · cases h
  | polls object choice => exact poll_owned inv h
  | timesOut object =>
    simp only [step] at h
    split at h
    · rename_i destroys at_phase
      cases h
      refine terminate_owned inv (Bool.eq_false_iff.mpr fun connected => ?_)
      exact nomatch at_phase.symm.trans ((inv.handles object).idle connected)
    · cases h

theorem initial_owned : Owned {} := by
  refine ⟨nofun, fun o => ⟨fun either => either.elim nofun nofun, nofun, nofun⟩, fun _ _ found => ?_,
    fun _ _ _ _ found => ?_, nofun, List.nodup_nil, nofun, fun _ _ _ found => ?_⟩
  all_goals simp at found

/-- Whatever the transports of a program do, and whoever else starts processes and is given their
    old pids: a signal only ever hits a child of the object that sends it, a child is waited for
    once and by its own object, no object waits without a child, and a child that nobody waited
    for is recorded by its object or was forgotten by a later `connect`. A destroyed object leaves
    only forgotten ones. -/
theorem children_stay_own {events : List ProcessEvent} {t : ProcessTable}
    (ran : run step {} events = some t) :
    (∀ object hit, (object, hit) ∈ t.signals →
      ∃ p, hit = some p ∧ p.starter = .transport object) ∧
    (∀ object p, (object, p) ∈ t.reaped → p.starter = .transport object) ∧
    (t.reaped.map fun entry => entry.2.serial).Nodup ∧
    (∀ object choice t', t.step (.polls object choice) = some t' →
      ∃ pid, (t.handles object).childPid = some pid) ∧
    ∀ pid p object, t.processes.lookup pid = some p → p.starter = .transport object →
      ((t.handles object).childPid = some pid ∧ (t.handles object).phase ≠ .destroyed) ∨
        p.serial ∈ t.forgotten := by
  have inv : t.Owned := run_keeps (fun _ _ _ inv h => step_owned inv h) initial_owned ran
  refine ⟨fun object hit => inv.signals (object, hit),
    fun object p member => (inv.reaped _ member).2, inv.once, fun object choice t' polled => ?_,
    fun pid p object found by_ => ?_⟩
  · have busy : (t.handles object).phase.busy = true := by
      simp only [step, poll] at polled
      split at polled
      all_goals first
        | (rename_i at_phase _; rw [at_phase]; rfl)
        | cases polled
    exact Option.ne_none_iff_exists'.mp ((inv.handles object).held (.inr busy))
  · refine (inv.kept pid p object found by_).imp_left fun own => ⟨own, fun gone => ?_⟩
    exact nomatch own.symm.trans ((inv.handles object).gone gone)

/-- The first object's child ends in its time, and its pid is given to another program's process.
    The second one loses its first child at a read error, and has to kill the next one. -/
def reusedPid : List ProcessEvent :=
  [.connects 0 (some 5), .disconnects 0 false, .ends 5, .polls 0 0, .starts 5 .elsewhere,
    .connects 1 (some 6), .readFails 1, .connects 1 (some 7), .disconnects 1 true, .timesOut 1,
    .ends 7, .polls 1 0]

theorem children_stay_own_reused : ∃ t, run step {} reusedPid = some t ∧
    t.signals = [(1, some ⟨3, .transport 1, false⟩)] ∧ t.forgotten = [2] ∧
    (∀ object p, (object, p) ∈ t.reaped → p.starter = .transport object) ∧
    t.reaped.map (fun entry => entry.2.serial) = [0, 3] := by
  have outcome : (run step {} reusedPid).map (fun t =>
      (t.signals, t.forgotten, t.reaped.map fun entry => entry.2.serial)) =
      some ([(1, some ⟨3, .transport 1, false⟩)], [2], [0, 3]) := by decide +kernel
  obtain ⟨t, ran, state⟩ := Option.map_eq_some_iff.mp outcome
  simp only [Prod.mk.injEq] at state
  exact ⟨t, ran, state.1, state.2.1, (children_stay_own ran).2.1, state.2.2⟩

end ProcessTable

end CppMcp
