import CppMcp.Client.Untouched
import CppMcp.Client.Works

namespace CppMcp

open Lib

/-- A call that is not finished on the strand: `fail_all_pending`, whose iterator stands at the
    entry of a key or before the first, or the `on_error` it runs for a request. -/
inductive DrainFrame where
  | traversal (reason : String) (here : Option RequestId) (stops : Bool)
  | callback (pr : Nat)
deriving DecidableEq

def DrainFrame.isTraversal : DrainFrame → Bool
  | .traversal .. => true
  | .callback _ => false

/-- A client in the middle of a drain, with the calls under way, innermost first. -/
structure Draining where
  client : Client
  stack : List DrainFrame

/-- `advances` is a turn of the loop of `fail_all_pending`. The callback on top calls `disconnect`
    or `stop`, or returns; a `cancel` or a `send` of it posts, as a step of another thread does. -/
inductive DrainEvent where
  | advances
  | disconnects
  | stops
  | returns
  | elsewhere (event : ClientEvent)
deriving DecidableEq

/-- Another thread may take the step while the strand is busy, or a callback may on the strand. -/
def ClientEvent.offStrand : ClientEvent → Bool
  | .runTask | .disconnectInline | .stopDrainsInline => false
  | _ => true

/-- What `++it` and what follows it iterate over; nothing when the entry it stands at was
    erased, which is undefined. -/
def Client.entriesAfter (c : Client) : Option RequestId → Option (List ((_ : RequestId) × Nat))
  | none => some c.pendingMap.entries
  | some key =>
    if key ∈ c.pendingMap then
      some ((c.pendingMap.entries.dropWhile fun entry => entry.1 ≠ key).drop 1)
    else none

/-- Failing the request runs its `on_error` inline. -/
def Client.failsAloud (env : ClientEnv) (c : Client) (pr : Nat) : Bool :=
  match c.requests[pr]? with
  | some r => r.state == .waiting && r.onError && !env.callbackExecutor
  | none => false

/-- `fail_all_pending` returns. What `stop` does after its drain is done here. -/
def Client.cleared (c : Client) (stops : Bool) : Client :=
  let c := { c with pendingMap := ∅ }
  if stops then { c with stopDrained := true, transport := false, running := false } else c

def Draining.step (env : ClientEnv) (s : Draining) : DrainEvent → Option Draining
  | .advances =>
    match s.stack with
    | .traversal reason here stops :: rest =>
      match s.client.entriesAfter here with
      | none => none
      | some [] => some ⟨s.client.cleared stops, rest⟩
      | some (⟨key, pr⟩ :: _) =>
        let stack := .traversal reason (some key) stops :: rest
        some ⟨s.client.failPending env reason pr,
          if s.client.failsAloud env pr then .callback pr :: stack else stack⟩
    | _ => none
  | .disconnects =>
    match s.stack with
    | .callback _ :: _ =>
      some ⟨{ s.client with connected := false, ended := true },
        .traversal "client disconnected" none false :: s.stack⟩
    | _ => none
  | .stops =>
    match s.stack with
    | .callback _ :: _ =>
      if s.client.stopping then some s
      else some ⟨{ s.client with stopping := true, connected := false, ended := true },
        .traversal "client shutting down" none true :: s.stack⟩
    | _ => none
  | .returns =>
    match s.stack with
    | .callback _ :: rest => some { s with stack := rest }
    | _ => none
  | .elsewhere event =>
    if event.offStrand then (s.client.step env event).map fun c => { s with client := c } else none

/-- A drain begins. -/
def Draining.begin (c : Client) (reason : String) : Draining :=
  ⟨{ c with connected := false }, [.traversal reason none false]⟩

/-- The callback does not call `disconnect`, nor `stop` on a client that is not stopping yet. -/
def DrainEvent.mild (s : Draining) : DrainEvent → Bool
  | .disconnects => false
  | .stops => s.client.stopping
  | _ => true

/-- While the drain is under way the map is as it was and no iterator stands at an erased entry;
    afterwards the map is empty and every request that was in it is over. -/
structure Draining.Safe (c : Client) (s : Draining) : Prop where
  during : s.stack ≠ [] → s.client.pendingMap = c.pendingMap ∧
    ∀ reason key stops, .traversal reason (some key) stops ∈ s.stack → key ∈ s.client.pendingMap
  after : s.stack = [] → s.client.pendingMap = ∅ ∧
    ∀ key pr, c.pendingMap.lookup key = some pr → s.client.Over pr

/-- The outermost traversal and at most the callback it runs: the entries of the map fall into
    those it has visited, whose requests are over, and those ahead. -/
structure Draining.Steady (c : Client) (s : Draining) : Prop where
  placed : ∀ entry ∈ c.pendingMap.entries, entry.2 < s.client.requests.length
  shape : (s.stack = [] ∧ s.client.pendingMap = ∅ ∧
      ∀ entry ∈ c.pendingMap.entries, s.client.Over entry.2) ∨
    ∃ reason here stops visited ahead, s.client.pendingMap = c.pendingMap ∧
      c.pendingMap.entries = visited ++ ahead ∧ here = visited.getLast?.map (·.1) ∧
      (∀ entry ∈ visited, s.client.Over entry.2) ∧
      (s.stack = [.traversal reason here stops] ∨
        visited ≠ [] ∧ ∃ pr, s.stack = [.callback pr, .traversal reason here stops])

/-- A nested traversal is under way, or has erased the entry the outermost one stands at. -/
def Draining.Doomed (s : Draining) : Prop :=
  ∃ upper reason key stops, s.stack = upper ++ [.traversal reason (some key) stops] ∧
    (key ∉ s.client.pendingMap ∨ ∃ frame ∈ upper, frame.isTraversal = true)

variable (env : ClientEnv)

theorem Client.Settles.isOver {c c' : Client} (settles : c.Settles c') {pr : Nat}
    (isOver : c.Over pr) : c'.Over pr := by
  obtain ⟨r, found, ended⟩ := isOver
  obtain ⟨r', found', settled⟩ := settles.requests pr r found
  exact ⟨r', found', fun waits => ended (settled.waiting waits)⟩

theorem failPending_pendingMap (reason : String) (c : Client) (pr : Nat) :
    (c.failPending env reason pr).pendingMap = c.pendingMap := by
  unfold Client.failPending
  split
  · rfl
  · split
    · exact finish_pendingMap env c pr _
    · rfl

theorem failPending_over (reason : String) {c : Client} {pr : Nat}
    (bound : pr < c.requests.length) : (c.failPending env reason pr).Over pr := by
  obtain ⟨r', found, -⟩ :=
    (failPending_settles env reason c pr).requests pr _ (List.getElem?_eq_getElem bound)
  exact ⟨r', found, failPending_same env reason c pr found⟩

/-- A step that is not taken on the strand leaves the map alone, and what is over stays over. -/
theorem offStrand_step {c c' : Client} {event : ClientEvent} (off : event.offStrand = true)
    (h : c.step env event = some c') : c'.pendingMap = c.pendingMap ∧
      c.requests.length ≤ c'.requests.length ∧ ∀ pr, c.Over pr → c'.Over pr := by
  refine ⟨?_, ?_, fun pr isOver => ?_⟩
  · cases step_cases h with
    | tests thread args =>
      unfold Client.submitTest
      split <;> rfl
    | builds thread args =>
      unfold Client.submitBuild
      split <;> rfl
    | runCallback job rest => exact (fire_aside env _ job).pendingMap
    | runTask | disconnectInline | stopDrainsInline => cases off
    | _ => rfl
  · rcases step_kinds env h with ⟨thread, args, params, -, rfl⟩ | ⟨rfl, -⟩ |
      ⟨before, requests, -, settles⟩
    · simp [Client.submitted]
    · cases off
    · rw [settles.length, requests]
  · rcases step_kinds env h with ⟨thread, args, params, -, rfl⟩ | ⟨rfl, -⟩ |
      ⟨before, requests, -, settles⟩
    · obtain ⟨r, found, ended⟩ := isOver
      have bound := (List.getElem?_eq_some_iff.mp found).1
      exact ⟨r, by simp only [Client.submitted, List.getElem?_append_left bound, found], ended⟩
    · cases off
    · exact settles.isOver (isOver.congr requests)

/-- The iterator stands behind the entries it has visited. -/
theorem entriesAfter_split {c : Client} {visited ahead : List ((_ : RequestId) × Nat)}
    (split : c.pendingMap.entries = visited ++ ahead) :
    c.entriesAfter (visited.getLast?.map (·.1)) = some ahead := by
  rcases List.eq_nil_or_concat visited with rfl | ⟨front, entry, rfl⟩
  · simpa [Client.entriesAfter] using split
  · rw [List.concat_eq_append] at split ⊢
    have member : entry.1 ∈ c.pendingMap := by
      rw [AList.mem_keys, AList.keys, split]
      simp [List.keys]
    have before (other : (_ : RequestId) × Nat) (seen : other ∈ front) : other.1 ≠ entry.1 := by
      have unique := c.pendingMap.nodupKeys
      rw [split, List.append_assoc, List.nodupKeys_iff_pairwise, List.pairwise_append] at unique
      exact unique.2.2 other seen entry (by simp)
    simp only [Client.entriesAfter, List.getLast?_concat, Option.map_some, member, if_true, split,
      List.append_assoc, List.singleton_append]
    rw [List.dropWhile_append_of_pos fun other seen => by simpa using before other seen]
    simp

theorem cleared_pendingMap (c : Client) (stops : Bool) : (c.cleared stops).pendingMap = ∅ := by
  cases stops <;> rfl

theorem cleared_requests (c : Client) (stops : Bool) : (c.cleared stops).requests = c.requests := by
  cases stops <;> rfl

theorem begin_steady {c : Client} (placed : Placed c) (reason : String) :
    (Draining.begin c reason).Steady c where
  placed entry member := placed.keyed entry.1 entry.2 (AList.mem_lookup_iff.mpr member)
  shape := .inr ⟨reason, none, false, [], c.pendingMap.entries, rfl, rfl, rfl, by simp, .inl rfl⟩

/-- A turn of the outermost traversal: it visits the next entry, or clears the map. -/
theorem advances_steady {c : Client} {s s' : Draining} (inv : s.Steady c)
    (h : s.step env .advances = some s') : s'.Steady c := by
  obtain ⟨placed, ⟨stack, -⟩ | ⟨reason, here, stops, visited, ahead, pending, split, rfl, isOver,
    stack | ⟨-, pr, stack⟩⟩⟩ := inv
  · simp [Draining.step, stack] at h
  · have entries : s.client.entriesAfter (visited.getLast?.map (·.1)) = some ahead :=
      entriesAfter_split (by rw [pending, split])
    simp only [Draining.step, stack, entries] at h
    cases ahead with
    | nil =>
      cases h
      rw [List.append_nil] at split
      refine ⟨fun entry member => ?_, .inl ⟨rfl, cleared_pendingMap _ _, fun entry member => ?_⟩⟩
      · rw [cleared_requests]
        exact placed entry member
      · unfold Client.Over
        rw [cleared_requests]
        exact isOver entry (split ▸ member)
    | cons entry ahead =>
      cases h
      have bound : entry.2 < s.client.requests.length := placed entry (by simp [split])
      have settles := failPending_settles env reason s.client entry.2
      refine ⟨fun entry member => ?_, .inr ⟨reason, some entry.1, stops, visited ++ [entry], ahead,
        ?_, ?_, ?_, ?_, ?_⟩⟩
      · rw [settles.length]
        exact placed entry member
      · rw [failPending_pendingMap, pending]
      · rw [split, List.append_assoc, List.singleton_append]
      · simp
      · intro other member
        rcases List.mem_append.mp member with seen | new
        · exact settles.isOver (isOver other seen)
        · rw [List.mem_singleton.mp new]
          exact failPending_over env reason bound
      · dsimp only
        split
        · exact .inr ⟨by simp, _, rfl⟩
        · exact .inl rfl
  · simp [Draining.step, stack] at h

theorem step_steady {c : Client} {s s' : Draining} {event : DrainEvent} (inv : s.Steady c)
    (mild : event.mild s = true) (h : s.step env event = some s') : s'.Steady c := by
  cases event with
  | advances => exact advances_steady env inv h
  | disconnects => cases mild
  | stops =>
    have stopping : s.client.stopping = true := mild
    simp only [Draining.step, stopping, if_true] at h
    split at h
    · cases h
      exact inv
    · cases h
  | returns =>
    obtain ⟨placed, ⟨stack, -⟩ | ⟨reason, here, stops, visited, ahead, pending, split, stands,
      isOver, stack | ⟨-, pr, stack⟩⟩⟩ := inv
    · simp [Draining.step, stack] at h
    · simp [Draining.step, stack] at h
    · simp only [Draining.step, stack, Option.some.injEq] at h
      subst h
      exact ⟨placed, .inr ⟨reason, here, stops, visited, ahead, pending, split, stands, isOver,
        .inl rfl⟩⟩
  | elsewhere event =>
    simp only [Draining.step, Option.ite_none_right_eq_some, Option.map_eq_some_iff] at h
    obtain ⟨off, next, stepped, rfl⟩ := h
    obtain ⟨map, longer, keeps⟩ := offStrand_step env off stepped
    refine ⟨fun entry member => Nat.lt_of_lt_of_le (inv.placed entry member) longer, ?_⟩
    rcases inv.shape with ⟨stack, empty, isOver⟩ | ⟨reason, here, stops, visited, ahead, pending,
      split, stands, isOver, stack⟩
    · exact .inl ⟨stack, map.trans empty, fun entry member => keeps _ (isOver entry member)⟩
    · exact .inr ⟨reason, here, stops, visited, ahead, map.trans pending, split, stands,
        fun entry member => keeps _ (isOver entry member), stack⟩

theorem Draining.Steady.safe {c : Client} {s : Draining} (inv : s.Steady c) : s.Safe c := by
  obtain ⟨-, ⟨stack, empty, isOver⟩ | ⟨reason, here, stops, visited, ahead, pending, split, rfl,
    isOver, shape⟩⟩ := inv
  · refine ⟨fun busy => absurd stack busy, fun _ => ⟨empty, fun key pr found => ?_⟩⟩
    exact isOver ⟨key, pr⟩ (AList.mem_lookup_iff.mp found)
  · have busy : s.stack ≠ [] := by
      rcases shape with stack | ⟨-, pr, stack⟩ <;> simp [stack]
    refine ⟨fun _ => ⟨pending, fun reason' key stops' member => ?_⟩, fun empty => absurd empty busy⟩
    have stands : visited.getLast?.map (·.1) = some key := by
      rcases shape with stack | ⟨-, pr, stack⟩
      · rw [stack] at member
        simp only [List.mem_singleton, DrainFrame.traversal.injEq] at member
        exact member.2.1.symm
      · rw [stack] at member
        simp only [List.mem_cons, reduceCtorEq, false_or, List.not_mem_nil, or_false,
          DrainFrame.traversal.injEq] at member
        exact member.2.1.symm
    obtain ⟨entry, last, rfl⟩ := Option.map_eq_some_iff.mp stands
    rw [pending, AList.mem_keys, AList.keys, split]
    exact List.mem_map_of_mem (List.mem_append_left _ (List.mem_of_getLast? last))

/-- A callback that drains the client again does so under the traversal that runs it. -/
theorem step_dooms {c : Client} {s s' : Draining} {event : DrainEvent} (inv : s.Steady c)
    (wild : ¬ event.mild s = true) (h : s.step env event = some s') : s'.Doomed := by
  obtain ⟨-, shape⟩ := inv
  have nested (reason : String) (stops : Bool) {callback : Nat} {rest : List DrainFrame}
      (top : s.stack = .callback callback :: rest)
      (pushed : s'.stack = .traversal reason none stops :: s.stack) : s'.Doomed := by
    rcases shape with ⟨stack, -⟩ | ⟨reason', here, stops', visited, ahead, -, -, rfl, -,
      stack | ⟨some, pr, stack⟩⟩
    · rw [stack] at top
      cases top
    · rw [stack] at top
      cases top
    · obtain ⟨entry, last⟩ := Option.ne_none_iff_exists'.mp (mt List.getLast?_eq_none_iff.mp some)
      refine ⟨[.traversal reason none stops, .callback pr], reason', entry.1, stops', ?_,
        .inr ⟨_, List.mem_cons_self, rfl⟩⟩
      rw [pushed, stack, last]
      rfl
  cases event with
  | disconnects =>
    simp only [Draining.step] at h
    split at h
    · rename_i top
      cases h
      exact nested _ _ top rfl
    · cases h
  | stops =>
    have working : s.client.stopping = false := by simpa [DrainEvent.mild] using wild
    simp only [Draining.step, working, Bool.false_eq_true, if_false] at h
    split at h
    · rename_i top
      cases h
      exact nested _ _ top rfl
    · cases h
  | _ => exact absurd rfl wild

/-- From then on the outermost traversal never comes to its end. -/
theorem step_doomed {s s' : Draining} {event : DrainEvent} (doomed : s.Doomed)
    (h : s.step env event = some s') : s'.Doomed := by
  obtain ⟨upper, reason, key, stops, stack, why⟩ := doomed
  cases event with
  | advances =>
    cases upper with
    | nil =>
      have gone : key ∉ s.client.pendingMap := by
        rcases why with gone | ⟨frame, none, -⟩
        · exact gone
        · cases none
      simp [Draining.step, stack, Client.entriesAfter, gone] at h
    | cons frame upper =>
      cases frame with
      | callback pr => simp [Draining.step, stack] at h
      | traversal reason' here stops' =>
        simp only [Draining.step, stack, List.cons_append] at h
        split at h
        · cases h
        · cases h
          refine ⟨upper, reason, key, stops, rfl, .inl ?_⟩
          rw [cleared_pendingMap]
          exact AList.notMem_empty key
        · rename_i next pr _ _
          cases h
          split
          · exact ⟨.callback pr :: .traversal reason' (some next) stops' :: upper, reason, key,
              stops, rfl, .inr ⟨_, List.mem_cons_of_mem _ List.mem_cons_self, rfl⟩⟩
          · exact ⟨.traversal reason' (some next) stops' :: upper, reason, key, stops, rfl,
              .inr ⟨_, List.mem_cons_self, rfl⟩⟩
  | disconnects =>
    simp only [Draining.step] at h
    split at h
    · cases h
      exact ⟨.traversal "client disconnected" none false :: upper, reason, key, stops,
        congrArg _ stack, .inr ⟨_, List.mem_cons_self, rfl⟩⟩
    · cases h
  | stops =>
    simp only [Draining.step] at h
    split at h
    · split at h
      · cases h
        exact ⟨upper, reason, key, stops, stack, why⟩
      · cases h
        exact ⟨.traversal "client shutting down" none true :: upper, reason, key, stops,
          congrArg _ stack, .inr ⟨_, List.mem_cons_self, rfl⟩⟩
    · cases h
  | returns =>
    cases upper with
    | nil => simp [Draining.step, stack] at h
    | cons frame upper =>
      cases frame with
      | traversal reason' here stops' => simp [Draining.step, stack] at h
      | callback pr =>
        simp only [Draining.step, stack, List.cons_append, Option.some.injEq] at h
        subst h
        refine ⟨upper, reason, key, stops, rfl, why.imp_right fun ⟨frame, member, nested⟩ => ?_⟩
        rcases List.mem_cons.mp member with rfl | member
        · cases nested
        · exact ⟨frame, member, nested⟩
  | elsewhere event =>
    simp only [Draining.step, Option.ite_none_right_eq_some, Option.map_eq_some_iff] at h
    obtain ⟨off, next, stepped, rfl⟩ := h
    refine ⟨upper, reason, key, stops, stack, why.imp_left fun gone => ?_⟩
    rw [(offStrand_step env off stepped).1]
    exact gone

/-- A run of a drain keeps steady as long as its callbacks are mild, and is doomed otherwise. -/
theorem run_steady {c : Client} {s s' : Draining} {events : List DrainEvent} (start : s.Steady c)
    (h : run (Draining.step env) s events = some s') :
    (Meets (Draining.step env) (fun s e => e.mild s = true) s events ∧ s'.Steady c) ∨
      s'.Doomed := by
  induction events generalizing s with
  | nil =>
    cases h
    exact .inl ⟨True.intro, start⟩
  | cons event rest ih =>
    obtain ⟨next, stepped, h⟩ := run_cons_eq h
    by_cases mild : event.mild s = true
    · refine (ih (step_steady env start mild stepped) h).imp_left fun ⟨meets, steady⟩ => ⟨⟨mild, ?_⟩,
        steady⟩
      intro next' stepped'
      obtain rfl : next = next' := by simpa [stepped] using stepped'
      exact meets
    · exact .inr (run_keeps (fun _ _ _ doomed h => step_doomed env doomed h)
        (step_dooms env start mild stepped) h)

/-- The loop over what is ahead, when every callback just returns. -/
theorem loop_runs (reason : String) {ahead visited : List ((_ : RequestId) × Nat)} {c : Client}
    (split : c.pendingMap.entries = visited ++ ahead) :
    ∃ events, (∀ e ∈ events, e = .advances ∨ e = .returns) ∧
      run (Draining.step env) ⟨c, [.traversal reason (visited.getLast?.map (·.1)) false]⟩ events =
        some ⟨{ (ahead.map (·.2)).foldl (Client.failPending env reason) c with pendingMap := ∅ },
          []⟩ := by
  induction ahead generalizing c visited with
  | nil =>
    refine ⟨[.advances], by simp, ?_⟩
    simp [run, Draining.step, entriesAfter_split split, Client.cleared]
  | cons entry ahead ih =>
    have after : (c.failPending env reason entry.2).pendingMap.entries =
        (visited ++ [entry]) ++ ahead := by
      rw [failPending_pendingMap, split, List.append_assoc, List.singleton_append]
    obtain ⟨events, plain, runs⟩ := ih after
    rw [List.getLast?_concat, Option.map_some] at runs
    by_cases aloud : c.failsAloud env entry.2 = true
    · refine ⟨.advances :: .returns :: events, by simpa using plain, ?_⟩
      simpa [run, Draining.step, entriesAfter_split split, aloud] using runs
    · refine ⟨.advances :: events, by simpa using plain, ?_⟩
      simpa [run, Draining.step, entriesAfter_split split, aloud] using runs

/-- The drain of the client's machine is the run in which every callback just returns. -/
theorem drain_runs (c : Client) (reason : String) :
    ∃ events, (∀ e ∈ events, e = .advances ∨ e = .returns) ∧
      run (Draining.step env) (Draining.begin c reason) events =
        some ⟨c.drain env reason, []⟩ :=
  have whole : ({ c with connected := false } : Client).pendingMap.entries =
      [] ++ c.pendingMap.entries := rfl
  loop_runs env reason whole

/-- A drain is safe under callbacks that do not drain the client again, in every state its run
    reaches; and when a callback does, the drain never comes to its end. -/
theorem drain_safe_when_mild (transport : Bool) (before : List ClientEvent) (c : Client)
    (reached : run (Client.step env) (Client.initial transport) before = some c)
    (reason : String) (events : List DrainEvent) (s : Draining)
    (h : run (Draining.step env) (Draining.begin c reason) events = some s) :
    (Meets (Draining.step env) (fun s e => e.mild s = true) (Draining.begin c reason) events →
      s.Safe c) ∧
    (s.stack = [] →
      Meets (Draining.step env) (fun s e => e.mild s = true) (Draining.begin c reason) events) := by
  have placed : Placed c :=
    run_keeps (fun _ _ _ inv h => step_placed env inv h) (initial_placed transport) reached
  have start := begin_steady placed reason
  refine ⟨fun mild => ?_, fun returned => ?_⟩
  · exact (run_invariant (fun _ _ _ inv mild h => step_steady env inv mild h) start mild h).safe
  · rcases run_steady env start h with ⟨meets, -⟩ | ⟨upper, reason, key, stops, stack, -⟩
    · exact meets
    · rw [returned] at stack
      simp at stack

/-- A connected client with one ping that waits and has `on_error`. -/
def fallibleCall : List ClientEvent := handshake ++ submission { method := "ping", onError := true }

/-- The callback posts a cancel of its request, calls `stop` no sooner than another thread, and
    returns. -/
def mildDrain : List DrainEvent :=
  [.advances, .elsewhere (.cancel 1 "late"), .elsewhere .stopBegins, .stops, .returns, .advances]

theorem mild_drain_safe : ∃ c s, run (Client.step {}) (Client.initial true) fallibleCall = some c ∧
    run (Draining.step {}) (Draining.begin c "bye") mildDrain = some s ∧ s.stack = [] ∧
    s.client.pendingMap = ∅ ∧ s.client.Over 1 := by
  have shape : ((run (Client.step {}) (Client.initial true) fallibleCall).bind fun c =>
      (run (Draining.step {}) (Draining.begin c "bye") mildDrain).map fun s =>
        (s.stack, c.pendingMap.lookup (.int 2))) = some ([], some 1) := by decide +kernel
  obtain ⟨c, reached, rest⟩ := Option.bind_eq_some_iff.mp shape
  obtain ⟨s, h, seen⟩ := Option.map_eq_some_iff.mp rest
  simp only [Prod.mk.injEq] at seen
  have holds := drain_safe_when_mild {} true fallibleCall c reached "bye" mildDrain s h
  obtain ⟨empty, isOver⟩ := (holds.1 (holds.2 seen.1)).after seen.1
  exact ⟨c, s, reached, h, seen.1, empty, isOver (.int 2) 1 seen.2⟩

/-- The callback calls `disconnect`, whose own drain visits the ping and clears the map. -/
def nestedDrain : List DrainEvent := [.advances, .disconnects, .advances, .advances]

/-- The map is empty while the outer traversal stands at the ping, and advancing is undefined. -/
theorem nested_drain_erases : ∃ c s,
    run (Client.step {}) (Client.initial true) fallibleCall = some c ∧
    run (Draining.step {}) (Draining.begin c "bye") nestedDrain = some s ∧ ¬ s.Safe c ∧
    run (Draining.step {}) s [.returns, .advances] = none := by
  have shape : ((run (Client.step {}) (Client.initial true) fallibleCall).bind fun c =>
      (run (Draining.step {}) (Draining.begin c "bye") nestedDrain).map fun s =>
        (s.stack, s.client.pendingMap.lookup (.int 2),
          (run (Draining.step {}) s [.returns, .advances]).isNone)) =
      some ([.callback 1, .traversal "bye" (some (.int 2)) false], none, true) := by decide +kernel
  obtain ⟨c, reached, rest⟩ := Option.bind_eq_some_iff.mp shape
  obtain ⟨s, h, seen⟩ := Option.map_eq_some_iff.mp rest
  simp only [Prod.mk.injEq, Option.isNone_iff_eq_none] at seen
  obtain ⟨stack, gone, stuck⟩ := seen
  refine ⟨c, s, reached, h, fun safe => ?_, stuck⟩
  have stands := (safe.during (by simp [stack])).2 "bye" (.int 2) false (by simp [stack])
  exact AList.lookup_eq_none.mp gone stands

end CppMcp
