import CppMcp.Lib.Run
import CppMcp.Server.Specificity

namespace CppMcp

open Lib

variable {υ : Type}

/-- A call of a `register_*` function. An empty `std::function` is `none`. -/
inductive Registration (υ : Type) where
  | tool (name : String) (toolDef : Tool)
      (handler : Json → RequestContext → Handler υ CallToolResult)
  | toolList (handler : Option (Handler υ (List Tool)))
  | resource (uri : String) (resourceDef : Resource)
      (handler : String → RequestContext → Handler υ ReadResourceResult)
  | resourceList (handler : Option (Handler υ (List Resource)))
  | resourceTemplateList (handler : Option (Handler υ (List ResourceTemplate)))
  | resourceTemplate (uriTemplate : String) (templateDef : ResourceTemplate)
      (handler : String → List (Bytes × Bytes) → RequestContext → Handler υ ReadResourceResult)
  | prompt (name : String) (promptDef : Prompt)
      (handler : String → Json → RequestContext → Handler υ GetPromptResult)
  | promptList (handler : Option (Handler υ (List Prompt)))
  | completion
      (handler : Option (CompletionReference → CompletionArgument → Handler υ CompleteResult))
  | initializeHandler (handler : Option (Json → Handler υ InitializeResult))
  | loggingLevelHandler (handler : Option (String → Handler υ Unit))

/-- What a `register_*` function does under `handlers_mutex_`. -/
def Registry.commit (registry : Registry υ) : Registration υ → Registry υ
  | .tool name toolDef handler =>
    { registry with tools := insertSorted name (toolDef, handler) registry.tools }
  | .toolList handler => { registry with toolList := handler }
  | .resource uri resourceDef handler =>
    { registry with resources := insertSorted uri (resourceDef, handler) registry.resources }
  | .resourceList handler => { registry with resourceList := handler }
  | .resourceTemplateList handler => { registry with resourceTemplateList := handler }
  | .resourceTemplate uriTemplate templateDef handler =>
    registry.registerResourceTemplate uriTemplate templateDef handler
  | .prompt name promptDef handler =>
    { registry with prompts := insertSorted name (promptDef, handler) registry.prompts }
  | .promptList handler => { registry with promptList := handler }
  | .completion handler => { registry with completion := handler }
  | .initializeHandler handler => { registry with initializeHandler := handler }
  | .loggingLevelHandler handler => { registry with loggingLevel := handler }

/-- The warning about an entry that is there already. A prompt is overwritten without one. -/
def Registry.overwriting (registry : Registry υ) : Registration υ → Option String
  | .tool name _ _ =>
    if (registry.tools.lookup name).isSome then
      some ("Tool '" ++ name ++ "' already registered, overwriting")
    else none
  | .resource uri _ _ =>
    if (registry.resources.lookup uri).isSome then
      some ("Resource '" ++ uri ++ "' already registered, overwriting")
    else none
  | .resourceTemplate uriTemplate _ _ =>
    if (registry.resourceTemplates.lookup uriTemplate).isSome then
      some ("Resource template '" ++ uriTemplate ++ "' already registered, overwriting")
    else none
  | _ => none

def Registry.commitAll (registry : Registry υ) (registrations : List (Registration υ)) :
    Registry υ :=
  registrations.foldl Registry.commit registry

/-- Where `run` is: not called or returned, before the copies, before the store of `frozen_`,
    before that of `running_`, in `transport_->start()`, before the unfreeze after a start that
    failed, or in the io loop. -/
inductive RunCall where
  | absent
  | copying
  | announcing
  | launching
  | starting
  | failed
  | looping
deriving DecidableEq

/-- The handlers of an `McpServer` with the threads that register them, run it and stop it.
    `registering` are the calls past `ensure_pre_run`, `committed` and `copied` record what was
    registered, and what was when `run` made its copies. -/
structure Lifecycle (υ : Type) where
  registry : Registry υ := {}
  frozen : Registry υ := {}
  isFrozen : Bool := false
  running : Bool := false
  stopping : Bool := false
  launch : RunCall := .absent
  halting : Bool := false
  registering : List (Option (Registration υ)) := []
  committed : List (Registration υ) := []
  copied : List (Registration υ) := []
  warnings : List String := []

/-- What the threads do, one critical section or one atomic access each. `starts` says whether
    `transport_->start()` returns. -/
inductive LifecycleEvent (υ : Type) where
  | registers (registration : Registration υ)
  | locks (place : Nat)
  | runs
  | runGoes (starts : Bool)
  | stops
  | halts

namespace Lifecycle

def warn (s : Lifecycle υ) (message : Option String) : Lifecycle υ :=
  { s with warnings := s.warnings ++ message.toList }

/-- `ensure_pre_run`, at the head of every `register_*` function. -/
def register (s : Lifecycle υ) (registration : Registration υ) : Lifecycle υ :=
  if s.running then s.warn (some "Cannot register handlers after server is running")
  else { s with registering := s.registering ++ [some registration] }

def lock (s : Lifecycle υ) (place : Nat) (registration : Registration υ) : Lifecycle υ :=
  { s.warn (s.registry.overwriting registration) with
    registry := s.registry.commit registration
    committed := s.committed ++ [registration]
    registering := s.registering.set place none }

/-- `run` goes on. -/
def runGoes (s : Lifecycle υ) (starts : Bool) : Option (Lifecycle υ) :=
  match s.launch with
  | .copying =>
    some { s with frozen := s.registry, copied := s.committed, launch := .announcing }
  | .announcing => some { s with isFrozen := true, launch := .launching }
  | .launching => some { s with running := true, launch := .starting }
  | .starting =>
    some (if starts then { s with launch := .looping }
      else { s with running := false, launch := .failed })
  | .failed => some { s with isFrozen := false, launch := .absent }
  -- the io loop ends, by `stop` or by an exception
  | .looping => some { s with launch := .absent }
  | .absent => none

def step (s : Lifecycle υ) : LifecycleEvent υ → Option (Lifecycle υ)
  | .registers registration => some (s.register registration)
  | .locks place => s.registering[place]?.join.map (s.lock place)
  | .runs => if s.launch = .absent then some { s with launch := .copying } else none
  | .runGoes starts => s.runGoes starts
  | .stops => some (if s.stopping then s else { s with stopping := true, halting := true })
  | .halts => if s.halting then some { s with running := false, halting := false } else none

/-- The server that requests are handled by. -/
def server (s : Lifecycle υ) (user : υ) : Server υ :=
  { user
    registry := s.registry
    frozen := if s.isFrozen then some s.frozen else none
    running := s.running
    stopping := s.stopping }

/-- The registrations that requests are handled with. -/
def inForce (s : Lifecycle υ) : List (Registration υ) :=
  if s.isFrozen then s.copied else s.committed

end Lifecycle

/-! What a registration leaves in the maps. -/

def Registration.toolEntry : Registration υ →
    Option (String × Tool × (Json → RequestContext → Handler υ CallToolResult))
  | tool name toolDef handler => some (name, toolDef, handler)
  | _ => none

def Registration.resourceEntry : Registration υ →
    Option (String × Resource × (String → RequestContext → Handler υ ReadResourceResult))
  | resource uri resourceDef handler => some (uri, resourceDef, handler)
  | _ => none

def Registration.promptEntry : Registration υ →
    Option (String × Prompt × (String → Json → RequestContext → Handler υ GetPromptResult))
  | prompt name promptDef handler => some (name, promptDef, handler)
  | _ => none

def Registration.templateEntry : Registration υ → Option (TemplateEntry υ)
  | resourceTemplate uriTemplate templateDef handler => some (uriTemplate, templateDef, handler)
  | _ => none

/-- A field that each registration writes by its entry, or leaves alone, holds all entries. -/
theorem commitAll_field {α ε : Type} (field : Registry υ → α) (entry : Registration υ → Option ε)
    (write : ε → α → α)
    (commits : ∀ (registry : Registry υ) (registration : Registration υ),
      field (registry.commit registration) =
        match entry registration with
        | some e => write e (field registry)
        | none => field registry)
    (registrations : List (Registration υ)) (registry : Registry υ) :
    field (registry.commitAll registrations) =
      (registrations.filterMap entry).foldl (fun map e => write e map) (field registry) := by
  induction registrations generalizing registry with
  | nil => rfl
  | cons registration rest ih =>
    show field ((registry.commit registration).commitAll rest) = _
    rw [ih, commits]
    cases written : entry registration with
    | none => rw [List.filterMap_cons_none written]
    | some e => rw [List.filterMap_cons_some written, List.foldl_cons]

theorem commitAll_tools (registrations : List (Registration υ)) (registry : Registry υ) :
    (registry.commitAll registrations).tools =
      insertAll (registrations.filterMap Registration.toolEntry) registry.tools := by
  apply commitAll_field Registry.tools Registration.toolEntry fun e => insertSorted e.1 e.2
  intro registry registration
  cases registration <;> rfl

theorem commitAll_resources (registrations : List (Registration υ)) (registry : Registry υ) :
    (registry.commitAll registrations).resources =
      insertAll (registrations.filterMap Registration.resourceEntry) registry.resources := by
  apply commitAll_field Registry.resources Registration.resourceEntry fun e => insertSorted e.1 e.2
  intro registry registration
  cases registration <;> rfl

theorem commitAll_prompts (registrations : List (Registration υ)) (registry : Registry υ) :
    (registry.commitAll registrations).prompts =
      insertAll (registrations.filterMap Registration.promptEntry) registry.prompts := by
  apply commitAll_field Registry.prompts Registration.promptEntry fun e => insertSorted e.1 e.2
  intro registry registration
  cases registration <;> rfl

/-- The templates are those that the template registrations alone leave. -/
theorem commitAll_templates (registrations : List (Registration υ)) (registry : Registry υ) :
    (registry.commitAll registrations).resourceTemplates =
      (registry.registerAll (registrations.filterMap Registration.templateEntry)).resourceTemplates
        := by
  induction registrations generalizing registry with
  | nil => rfl
  | cons registration rest ih =>
    have same (entries : List (TemplateEntry υ)) (one other : Registry υ)
        (equal : one.resourceTemplates = other.resourceTemplates) :
        (one.registerAll entries).resourceTemplates =
          (other.registerAll entries).resourceTemplates := by
      induction entries generalizing one other with
      | nil => exact equal
      | cons entry entries ih =>
        apply ih
        show (insertSorted _ _ (one.resourceTemplates.map _)).map _ = _
        rw [equal]
        rfl
    show ((registry.commit registration).commitAll rest).resourceTemplates = _
    rw [ih]
    cases registration with
    | resourceTemplate => rfl
    | tool | toolList | resource | resourceList | resourceTemplateList | prompt | promptList
    | completion | initializeHandler | loggingLevelHandler =>
      apply same
      rfl

namespace Lifecycle

/-- What holds between any two steps. -/
structure Sound (s : Lifecycle υ) : Prop where
  live : s.registry = Registry.commitAll {} s.committed
  copies : s.frozen = Registry.commitAll {} s.copied
  earlier : s.copied <+: s.committed
  launched : s.launch = .launching ∨ s.launch = .starting ∨ s.launch = .looping ∨
    s.launch = .failed → s.isFrozen = true
  guarded : s.running = true → s.isFrozen = true
  unlaunched : s.launch = .failed → s.running = false

theorem initial_sound : Sound ({} : Lifecycle υ) where
  live := rfl
  copies := rfl
  earlier := List.prefix_rfl
  launched := by simp
  guarded := nofun
  unlaunched := nofun

/-- A call of a `register_*` function is refused, or it waits for the lock. -/
theorem register_cases (s : Lifecycle υ) (registration : Registration υ) :
    (s.running = true ∧
      s.register registration = s.warn (some "Cannot register handlers after server is running")) ∨
    (s.running = false ∧
      s.register registration = { s with registering := s.registering ++ [some registration] }) := by
  unfold register
  cases s.running with
  | true => exact .inl ⟨rfl, rfl⟩
  | false => exact .inr ⟨rfl, rfl⟩

theorem lock_sound {s : Lifecycle υ} (inv : s.Sound) (place : Nat)
    (registration : Registration υ) : (s.lock place registration).Sound where
  live := by
    show s.registry.commit registration = Registry.commitAll {} (s.committed ++ [registration])
    rw [inv.live]
    exact (List.foldl_concat ..).symm
  copies := inv.copies
  earlier := inv.earlier.trans (List.prefix_append ..)
  launched := inv.launched
  guarded := inv.guarded
  unlaunched := inv.unlaunched

theorem runGoes_sound {s s' : Lifecycle υ} (inv : s.Sound) {starts : Bool}
    (h : s.runGoes starts = some s') : s'.Sound := by
  obtain ⟨live, copies, earlier, launched, guarded, unlaunched⟩ := inv
  unfold runGoes at h
  split at h
  · cases h
    exact ⟨live, live, List.prefix_rfl, by simp, guarded, nofun⟩
  · cases h
    exact ⟨live, copies, earlier, fun _ => rfl, fun _ => rfl, nofun⟩
  · rename_i launching
    cases h
    have frozen := launched (.inl launching)
    exact ⟨live, copies, earlier, fun _ => frozen, fun _ => frozen, nofun⟩
  · rename_i starting
    have frozen := launched (.inr (.inl starting))
    cases starts with
    | true =>
      cases h
      exact ⟨live, copies, earlier, fun _ => frozen, guarded, nofun⟩
    | false =>
      cases h
      exact ⟨live, copies, earlier, fun _ => frozen, nofun, fun _ => rfl⟩
  · rename_i failed
    cases h
    have idle := unlaunched failed
    refine ⟨live, copies, earlier, by simp, fun running => ?_, nofun⟩
    rw [idle] at running
    cases running
  · cases h
    exact ⟨live, copies, earlier, by simp, guarded, nofun⟩
  · cases h

theorem step_sound (s : Lifecycle υ) (event : LifecycleEvent υ) (s' : Lifecycle υ) (inv : s.Sound)
    (h : s.step event = some s') : s'.Sound := by
  have kept := inv
  obtain ⟨live, copies, earlier, launched, guarded, unlaunched⟩ := inv
  cases event with
  | registers registration =>
    cases h
    rcases register_cases s registration with ⟨-, same⟩ | ⟨-, same⟩ <;> rw [same] <;>
      exact ⟨live, copies, earlier, launched, guarded, unlaunched⟩
  | locks place =>
    obtain ⟨registration, -, rfl⟩ := Option.map_eq_some_iff.mp h
    exact lock_sound kept place registration
  | runs =>
    simp only [step, Option.ite_none_right_eq_some, Option.some.injEq] at h
    obtain ⟨-, rfl⟩ := h
    exact ⟨live, copies, earlier, by simp, guarded, nofun⟩
  | runGoes starts => exact runGoes_sound kept h
  | stops =>
    cases h
    split
    · exact kept
    · exact ⟨live, copies, earlier, launched, guarded, unlaunched⟩
  | halts =>
    simp only [step, Option.ite_none_right_eq_some, Option.some.injEq] at h
    obtain ⟨-, rfl⟩ := h
    exact ⟨live, copies, earlier, launched, nofun, fun _ => rfl⟩

theorem run_sound {events : List (LifecycleEvent υ)} {s : Lifecycle υ}
    (h : run step {} events = some s) : s.Sound :=
  run_keeps step_sound initial_sound h

/-- The handlers that requests meet are the registrations in force. -/
theorem handlers_eq {s : Lifecycle υ} (inv : s.Sound) (user : υ) :
    (s.server user).handlers = Registry.commitAll {} s.inForce := by
  unfold inForce
  cases frozen : s.isFrozen with
  | true => simpa [server, Server.handlers, frozen] using inv.copies
  | false => simpa [server, Server.handlers, frozen] using inv.live

/-- While the server runs, and `run` is not called again, only calls that were past their check
    get to the lock, and what requests meet stays as it was. -/
structure Since (t s : Lifecycle υ) : Prop where
  running : s.running = true
  launch : s.launch = .starting ∨ s.launch = .looping ∨ s.launch = .absent
  frozen : s.isFrozen = t.isFrozen ∧ s.frozen = t.frozen ∧ s.copied = t.copied
  waiting : ∀ registration, some registration ∈ s.registering →
    some registration ∈ t.registering
  late : ∃ late, s.committed = t.committed ++ late ∧
    ∀ registration ∈ late, some registration ∈ t.registering

theorem step_since {t : Lifecycle υ} (s : Lifecycle υ) (event : LifecycleEvent υ)
    (s' : Lifecycle υ) (inv : Since t s) (once : event ≠ .runs)
    (runs : s'.running = true) (h : s.step event = some s') : Since t s' := by
  obtain ⟨running, launch, frozen, waiting, late⟩ := inv
  cases event with
  | registers registration =>
    cases h
    rcases register_cases s registration with ⟨-, same⟩ | ⟨idle, -⟩
    · rw [same]
      exact ⟨running, launch, frozen, waiting, late⟩
    · rw [idle] at running
      cases running
  | locks place =>
    obtain ⟨registration, found, rfl⟩ := Option.map_eq_some_iff.mp h
    have member : some registration ∈ s.registering :=
      List.mem_iff_getElem?.mpr ⟨place, Option.join_eq_some_iff.mp found⟩
    obtain ⟨before, committed, all⟩ := late
    refine ⟨running, launch, frozen, fun other inside => ?_, before ++ [registration], ?_, ?_⟩
    · apply waiting
      rcases List.mem_or_eq_of_mem_set inside with old | new
      · exact old
      · cases new
    · show s.committed ++ [registration] = _
      rw [committed, List.append_assoc]
    · intro other inside
      rcases List.mem_append.mp inside with old | new
      · exact all other old
      · rw [List.mem_singleton.mp new]
        exact waiting registration member
  | runs => exact absurd rfl once
  | runGoes starts =>
    simp only [step, runGoes] at h
    rcases launch with starting | looping | absent
    · rw [starting] at h
      cases starts with
      | true =>
        cases h
        exact ⟨running, .inr (.inl rfl), frozen, waiting, late⟩
      | false =>
        cases h
        cases runs
    · rw [looping] at h
      cases h
      exact ⟨running, .inr (.inr rfl), frozen, waiting, late⟩
    · rw [absent] at h
      cases h
  | stops =>
    cases h
    split
    · exact ⟨running, launch, frozen, waiting, late⟩
    · exact ⟨running, launch, frozen, waiting, late⟩
  | halts =>
    simp only [step, Option.ite_none_right_eq_some, Option.some.injEq] at h
    obtain ⟨-, rfl⟩ := h
    cases runs

theorem Since.handlers {t s : Lifecycle υ} (since : Since t s) (user : υ)
    (set : t.isFrozen = true) : (s.server user).handlers = (t.server user).handlers := by
  obtain ⟨isFrozen, frozen, -⟩ := since.frozen
  rw [set] at isFrozen
  simp [server, Server.handlers, isFrozen, set, frozen]

/-- The server runs all along the run, and `run` is not called again. -/
def Serving (t : Lifecycle υ) (events : List (LifecycleEvent υ)) : Prop :=
  t.running = true ∧ Meets step
    (fun u event => event ≠ .runs ∧ ∀ u', u.step event = some u' → u'.running = true) t events

theorem run_since_running {t s : Lifecycle υ} {events : List (LifecycleEvent υ)}
    (launched : t.launch = .starting) (serving : t.Serving events)
    (h : run step t events = some s) : Since t s := by
  have start : Since t t :=
    ⟨serving.1, .inl launched, ⟨rfl, rfl, rfl⟩, fun _ member => member,
      [], (List.append_nil _).symm, nofun⟩
  exact run_invariant (fun u event u' inv met stepped =>
    step_since u event u' inv met.1 (met.2 u' stepped) stepped) start serving.2 h

/-- Requests meet exactly the registrations in force, the last one of each name: those whose
    critical section came before the copies of `run` while `frozen_` is set, else all. From the
    store of `running_` on they stay the same, whatever is registered; a registration that
    still gets to the lock had passed its check before. -/
theorem registrations_served {events : List (LifecycleEvent υ)} {s : Lifecycle υ}
    (h : run step {} events = some s) (user : υ) :
    (s.server user).handlers = Registry.commitAll {} s.inForce ∧
    (∀ name, (s.server user).handlers.tools.lookup name =
      (s.inForce.filterMap Registration.toolEntry).reverse.lookup name) ∧
    (∀ uri, (s.server user).handlers.resources.lookup uri =
      (s.inForce.filterMap Registration.resourceEntry).reverse.lookup uri) ∧
    (∀ name, (s.server user).handlers.prompts.lookup name =
      (s.inForce.filterMap Registration.promptEntry).reverse.lookup name) ∧
    (s.server user).handlers.resourceTemplates = (Registry.registerAll {}
      (s.inForce.filterMap Registration.templateEntry)).resourceTemplates ∧
    s.copied <+: s.committed ∧
    ∀ front back t, events = front ++ back → run step {} front = some t →
      t.launch = .starting → t.Serving back →
      (s.server user).handlers = (t.server user).handlers ∧
        ∃ late, s.committed = t.committed ++ late ∧
          ∀ registration ∈ late, some registration ∈ t.registering := by
  have inv := run_sound h
  have handlers := handlers_eq inv user
  refine ⟨handlers, fun name => ?_, fun uri => ?_, fun name => ?_, ?_, inv.earlier, ?_⟩
  · rw [handlers, commitAll_tools, lookup_insertAll_last]
    exact Option.or_none
  · rw [handlers, commitAll_resources, lookup_insertAll_last]
    exact Option.or_none
  · rw [handlers, commitAll_prompts, lookup_insertAll_last]
    exact Option.or_none
  · rw [handlers, commitAll_templates]
  · intro front back t split reached launched serving
    subst split
    obtain ⟨t', reached', h⟩ := run_split h
    obtain rfl : t = t' := by simpa [reached] using reached'
    have since := run_since_running launched serving h
    have frozen := (run_sound reached).launched (.inr (.inl launched))
    exact ⟨since.handlers user frozen, since.late⟩

def quietLevel : Registration Unit := .loggingLevelHandler (some fun _ => pure ())

/-- A registration passes its check before `running_` is set and gets to the lock behind it, and
    another one comes too late for the check. -/
theorem registrations_served_late :
    ∃ t s : Lifecycle Unit,
      run step {} [.registers quietLevel, .runs, .runGoes true, .runGoes true, .runGoes true] =
        some t ∧
      run step {} ([.registers quietLevel, .runs, .runGoes true, .runGoes true, .runGoes true] ++
        [.locks 0, .registers quietLevel, .runGoes true]) = some s ∧
      s.committed = [quietLevel] ∧ s.registering = [none] ∧
      (s.server ()).handlers = (t.server ()).handlers := by
  have served := @registrations_served Unit ([.registers quietLevel, .runs, .runGoes true,
    .runGoes true, .runGoes true] ++ [.locks 0, .registers quietLevel, .runGoes true]) _ rfl ()
  obtain ⟨-, -, -, -, -, -, later⟩ := served
  refine ⟨_, _, rfl, rfl, rfl, rfl, (later _ _ _ rfl rfl rfl ⟨rfl, ?_⟩).1⟩
  refine ⟨⟨nofun, fun u h => by cases h; rfl⟩, fun u h => ?_⟩
  cases h
  refine ⟨⟨nofun, fun u h => by cases h; rfl⟩, fun u h => ?_⟩
  cases h
  exact ⟨⟨nofun, fun u h => by cases h; rfl⟩, fun _ _ => True.intro⟩

end Lifecycle

end CppMcp
